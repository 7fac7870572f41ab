import DenonAvr.ApiContract.Error
import DenonAvr.ApiContract.Paths
import DenonAvr.Application.AccessBook
import DenonAvr.Infrastructure.TokenStore

/-!
# What every request passes through

The peer's uid is checked when the connection is accepted, then the credential of a request, and only then its body, its
path and its method. The routers of the two endpoints are made from the one route table.

`pipeline_guards` says what follows: whoever has no credential of the endpoint's kind gets an answer that does not depend
on what was asked for; a handler runs for an agent only on a shared resource and with a token that is not revoked; and the
requests of the client reach the handlers they are meant for. On the Agent endpoint the Operator's resources do not exist,
and the log is told which one was asked for.
-/

namespace DenonAvr.Server.Pipeline

open Domain Application ApiContract Infrastructure

/-! ### Requests -/

inductive HttpMethod
  | known (method : Method)
  /-- A router answers it by the handler of `GET`. -/
  | head
  | other (name : String)
deriving DecidableEq

/-- Whether a row's handler answers a request with this method. -/
def HttpMethod.runs : HttpMethod → Method → Bool
  | .known method, row => method == row
  | .head, row => row == .get
  | .other _, _ => false

def HttpMethod.sendsBody (method : HttpMethod) : Bool := method.runs .post || method.runs .put

/-- The head of a request. A header that is not visible ASCII has no text. -/
structure HttpRequest where
  method : HttpMethod
  /-- The path and the query. -/
  target : String
  authorization : List (Option String)
  transferEncoding : Bool := false
  contentLength : Option (Option String) := none

namespace HttpRequest

def path (request : HttpRequest) : String := String.ofList (request.target.toList.takeWhile (· ≠ '?'))

def query (request : HttpRequest) : Option String :=
  match request.target.toList.dropWhile (· ≠ '?') with
  | [] => none
  | _ :: query => some (String.ofList query)

end HttpRequest

/-! ### Errors -/

/-- `ApiError::server`. -/
def serverError (status : ℕ) (code message : String) : ApiError := ⟨status, { code, message }⟩

/-- The 401 every refused credential gets. -/
def unauthenticated : ApiError := serverError 401 "unauthenticated" "a valid credential is required"

def credentialInUrl : ApiError :=
  serverError 400 "invalid_request" "a credential belongs in the Authorization header and never in the URL"

def noSuchResource : ApiError := serverError 404 "not_found" "no such resource"

def methodNotAllowed : ApiError := serverError 405 "method_not_allowed" "that method is not allowed on this resource"

/-! ### The credential -/

def credentialParameters : List String := ["token", "access_token", "api_key", "apikey", "authorization", "bearer"]

def namesCredential (pair : List Char) : Bool :=
  credentialParameters.contains (String.ofList ((pair.takeWhile (· ≠ '=')).map Char.toLower))

def credentialInQuery (query : Option String) : Bool :=
  query.any fun query => (query.toList.splitOn '&').any namesCredential

inductive Presented
  | none
  /-- More than one `Authorization` header, or one that is not a bearer token. -/
  | malformed
  | token (token : String)
deriving DecidableEq

/-- The scheme of a credential and what follows the first blank. -/
def bearerToken (text : String) : Option String :=
  match text.toList.span (· ≠ ' ') with
  | (scheme, _ :: token) =>
    if scheme.map Char.toLower = "bearer".toList ∧ token ≠ [] then some (String.ofList token) else none
  | (_, []) => none

def presented : List (Option String) → Presented
  | [] => .none
  | [some text] =>
    match bearerToken text with
    | some token => .token token
    | none => .malformed
  | _ => .malformed

/-- Who a request is from. -/
structure Authenticated where
  principal : Principal
  /-- The agent token that was presented. -/
  token : Option TokenId
deriving DecidableEq

/-- Who a credential lets in at an endpoint, or why it does not. -/
def letsIn : Application.EndpointKind → Credential → Except RefusalReason Authenticated
  | .operator, .operatorToken => .ok ⟨.operator, none⟩
  | .agent, .agent label id => .ok ⟨.agent label, some id⟩
  | .agent, .operatorToken => .error .operatorTokenOnAgentEndpoint
  | .operator, .agent _ _ => .error .agentTokenOnOperatorEndpoint
  | _, .unknown => .error .unknownCredential

/-- Who a request is from by its headers, for a store that takes these tokens. -/
def identify (kind : Application.EndpointKind) (accepts : String → Credential) (authorization : List (Option String)) :
    Except RefusalReason Authenticated :=
  match presented authorization with
  | .none => .error .noCredential
  | .malformed => .error .unknownCredential
  | .token token => letsIn kind (accepts token)

/-! ### The body -/

structure Limits where
  bodyLimit : ℕ := 16 * 1024
  configBodyLimit : ℕ := 1024 * 1024

def limitOf (limits : Limits) (request : HttpRequest) : ℕ :=
  if request.method = .known .put ∧ request.path = "/v1/config" then limits.configBodyLimit else limits.bodyLimit

/-- The length a request declares, before a byte of its body is read. -/
def declaredLength (request : HttpRequest) : Except ApiError ℕ :=
  if request.transferEncoding then
    .error (serverError 411 "length_required" "a request body must declare its length; chunked bodies are not accepted")
  else
    match request.contentLength.join with
    | some text =>
      match parseU64 text with
      | some length => .ok length.toNat
      | none => .error (serverError 400 "invalid_request" "the body length is not a number")
    | none =>
      if request.method.sendsBody then
        .error (serverError 411 "length_required" "a request body must declare its length")
      else .ok 0

def checkBody (limits : Limits) (request : HttpRequest) : Option ApiError :=
  match declaredLength request with
  | .error error => some error
  | .ok length =>
    if limitOf limits request < length then
      some (serverError 413 "payload_too_large"
        ("a request body may be at most " ++ toString (limitOf limits request) ++ " bytes"))
    else none

/-! ### The routes -/

/-- Whether `path` fits a route pattern, `{id}` standing for one whole segment. -/
def fits (pattern path : String) : Bool :=
  let pattern := splitSlash pattern.toList
  let path := splitSlash path.toList
  decide (pattern.length = path.length) && (pattern.zip path).all fun p => (isParam p.1 && !p.2.isEmpty) || p.1 == p.2

/-- The rows of the pattern that a router takes a path for. -/
def resource (operator : Bool) (path : String) : List Route :=
  let fitting := (servedTo operator).filter fun row => fitsSegments row.segments (segments path)
  fitting.filter fun row => fitting.all fun other => !precedes other.segments row.segments

inductive Answer
  | error (error : ApiError)
  | handled (who : Authenticated) (route : RouteId)

/-- The refusal of a path that is not a resource of the Agent endpoint. -/
def notServed (who : Authenticated) (peerUid : Option ℕ) (request : HttpRequest) : AccessRefusal where
  endpoint := .agent
  reason := .resourceNotServed
  principal := some who.principal
  peerUid := peerUid
  resource := (ApiContract.table.find? fun row => fits row.pattern request.path).map Route.pattern

/-- The router of an endpoint, and what it reports. -/
def route (kind : Application.EndpointKind) (who : Authenticated) (peerUid : Option ℕ) (request : HttpRequest) :
    Answer × List AccessRefusal :=
  match resource (kind == .operator) request.target with
  | [] => (.error noSuchResource, if kind = .agent then [notServed who peerUid request] else [])
  | rows =>
    match rows.find? fun row => request.method.runs row.method with
    | some row => (.handled who row.id, [])
    | none => (.error methodNotAllowed, [])

/-- `authenticate`: what a request is answered by, and the refusals that are reported. -/
def authenticate (kind : Application.EndpointKind) (accepts : String → Credential) (limits : Limits)
    (peerUid : Option ℕ) (request : HttpRequest) : Answer × List AccessRefusal :=
  if credentialInQuery request.query then (.error credentialInUrl, [])
  else
    match identify kind accepts request.authorization with
    | .error reason =>
      (.error unauthenticated, [{ endpoint := kind, reason, principal := none, peerUid, resource := none }])
    | .ok who =>
      match checkBody limits request with
      | some failure => (.error failure, [])
      | none => route kind who peerUid request

/-- Whether a peer is served. -/
def admits (admitted : List ℕ) (peerUid : Option ℕ) : Bool := peerUid.any fun uid => admitted.contains uid

/-- An endpoint: whom it admits, and what its store and its limits are. -/
structure Endpoint where
  kind : Application.EndpointKind
  admitted : List ℕ
  accepts : String → Credential
  limits : Limits := {}

/-- A request over a new connection. There is no answer from a connection that is closed unread. -/
def serve (endpoint : Endpoint) (peerUid : Option ℕ) (request : HttpRequest) : Option Answer × List AccessRefusal :=
  if admits endpoint.admitted peerUid then
    (authenticate endpoint.kind endpoint.accepts endpoint.limits peerUid request).map some id
  else
    (none, [{ endpoint := endpoint.kind, reason := .peerNotAdmitted, principal := none, peerUid, resource := none }])

/-- What the client sends for a request, with this many bytes of body where it has one. -/
def sent (token : String) (request : ClientRequest) (length : UInt64) : HttpRequest where
  method := .known request.method
  target := request.path
  authorization := [some ("Bearer " ++ token)]
  contentLength := if (HttpMethod.known request.method).sendsBody then some (some (decimal length)) else none

/-! ### What a handler can rely on -/

section Handled
variable {kind : Application.EndpointKind} {accepts : String → Credential} {limits : Limits} {peerUid : Option ℕ}
  {request other : HttpRequest} {who : Authenticated} {id : RouteId} {refusals : List AccessRefusal} {operator : Bool}

theorem mem_resource {row : Route} (h : row ∈ resource operator request.target) :
    row ∈ ApiContract.table ∧ (operator = true ∨ row.audience = .both) ∧
      fitsSegments row.segments (segments request.target) = true := by
  obtain ⟨hfitting, -⟩ := List.mem_filter.mp h
  obtain ⟨hserved, hfits⟩ := List.mem_filter.mp hfitting
  obtain ⟨htable, haudience⟩ := List.mem_filter.mp hserved
  refine ⟨htable, ?_, hfits⟩
  simpa using haudience

/-- A row that the router runs the handler of. -/
structure Runs (kind : Application.EndpointKind) (request : HttpRequest) (id : RouteId) (row : Route) : Prop where
  mem : row ∈ ApiContract.table
  meant : row.id = id
  served : kind = .operator ∨ row.audience = .both
  fits : fitsSegments row.segments (segments request.target) = true
  method : request.method.runs row.method = true

theorem route_eq_handled {found : Authenticated} (h : route kind who peerUid request = (.handled found id, refusals)) :
    found = who ∧ refusals = [] ∧ ∃ row, Runs kind request id row := by
  unfold route at h
  cases hrows : resource (kind == .operator) request.target with
  | nil =>
    rw [hrows] at h
    cases h
  | cons first rows =>
    rw [hrows] at h
    cases hfind : (first :: rows).find? fun row => request.method.runs row.method with
    | none =>
      simp only [hfind] at h
      cases h
    | some row =>
      simp only [hfind] at h
      obtain ⟨hanswer, hnone⟩ := Prod.mk.inj h
      obtain ⟨rfl, hid⟩ := Answer.handled.inj hanswer
      obtain ⟨htable, hserved, hfits⟩ := mem_resource (hrows ▸ List.mem_of_find?_eq_some hfind)
      refine ⟨rfl, hnone.symm, row, htable, hid, hserved.imp_left fun hkind => beq_iff_eq.mp hkind, hfits, ?_⟩
      simpa using List.find?_some hfind

/-- Whoever is not let in gets an answer and a record that the rest of the request has no part in. -/
theorem authenticate_congr (hquery : credentialInQuery request.query = credentialInQuery other.query)
    (hheader : request.authorization = other.authorization) {reason : RefusalReason}
    (h : identify kind accepts request.authorization = .error reason) :
    authenticate kind accepts limits peerUid request = authenticate kind accepts limits peerUid other := by
  unfold authenticate
  rw [← hquery, ← hheader, h]

theorem checkBody_eq_none (h : checkBody limits request = none) :
    ∃ length, declaredLength request = .ok length ∧ length ≤ limitOf limits request := by
  unfold checkBody at h
  split at h
  · cases h
  · rename_i length hlength
    split_ifs at h with hlimit
    exact ⟨length, hlength, Nat.le_of_not_lt hlimit⟩

theorem authenticate_eq_handled (h : authenticate kind accepts limits peerUid request = (.handled who id, refusals)) :
    refusals = [] ∧ credentialInQuery request.query = false ∧ identify kind accepts request.authorization = .ok who ∧
      (∃ length, declaredLength request = .ok length ∧ length ≤ limitOf limits request) ∧
        ∃ row, Runs kind request id row := by
  unfold authenticate at h
  split_ifs at h with hquery
  · cases h
  · split at h
    · cases h
    · rename_i found hfound
      split at h
      · cases h
      · rename_i hbody
        obtain ⟨rfl, hnone, hrow⟩ := route_eq_handled h
        exact ⟨hnone, eq_false_of_ne_true hquery, hfound, checkBody_eq_none hbody, hrow⟩

/-- Who is let in has presented one bearer token that the store takes as one of the endpoint's kind. -/
theorem identify_eq_ok {authorization : List (Option String)} (h : identify kind accepts authorization = .ok who) :
    ∃ text token, authorization = [some text] ∧ bearerToken text = some token ∧
      (kind = .operator ∧ accepts token = .operatorToken ∧ who = ⟨.operator, none⟩ ∨
        kind = .agent ∧ ∃ label id, accepts token = .agent label id ∧ who = ⟨.agent label, some id⟩) := by
  unfold identify presented at h
  split at h <;> rename_i heq
  · cases h
  · cases h
  · rename_i token
    split at heq
    · cases heq
    · rename_i text
      cases hbearer : bearerToken text with
      | none =>
        rw [hbearer] at heq
        cases heq
      | some found =>
        rw [hbearer] at heq
        obtain rfl := Presented.token.inj heq
        refine ⟨text, found, rfl, hbearer, ?_⟩
        cases kind <;> cases haccepts : accepts found <;> rw [haccepts] at h <;> cases h
        · exact .inl ⟨rfl, rfl, rfl⟩
        · exact .inr ⟨rfl, _, _, rfl, rfl⟩
    · cases heq

end Handled

/-! ### The requests of the client -/

/-- Whether a resource is on the Agent endpoint, too. -/
def isShared (id : RouteId) : Bool := (servedTo false).any fun row => row.id == id

/-- The pattern of a resource. -/
def patternFor (id : RouteId) : Option String := (ApiContract.table.find? fun row => row.id == id).map Route.pattern

section Sent
variable {kind : Application.EndpointKind} {accepts : String → Credential} {limits : Limits} {peerUid : Option ℕ}
  {who : Authenticated} {token : String} {request : ClientRequest} {length : UInt64}

theorem query_eq_none {request : HttpRequest} (h : '?' ∉ request.target.toList) : request.query = none := by
  have hall : request.target.toList.dropWhile (· ≠ '?') = [] := by
    rw [List.dropWhile_eq_nil_iff]
    intro c hc
    simpa using fun heq : c = '?' => h (heq ▸ hc)
  unfold HttpRequest.query
  rw [hall]

theorem query_eq_some {request : HttpRequest} {path query : String} (htarget : request.target = path ++ "?" ++ query)
    (hpath : '?' ∉ path.toList) : request.query = some query := by
  have hchars : request.target.toList = path.toList ++ '?' :: query.toList := by
    rw [htarget]
    simp [String.toList_append]
  have hdrop : request.target.toList.dropWhile (· ≠ '?') = '?' :: query.toList := by
    rw [hchars, List.dropWhile_append_of_pos, List.dropWhile_cons_of_neg (by decide)]
    intro c hc
    simpa using fun heq : c = '?' => hpath (heq ▸ hc)
  unfold HttpRequest.query
  rw [hdrop]
  simp

/-- A parameter is judged by its name. -/
theorem namesCredential_parameter (name : String) (value : List Char) (hname : '=' ∉ name.toList) :
    namesCredential (name.toList ++ '=' :: value) = namesCredential name.toList := by
  have hall : ∀ c ∈ name.toList, decide (c ≠ '=') = true := fun c hc => by
    simpa using fun heq : c = '=' => hname (heq ▸ hc)
  unfold namesCredential
  rw [List.takeWhile_append_of_pos hall, List.takeWhile_cons_of_neg (by decide), List.append_nil,
    List.takeWhile_eq_self_iff.mpr hall]

theorem notMem_decimal {c : Char} (n : UInt64) (h : c.isDigit = false) : c ∉ (decimal n).toList := fun hc => by
  rw [isDigit_of_mem_decimal hc] at h
  cases h

theorem notMem_encodeSegment (text : String) : '?' ∉ (encodeSegment text).toList := fun hc =>
  absurd (isDelimiter_of_mem_encodeSegment hc) (by decide)

theorem credentialInQuery_one (name : String) (n : UInt64) (hname : '=' ∉ name.toList ∧ '&' ∉ name.toList)
    (hplain : namesCredential name.toList = false) : credentialInQuery (some (name ++ "=" ++ decimal n)) = false := by
  have hchars : (name ++ "=" ++ decimal n).toList = name.toList ++ '=' :: (decimal n).toList := by
    simp [String.toList_append]
  have hno : '&' ∉ name.toList ++ '=' :: (decimal n).toList := by
    simp [hname.2, notMem_decimal n (show ('&').isDigit = false by decide)]
  rw [credentialInQuery, Option.any_some, hchars, List.splitOn_eq_singleton hno, List.any_cons, List.any_nil,
    namesCredential_parameter name _ hname.1, hplain]
  rfl

/-- A path without a query has no credential in it. -/
theorem credentialInQuery_plain (h : '?' ∉ request.path.toList) :
    credentialInQuery (sent token request length).query = false := by
  have hquery : (sent token request length).query = none := query_eq_none h
  rw [hquery]
  rfl

theorem notMem_path_ofReceiver (inner : ReceiverRequest) (receiver : ReceiverId) :
    '?' ∉ (inner.path receiver).toList := by
  have hpath : inner.path receiver = "/v1/receivers/" ++ encodeSegment receiver.value ++ inner.rest := by cases inner <;> rfl
  have hrest : '?' ∉ inner.rest.toList := by cases inner <;> decide
  rw [hpath]
  simp [String.toList_append, notMem_encodeSegment, hrest]

theorem notMem_path_cancel (id : UInt64) : '?' ∉ (Request.cancel id).toList := by
  have hdigits : '?' ∉ (decimal id).toList := notMem_decimal id (by decide)
  unfold Request.cancel
  simp [String.toList_append, hdigits]

theorem notMem_path_token (id : String) : '?' ∉ (Request.token id).toList := by
  unfold Request.token
  simp [String.toList_append, notMem_encodeSegment]

theorem credentialInQuery_operation (id : UInt64) (waitMs : Option UInt64) :
    credentialInQuery (sent token (.operation id waitMs) length).query = false := by
  have hdigits : '?' ∉ (decimal id).toList := notMem_decimal id (by decide)
  have habove : '?' ∉ ("/v1/operations/" ++ decimal id).toList := by simp [String.toList_append, hdigits]
  cases waitMs with
  | none => exact credentialInQuery_plain habove
  | some wait =>
    have hliteral : "?wait_ms=" = "?" ++ ("wait_ms" ++ "=") := rfl
    have htarget : (sent token (.operation id (some wait)) length).target =
        "/v1/operations/" ++ decimal id ++ "?" ++ ("wait_ms" ++ "=" ++ decimal wait) := by
      rw [show (sent token (.operation id (some wait)) length).target =
        "/v1/operations/" ++ decimal id ++ "?wait_ms=" ++ decimal wait from rfl, hliteral]
      simp only [String.append_assoc]
    rw [query_eq_some htarget habove]
    exact credentialInQuery_one _ _ (by decide) (by decide)

theorem credentialInQuery_audit (limit : UInt64) (cursor : Option UInt64) :
    credentialInQuery (sent token (.audit limit cursor) length).query = false := by
  have hliteral : "/v1/audit?limit=" = "/v1/audit" ++ "?" ++ ("limit" ++ "=") := rfl
  cases cursor with
  | none =>
    have htarget : (sent token (.audit limit none) length).target = "/v1/audit" ++ "?" ++ ("limit" ++ "=" ++ decimal limit) := by
      rw [show (sent token (.audit limit none) length).target = "/v1/audit?limit=" ++ decimal limit from rfl, hliteral]
      simp only [String.append_assoc]
    rw [query_eq_some htarget (by decide)]
    exact credentialInQuery_one _ _ (by decide) (by decide)
  | some cursor =>
    have hnext : "&cursor=" = "&" ++ ("cursor" ++ "=") := rfl
    have htarget : (sent token (.audit limit (some cursor)) length).target =
        "/v1/audit" ++ "?" ++ ("limit" ++ "=" ++ decimal limit ++ "&" ++ ("cursor" ++ "=" ++ decimal cursor)) := by
      rw [show (sent token (.audit limit (some cursor)) length).target =
        "/v1/audit?limit=" ++ decimal limit ++ "&cursor=" ++ decimal cursor from rfl, hliteral, hnext]
      simp only [String.append_assoc]
    have hchars : ("limit" ++ "=" ++ decimal limit ++ "&" ++ ("cursor" ++ "=" ++ decimal cursor)).toList =
        ("limit".toList ++ '=' :: (decimal limit).toList) ++ '&' :: ("cursor".toList ++ '=' :: (decimal cursor).toList) := by
      simp [String.toList_append]
    have hlimit : '&' ∉ "limit".toList ++ '=' :: (decimal limit).toList := by
      simp [notMem_decimal limit (show ('&').isDigit = false by decide)]
    have hcursor : '&' ∉ "cursor".toList ++ '=' :: (decimal cursor).toList := by
      simp [notMem_decimal cursor (show ('&').isDigit = false by decide)]
    rw [query_eq_some htarget (by decide), credentialInQuery, Option.any_some, hchars,
      List.splitOn_append_cons_self_of_not_mem hlimit, List.splitOn_eq_singleton hcursor]
    simp only [List.any_cons, List.any_nil, namesCredential_parameter "limit" _ (by decide),
      namesCredential_parameter "cursor" _ (by decide)]
    decide

/-- The client puts no credential in a URL. -/
theorem credentialInQuery_sent (request : ClientRequest) : credentialInQuery (sent token request length).query = false := by
  cases request with
  | ofReceiver inner receiver => exact credentialInQuery_plain (notMem_path_ofReceiver inner receiver)
  | operation id waitMs => exact credentialInQuery_operation id waitMs
  | cancel id => exact credentialInQuery_plain (notMem_path_cancel id)
  | audit limit cursor => exact credentialInQuery_audit limit cursor
  | tokenRevoke id => exact credentialInQuery_plain (notMem_path_token id.value)
  | _ => exact credentialInQuery_plain (by decide)

theorem identify_sent (hwho : letsIn kind (accepts token) = .ok who) (htoken : token ≠ "") :
    identify kind accepts (sent token request length).authorization = .ok who := by
  have hbearer : bearerToken ("Bearer " ++ token) = some token := by
    have hchars : ("Bearer " ++ token).toList = "Bearer".toList ++ ' ' :: token.toList := by
      rw [String.toList_append]
      rfl
    have hspan : ("Bearer".toList ++ ' ' :: token.toList).span (· ≠ ' ') = ("Bearer".toList, ' ' :: token.toList) := by
      rw [List.span_eq_takeWhile_dropWhile]
      rfl
    have hne : token.toList ≠ [] := fun hnil => htoken (String.toList_inj.mp hnil)
    unfold bearerToken
    rw [hchars, hspan]
    dsimp only
    rw [if_pos ⟨by decide, hne⟩, String.ofList_toList]
  change identify kind accepts [some ("Bearer " ++ token)] = _
  simp only [identify, presented, hbearer]
  exact hwho

/-- The client declares the length of what it sends. -/
theorem declaredLength_sent :
    declaredLength (sent token request length) =
      .ok (if (HttpMethod.known request.method).sendsBody then length.toNat else 0) := by
  unfold declaredLength sent
  dsimp only
  rw [if_neg (by simp)]
  split_ifs
  · simp [parseU64_decimal]
  · rfl

theorem checkBody_sent (hlength : length.toNat ≤ limitOf limits (sent token request length)) :
    checkBody limits (sent token request length) = none := by
  unfold checkBody
  rw [declaredLength_sent]
  dsimp only
  rw [if_neg]
  split_ifs <;> omega

theorem routed_eq_filter_resource (operator : Bool) (method : Method) (path : String) :
    routed operator method path = (resource operator path).filter fun row => row.method == method := rfl

theorem isServed_of_isShared (h : isShared request.route = true ∨ kind = .operator) :
    ∃ row rest, ((servedTo (kind == .operator)).filter fun row => row.id == request.route) = row :: rest ∧
      row.id = request.route := by
  generalize request.route = id at h
  cases kind with
  | operator => cases id <;> exact ⟨_, _, rfl, rfl⟩
  | agent =>
    have hshared := h.resolve_right (by simp)
    cases id <;> first | exact ⟨_, _, rfl, rfl⟩ | cases hshared

/-- A request for a resource of the endpoint reaches its handler. -/
theorem route_sent (h : isShared request.route = true ∨ kind = .operator) :
    route kind who peerUid (sent token request length) = (.handled who request.route, []) := by
  obtain ⟨row, rest, hrows, hid⟩ := isServed_of_isShared h
  have hroutes : (resource (kind == .operator) request.path).filter (fun row => row.method == request.method) = row :: rest := by
    rw [← routed_eq_filter_resource, leadsToRoute request, hrows]
  have hfind : (resource (kind == .operator) request.path).find? (fun row => (HttpMethod.known request.method).runs row.method)
      = some row := by
    have hruns : (fun row : Route => (HttpMethod.known request.method).runs row.method) =
        fun row : Route => row.method == request.method := by
      funext row
      exact Bool.beq_comm
    rw [hruns, ← List.head?_filter, hroutes]
    rfl
  unfold route
  change (match resource (kind == .operator) request.path with | [] => _ | rows => _) = _
  cases hresource : resource (kind == .operator) request.path with
  | nil =>
    rw [hresource] at hfind
    cases hfind
  | cons first rows =>
    rw [hresource] at hfind
    simp only [sent, hfind, hid]

/-- The paths of the Operator's resources fit no other pattern. -/
theorem fits_operator (h : isShared request.route = false) :
    ∀ row ∈ ApiContract.table, fitsSegments row.segments (segments request.path) = (patternOf row.id == patternOf request.route) := by
  intro row hrow
  cases request with
  | ofReceiver inner receiver =>
    have hbelow : inner.below ≠ [] := by cases inner <;> simp [ReceiverRequest.below]
    have hsample : ∀ row ∈ ApiContract.table, fitsSegments (rowSegments row.id) (["", "v1", "receivers"] ++ "x" :: inner.below)
        = (patternOf row.id == patternOf inner.route) := by cases inner <;> decide
    exact (congrArg _ (segments_ofReceiver inner receiver)).trans <| (fitsSegments_place placeAfter_receivers
      (encodeSegment_ne_empty (receiver_value_ne_empty receiver)) (by decide) (.inr hbelow) hrow).trans (hsample row hrow)
  | tokenRevoke id =>
    have hsample : ∀ row ∈ ApiContract.table, fitsSegments (rowSegments row.id) (["", "v1", "tokens"] ++ "x" :: [])
        = (patternOf row.id == patternOf .tokenRevoke) := by decide
    exact (congrArg _ (segments_token id)).trans <| (fitsSegments_place placeAfter_tokens
      (encodeSegment_ne_empty (tokenId_value_ne_empty id)) (by decide) (.inl List.not_mem_nil) hrow).trans
        (hsample row hrow)
  | audit limit cursor =>
    have hsample : ∀ row ∈ ApiContract.table, fitsSegments (rowSegments row.id) ["", "v1", "audit"] =
        (patternOf row.id == patternOf .audit) := by decide
    rw [segments_eq_rowSegments row hrow]
    exact (congrArg _ (segments_audit limit cursor)).trans (hsample row hrow)
  | operation | cancel | health | receivers | operationEvents => cases h
  | _ =>
    rw [segments_eq_rowSegments row hrow]
    revert row
    decide

/-- `fits` compares the segments. -/
theorem fits_eq (pattern path : String) :
    fits pattern path = fitsSegments (splitSlash pattern.toList) (splitSlash path.toList) := by
  unfold fits
  dsimp only
  generalize splitSlash pattern.toList = ps, splitSlash path.toList = qs
  induction ps generalizing qs with
  | nil => cases qs <;> rfl
  | cons p ps ih =>
    cases qs with
    | nil => rfl
    | cons q qs =>
      rw [fitsSegments, ← ih qs, List.zip_cons_cons, List.all_cons, List.length_cons, List.length_cons]
      simp only [Nat.add_right_cancel_iff]
      cases decide (ps.length = qs.length) <;> simp

/-- A request of an agent for a resource of the Operator is answered as one for nothing, and reported by its pattern. -/
theorem route_sent_agent (h : isShared request.route = false) :
    route .agent who peerUid (sent token request length) =
      (.error noSuchResource,
        [{ endpoint := .agent
           reason := .resourceNotServed
           principal := some who.principal
           peerUid
           resource := patternFor request.route }]) := by
  have hapart : ∀ row ∈ servedTo false, (patternOf row.id == patternOf request.route) = false := by
    generalize request.route = id at h
    cases id <;> first | decide | cases h
  have hnone : (servedTo false).filter (fun row => fitsSegments row.segments (segments request.path)) = [] := by
    rw [List.filter_eq_nil_iff]
    intro row hrow hfits
    rw [fits_operator h row (List.mem_of_mem_filter hrow), hapart row hrow] at hfits
    cases hfits
  have hresource : resource false request.path = [] := by
    unfold resource
    rw [hnone]
    rfl
  have hpath : splitSlash ((sent token request length).path).toList = segments request.path := by
    unfold HttpRequest.path
    rw [String.toList_ofList]
    rfl
  have hfind : (ApiContract.table.find? fun row => fits row.pattern (sent token request length).path) =
      ApiContract.table.find? fun row => patternOf row.id == patternOf request.route := by
    refine List.find?_congr fun row hrow => ?_
    rw [fits_eq, hpath]
    exact fits_operator h row hrow
  have hpattern : (ApiContract.table.find? fun row => patternOf row.id == patternOf request.route).map Route.pattern =
      patternFor request.route := by
    generalize request.route = id
    cases id <;> decide
  unfold route
  change (match resource false request.path with | [] => _ | rows => _) = _
  rw [hresource]
  dsimp only
  rw [if_pos rfl, notServed, hfind, hpattern]

end Sent

/-! ### The guard -/

/-- What an endpoint answers to every request over a connection of every peer. -/
structure Guarded (endpoint : Endpoint) : Prop where
  /-- A handler runs for an admitted peer with one bearer token of the endpoint's kind, on a resource of the endpoint, and
  for a body whose declared length is in bounds. -/
  handled : ∀ peerUid request who id refusals, serve endpoint peerUid request = (some (.handled who id), refusals) →
    refusals = [] ∧ admits endpoint.admitted peerUid = true ∧ credentialInQuery request.query = false ∧
      (∃ text token, request.authorization = [some text] ∧ bearerToken text = some token ∧
        (endpoint.kind = .operator ∧ endpoint.accepts token = .operatorToken ∧ who = ⟨.operator, none⟩ ∨
          endpoint.kind = .agent ∧ ∃ label id, endpoint.accepts token = .agent label id ∧ who = ⟨.agent label, some id⟩)) ∧
        (∃ length, declaredLength request = .ok length ∧ length ≤ limitOf endpoint.limits request) ∧
          ∃ row, Runs endpoint.kind request id row
  /-- Without such a token the answer is the same whatever is asked for, and why is reported. -/
  refused : ∀ peerUid request other reason, admits endpoint.admitted peerUid = true →
    credentialInQuery request.query = false → credentialInQuery other.query = false →
      request.authorization = other.authorization → identify endpoint.kind endpoint.accepts request.authorization = .error reason →
        serve endpoint peerUid request = (some (.error unauthenticated),
          [{ endpoint := endpoint.kind, reason, principal := none, peerUid, resource := none }]) ∧
        serve endpoint peerUid other = serve endpoint peerUid request
  /-- A request of the client reaches the handler it is meant for, if the endpoint has it. -/
  served : ∀ peerUid token who request length, admits endpoint.admitted peerUid = true → token ≠ "" →
    letsIn endpoint.kind (endpoint.accepts token) = .ok who →
      length.toNat ≤ limitOf endpoint.limits (sent token request length) →
        (isShared request.route = true ∨ endpoint.kind = .operator →
          serve endpoint peerUid (sent token request length) = (some (.handled who request.route), [])) ∧
        (isShared request.route = false → endpoint.kind = .agent →
          serve endpoint peerUid (sent token request length) = (some (.error noSuchResource),
            [{ endpoint := .agent
               reason := .resourceNotServed
               principal := some who.principal
               peerUid
               resource := patternFor request.route }]))

theorem serve_admitted {endpoint : Endpoint} {peerUid : Option ℕ} (h : admits endpoint.admitted peerUid = true)
    (request : HttpRequest) : serve endpoint peerUid request =
      (authenticate endpoint.kind endpoint.accepts endpoint.limits peerUid request).map some id := if_pos h

theorem guarded (endpoint : Endpoint) : Guarded endpoint := by
  refine ⟨fun peerUid request who id refusals hserve => ?_, fun peerUid request other reason hpeer hquery hother hheader hwho => ?_,
    fun peerUid token who request length hpeer htoken hwho hlength => ?_⟩
  · have hpeer : admits endpoint.admitted peerUid = true := by
      by_contra hnot
      rw [serve, if_neg hnot] at hserve
      cases hserve
    rw [serve_admitted hpeer] at hserve
    obtain ⟨hanswer, hsame⟩ := Prod.mk.inj hserve
    have hhandled : authenticate endpoint.kind endpoint.accepts endpoint.limits peerUid request = (.handled who id, refusals) :=
      Prod.ext (Option.some.inj hanswer) hsame
    obtain ⟨hnone, hquery, hwho, hbody, hrow⟩ := authenticate_eq_handled hhandled
    exact ⟨hnone, hpeer, hquery, identify_eq_ok hwho, hbody, hrow⟩
  · rw [serve_admitted hpeer, serve_admitted hpeer, authenticate_congr (hother.trans hquery.symm) hheader.symm (hheader ▸ hwho)]
    refine ⟨?_, rfl⟩
    simp [authenticate, hquery, hwho]
  · have hpassed : authenticate endpoint.kind endpoint.accepts endpoint.limits peerUid (sent token request length) =
        route endpoint.kind who peerUid (sent token request length) := by
      unfold authenticate
      rw [if_neg (by simp [credentialInQuery_sent]), identify_sent hwho htoken]
      dsimp only
      rw [checkBody_sent hlength]
    rw [serve_admitted hpeer, hpassed]
    refine ⟨fun hshared => ?_, fun hmissing hkind => ?_⟩
    · rw [route_sent hshared]
      rfl
    · rw [hkind, route_sent_agent hmissing]
      rfl

/-- The endpoint of a server whose token store has come this far. -/
def endpointOf (env : TokenEnv) (run : TokenRun) (kind : Application.EndpointKind) (admitted : List ℕ) (limits : Limits) :
    Endpoint where
  kind := kind
  admitted := admitted
  accepts := Infrastructure.authenticate env run.store
  limits := limits

/-- **The pipeline guards the handlers.** On either endpoint, for every request and after every run of the token store: what
`Guarded` says; and a handler runs for an agent only if the token it presented is an active one of its label, and its
revocation has not succeeded. -/
theorem pipeline_guards (env : TokenEnv) (hjson : ReadsBack env.json) (run : TokenRun) (h : (tokenStore env).Reachable run)
    (kind : Application.EndpointKind) (admitted : List ℕ) (limits : Limits) :
    Guarded (endpointOf env run kind admitted limits) ∧
      ∀ peerUid request label token id refusals,
        serve (endpointOf env run kind admitted limits) peerUid request = (some (.handled ⟨.agent label, token⟩ id), refusals) →
          isShared id = true ∧ ∃ entry ∈ run.store.entries, token = some entry.record.id ∧ entry.record.label = label ∧
            entry.record.isActive = true ∧ entry.record.id ∉ run.revoked := by
  have hguarded := guarded (endpointOf env run kind admitted limits)
  refine ⟨hguarded, fun peerUid request label token id refusals hserve => ?_⟩
  obtain ⟨-, -, -, ⟨text, presented, -, -, hwho⟩, -, row, hrow⟩ := hguarded.handled _ _ _ _ _ hserve
  rcases hwho with ⟨-, -, hoperator⟩ | ⟨hkind, label', tokenId, haccepts, hagent⟩
  · cases hoperator
  · obtain ⟨hlabel, rfl⟩ := Authenticated.mk.inj hagent
    obtain rfl := Principal.agent.inj hlabel
    obtain ⟨entry, hentry, hactive, -, hsame, hid⟩ := authenticate_eq_agent haccepts
    refine ⟨?_, entry, hentry, by rw [hid], hsame, hactive, fun hrevoked => ?_⟩
    · have haudience : row.audience = .both := hrow.served.resolve_left (by rw [hkind]; simp)
      unfold isShared
      rw [List.any_eq_true]
      refine ⟨row, List.mem_filter.mpr ⟨hrow.mem, by simp [haudience]⟩, ?_⟩
      simp [hrow.meant]
    · exact (tokenStore_keeps hjson h).refused _ hrevoked presented label (hid ▸ haccepts)

/-- After the kitchen's only token was revoked. -/
theorem pipeline_guards_afterFirstRun : afterFirstRun.revoked = [kitchenId] ∧
    Guarded (endpointOf smallEnv afterFirstRun .agent [501] {}) :=
  ⟨by decide +kernel, (pipeline_guards smallEnv blanksDropped_readsBack afterFirstRun
    (Library.Machine.reachable_of_exec firstStart firstRun ⟨noFile, by simp [Disk.Valid, noFile], rfl⟩ (Option.some_get _).symm)
    .agent [501] {}).1⟩

end DenonAvr.Server.Pipeline
