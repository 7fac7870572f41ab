import DenonAvr.Application.Audit
import DenonAvr.Library.Json

/-!
# A line of the audit log

A record and its sequence number as one JSON object, and what is read back of a line. A record is read back as it was
written, with its texts cut to their limits (`decodeLine_encode`); a line that was cut short is not read
(`decodeLine_cut`).
-/

namespace DenonAvr.Infrastructure

open Domain Application Library
open Library.Json (get ofFields orNull hexChar)

/-! ### Names -/

def maxReasonText : ℕ := 512
def maxStatusText : ℕ := 64

def coreFieldName : CoreField → String
  | .systemPower => "system_power"
  | .mainZonePower => "main_zone_power"
  | .zone2Power => "zone2_power"
  | .source => "source"
  | .volume => "volume"
  | .mute => "mute"
  | .soundMode => "sound_mode"

def parseCoreField (name : String) : Option CoreField := CoreField.all.find? fun field => coreFieldName field = name

/-- `DispatchCertainty::as_str`. -/
def dispatchName : DispatchCertainty → String
  | .notDispatched => "not_dispatched"
  | .possiblyDispatched => "possibly_dispatched"
  | .completeWrite => "complete_write"
  | .unknown => "unknown"

def parseDispatch : String → Option DispatchCertainty
  | "not_dispatched" => some .notDispatched
  | "possibly_dispatched" => some .possiblyDispatched
  | "complete_write" => some .completeWrite
  | "unknown" => some .unknown
  | _ => none

def decisionName : AuditDecision → String
  | .allow => "allow"
  | .requireApproval => "require_approval"
  | .deny => "deny"

def parseDecision : String → Option AuditDecision
  | "allow" => some .allow
  | "require_approval" => some .requireApproval
  | "deny" => some .deny
  | _ => none

def endpointName : EndpointKind → String
  | .operator => "operator"
  | .agent => "agent"

def parseEndpoint (name : String) : Option EndpointKind :=
  [.operator, .agent].find? fun kind => endpointName kind = name

def refusalName : RefusalReason → String
  | .peerNotAdmitted => "peer_not_admitted"
  | .noCredential => "no_credential"
  | .unknownCredential => "unknown_credential"
  | .operatorTokenOnAgentEndpoint => "operator_token_on_agent_endpoint"
  | .agentTokenOnOperatorEndpoint => "agent_token_on_operator_endpoint"
  | .resourceNotServed => "resource_not_served"

def allRefusals : List RefusalReason :=
  [.peerNotAdmitted, .noCredential, .unknownCredential, .operatorTokenOnAgentEndpoint, .agentTokenOnOperatorEndpoint,
    .resourceNotServed]

def parseRefusal (name : String) : Option RefusalReason := allRefusals.find? fun reason => refusalName reason = name

@[simp] theorem parseCoreField_coreFieldName (field : CoreField) : parseCoreField (coreFieldName field) = some field := by
  cases field <;> decide

@[simp] theorem parseDispatch_dispatchName (dispatch : DispatchCertainty) :
    parseDispatch (dispatchName dispatch) = some dispatch := by
  cases dispatch <;> rfl

@[simp] theorem parseDecision_decisionName (decision : AuditDecision) :
    parseDecision (decisionName decision) = some decision := by
  cases decision <;> rfl

@[simp] theorem parseEndpoint_endpointName (kind : EndpointKind) : parseEndpoint (endpointName kind) = some kind := by
  cases kind <;> decide

@[simp] theorem parseRefusal_refusalName (reason : RefusalReason) : parseRefusal (refusalName reason) = some reason := by
  cases reason <;> decide

/-! ### Digests -/

def digestText (digest : PolicyDigest) : String :=
  String.ofList (digest.val.flatMap fun byte => [hexChar (byte.toNat / 16), hexChar (byte.toNat % 16)])

def hexDigit (digit : Char) : Option ℕ :=
  if '0' ≤ digit ∧ digit ≤ '9' then some (digit.toNat - 48)
  else if 'a' ≤ digit ∧ digit ≤ 'f' then some (digit.toNat - 97 + 10)
  else none

def hexBytes : List Char → Option (List UInt8)
  | [] => some []
  | [_] => none
  | high :: low :: rest => do
    let high ← hexDigit high
    let low ← hexDigit low
    let bytes ← hexBytes rest
    return UInt8.ofNat (high * 16 + low) :: bytes

/-- `PolicyDigest::from_hex`. -/
def digestOfText (text : String) : Option PolicyDigest :=
  (hexBytes text.toList).bind fun bytes => if h : bytes.length = 32 then some ⟨bytes, h⟩ else none

theorem hexDigit_hexChar {d : ℕ} (h : d < 16) : hexDigit (hexChar d) = some d := by
  have hall : ∀ d < 16, hexDigit (hexChar d) = some d := by decide
  exact hall d h

theorem hexBytes_digits (bytes : List UInt8) :
    hexBytes (bytes.flatMap fun byte => [hexChar (byte.toNat / 16), hexChar (byte.toNat % 16)]) = some bytes := by
  induction bytes with
  | nil => rfl
  | cons byte bytes ih =>
    have hlt : byte.toNat < 256 := byte.toNat_lt
    have hbyte : UInt8.ofNat (byte.toNat / 16 * 16 + byte.toNat % 16) = byte := by
      rw [Nat.div_add_mod', UInt8.ofNat_toNat]
    rw [List.flatMap_cons]
    show hexBytes (hexChar (byte.toNat / 16) :: hexChar (byte.toNat % 16) ::
      bytes.flatMap fun byte => [hexChar (byte.toNat / 16), hexChar (byte.toNat % 16)]) = _
    rw [hexBytes, hexDigit_hexChar (by omega), hexDigit_hexChar (by omega), ih]
    show some (UInt8.ofNat (byte.toNat / 16 * 16 + byte.toNat % 16) :: bytes) = _
    rw [hbyte]

@[simp] theorem digestOfText_digestText (digest : PolicyDigest) : digestOfText (digestText digest) = some digest := by
  unfold digestOfText digestText
  rw [String.toList_ofList, hexBytes_digits, Option.bind_some, dif_pos digest.property]

/-! ### Encoding -/

def texts (items : List String) (max : ℕ) : Json := .array (items.map fun item => .string (bounded item max))

def fieldNames (fields : List CoreField) : Json := .array (fields.map fun field => .string (coreFieldName field))

def encodePrincipal : Option Principal → Json
  | some .operator => .string "operator"
  | some (.agent label) => .object (ofFields [("agent", .string label.value)])
  | none => .null

def eventFields : AuditEvent → List (String × Json)
  | .decided intent decision reasons rules baseline policy =>
    [("kind", .string "decided"),
      ("intent", .string (bounded intent maxIntentText)),
      ("decision", .string (decisionName decision)),
      ("reasons", texts reasons maxReasonText),
      ("rules", texts rules maxIntentText),
      ("baseline", fieldNames baseline),
      ("policy", orNull (fun digest => .string (digestText digest)) policy)]
  | .dispatching intent before target preconditionFields =>
    [("kind", .string "dispatching"),
      ("intent", .string (bounded intent maxIntentText)),
      ("before", orNull .number before),
      ("target", orNull .number target),
      ("precondition_fields", fieldNames preconditionFields)]
  | .finished status dispatch confirmed reason =>
    [("kind", .string "finished"),
      ("status", .string (bounded status maxStatusText)),
      ("dispatch", .string (dispatchName dispatch)),
      ("confirmed", .bool confirmed),
      ("reason", orNull (fun reason => .string (bounded reason maxReasonText)) reason)]
  | .policyLoaded digest => [("kind", .string "policy_loaded"), ("digest", .string (digestText digest))]
  | .policyLoadFailed error =>
    [("kind", .string "policy_load_failed"), ("error", .string (bounded error maxReasonText))]
  | .accessRefused endpoint reason peerUid resource suppressed =>
    [("kind", .string "access_refused"),
      ("endpoint", .string (endpointName endpoint)),
      ("reason", .string (refusalName reason)),
      ("peer_uid", orNull (fun uid : ℕ => .number uid) peerUid),
      ("resource", orNull (fun route => .string (bounded route maxIntentText)) resource),
      ("suppressed", .number suppressed)]
  | .tokenIssued id label =>
    [("kind", .string "token_issued"), ("id", .string id.value), ("label", .string label.value)]
  | .tokenRevoked id label =>
    [("kind", .string "token_revoked"), ("id", .string id.value), ("label", .string label.value)]

def recordFields (seq : ℕ) (record : AuditRecord) : List (String × Json) :=
  [("seq", .number seq),
    ("schema", .number record.schema),
    ("run", .number record.run),
    ("at", .number record.time),
    ("operation", orNull (fun id : ℕ => .number id) record.operation),
    ("principal", encodePrincipal record.principal),
    ("receiver", orNull (fun receiver => .string receiver.value) record.receiver),
    ("event", .object (ofFields (eventFields record.event)))]

def encode (json : JsonText) (seq : ℕ) (record : AuditRecord) : List Char :=
  json.write (.object (ofFields (recordFields seq record)))

/-- The map of a line of the log. Its numbers are of 64 bits in the source, and unbounded here. -/
def IsRecord (fields : List (String × Json)) : Prop := ∃ seq record, fields = ofFields (recordFields seq record)

/-! ### Decoding -/

/-- What `read` makes of a value that may be `null`. -/
def unlessNull {α : Type*} (read : Json → Option α) : Json → Option (Option α)
  | .null => some none
  | value => (read value).map some

def agentLabel (value : String) : Option AgentLabel :=
  if h : validateText value maxLabelLen = true then some ⟨value, h⟩ else none

def tokenId (value : String) : Option TokenId :=
  if h : tokenIdIsWellFormed value = true then some ⟨value, h⟩ else none

/-- `ReceiverId::new`, or `ReceiverId::ad_hoc` for the id of a receiver chosen by address. -/
def parseReceiver (text : String) : Option ReceiverId :=
  if h : ReceiverId.isWellFormed text = true then some ⟨text, h⟩ else none

/-- `u32::try_from`. -/
def asU32 (value : Json) : Option ℕ := value.asNat.filter fun n => decide (n < 2 ^ 32)

/-- `i16::try_from`. -/
def asI16 (value : Json) : Option ℤ := value.asInt.filter fun n => decide (-2 ^ 15 ≤ n ∧ n < 2 ^ 15)

def strings (value : Json) : Option (List String) := value.asArray.bind fun items => items.mapM Json.asStr

/-- A name this code does not know is dropped. -/
def fields (value : Json) : Option (List CoreField) := (strings value).map fun names => names.filterMap parseCoreField

def decodePrincipal : Json → Option (Option Principal)
  | .null => some none
  | .string name => if name = "operator" then some (some .operator) else none
  | .object agent => do
    let label ← agentLabel (← (← get agent "agent").asStr)
    return some (.agent label)
  | _ => none

def decodeEvent (event : List (String × Json)) : Option AuditEvent := do
  match ← (← get event "kind").asStr with
  | "decided" =>
    let intent ← (← get event "intent").asStr
    let decision ← parseDecision (← (← get event "decision").asStr)
    let reasons ← strings (← get event "reasons")
    let rules ← strings (← get event "rules")
    let baseline ← fields (← get event "baseline")
    let policy ← unlessNull (fun value => value.asStr.bind digestOfText) (← get event "policy")
    return .decided intent decision reasons rules baseline policy
  | "dispatching" =>
    let intent ← (← get event "intent").asStr
    let before ← unlessNull asI16 (← get event "before")
    let target ← unlessNull asI16 (← get event "target")
    let preconditionFields ← fields (← get event "precondition_fields")
    return .dispatching intent before target preconditionFields
  | "finished" =>
    let status ← (← get event "status").asStr
    let dispatch ← parseDispatch (← (← get event "dispatch").asStr)
    let confirmed ← (← get event "confirmed").asBool
    let reason ← unlessNull Json.asStr (← get event "reason")
    return .finished status dispatch confirmed reason
  | "policy_loaded" =>
    let digest ← digestOfText (← (← get event "digest").asStr)
    return .policyLoaded digest
  | "policy_load_failed" =>
    let error ← (← get event "error").asStr
    return .policyLoadFailed error
  | "access_refused" =>
    let endpoint ← parseEndpoint (← (← get event "endpoint").asStr)
    let reason ← parseRefusal (← (← get event "reason").asStr)
    let peerUid ← unlessNull asU32 (← get event "peer_uid")
    let resource ← unlessNull Json.asStr (← get event "resource")
    let suppressed ← asU32 (← get event "suppressed")
    return .accessRefused endpoint reason peerUid resource suppressed
  | "token_issued" =>
    let id ← tokenId (← (← get event "id").asStr)
    let label ← agentLabel (← (← get event "label").asStr)
    return .tokenIssued id label
  | "token_revoked" =>
    let id ← tokenId (← (← get event "id").asStr)
    let label ← agentLabel (← (← get event "label").asStr)
    return .tokenRevoked id label
  | _ => none

def decodeRecord (object : List (String × Json)) : Option AuditRecord := do
  let schema ← asU32 (← get object "schema")
  if schema ≠ auditSchema then none
  else
    let operation ← unlessNull Json.asNat (← get object "operation")
    let principal ← decodePrincipal (← get object "principal")
    let receiver ← unlessNull (fun value => value.asStr.bind parseReceiver) (← get object "receiver")
    let run ← (← get object "run").asNat
    let time ← (← get object "at").asNat
    let event ← decodeEvent (← (← get object "event").asObject)
    return { schema, run, time, operation, principal, receiver, event }

/-- A line that parsed. -/
structure Decoded where
  seq : ℕ
  /-- The record, when this code can use it. -/
  record : Option AuditRecord
deriving DecidableEq

def decodeLine (json : JsonText) (line : List Char) : Option Decoded :=
  match json.read line with
  | some (.object object) => do
    let seq ← (← get object "seq").asNat
    return { seq, record := decodeRecord object }
  | _ => none

/-! ### What is read back -/

def boundedEvent : AuditEvent → AuditEvent
  | .decided intent decision reasons rules baseline policy =>
    .decided (bounded intent maxIntentText) decision (reasons.map (bounded · maxReasonText))
      (rules.map (bounded · maxIntentText)) baseline policy
  | .dispatching intent before target preconditionFields =>
    .dispatching (bounded intent maxIntentText) before target preconditionFields
  | .finished status dispatch confirmed reason =>
    .finished (bounded status maxStatusText) dispatch confirmed (reason.map (bounded · maxReasonText))
  | .policyLoadFailed error => .policyLoadFailed (bounded error maxReasonText)
  | .accessRefused endpoint reason peerUid resource suppressed =>
    .accessRefused endpoint reason peerUid (resource.map (bounded · maxIntentText)) suppressed
  | event => event

/-- The record with its texts cut to their limits. -/
def boundedRecord (record : AuditRecord) : AuditRecord := { record with event := boundedEvent record.event }

/-- The numbers are of the types that the source gives them. -/
def eventFits : AuditEvent → Bool
  | .dispatching _ before target _ =>
    before.all (fun n => decide (-2 ^ 15 ≤ n ∧ n < 2 ^ 15)) && target.all fun n => decide (-2 ^ 15 ≤ n ∧ n < 2 ^ 15)
  | .accessRefused _ _ peerUid _ suppressed =>
    peerUid.all (fun n => decide (n < 2 ^ 32)) && decide (suppressed < 2 ^ 32)
  | _ => true

/-- A record as the service makes it: of the layout this code writes. -/
def recordFits (record : AuditRecord) : Bool := record.schema == auditSchema && eventFits record.event

section Values
variable {α β : Type*}

theorem unlessNull_orNull (read : Json → Option β) (write : α → Json) (f : α → β) (value : Option α)
    (hnull : ∀ a, write a ≠ .null) (hread : ∀ a ∈ value, read (write a) = some (f a)) :
    unlessNull read (orNull write value) = some (value.map f) := by
  cases value with
  | none => rfl
  | some a =>
    have hvalue : unlessNull read (write a) = (read (write a)).map some := by
      cases h : write a with
      | null => exact absurd h (hnull a)
      | _ => rfl
    show unlessNull read (write a) = _
    rw [hvalue, hread a rfl, Option.map_some, Option.map_some]

theorem strings_array (items : List String) : strings (.array (items.map .string)) = some items := by
  unfold strings
  rw [Json.asArray_array, Option.bind_some]
  induction items with
  | nil => rfl
  | cons item items ih => simp [ih]

theorem strings_texts (items : List String) (max : ℕ) : strings (texts items max) = some (items.map (bounded · max)) := by
  have h := strings_array (items.map (bounded · max))
  rwa [List.map_map] at h

theorem fields_fieldNames (names : List CoreField) : fields (fieldNames names) = some names := by
  have h := strings_array (names.map coreFieldName)
  rw [List.map_map] at h
  unfold fields fieldNames
  rw [show (fun field => Json.string (coreFieldName field)) = Json.string ∘ coreFieldName from rfl, h, Option.map_some,
    List.filterMap_map]
  congr 1
  exact (List.filterMap_congr fun field _ => parseCoreField_coreFieldName field).trans List.filterMap_some

theorem asU32_number {n : ℕ} (h : n < 2 ^ 32) : asU32 (.number n) = some n := by
  unfold asU32
  rw [Json.asNat_number, Option.filter_some, if_pos (decide_eq_true h)]

theorem asI16_number {n : ℤ} (h : -2 ^ 15 ≤ n ∧ n < 2 ^ 15) : asI16 (.number n) = some n := by
  unfold asI16
  rw [Json.asInt_number, Option.filter_some, if_pos (decide_eq_true h)]

@[simp] theorem agentLabel_value (label : AgentLabel) : agentLabel label.value = some label := dif_pos label.valid

@[simp] theorem tokenId_value (id : TokenId) : tokenId id.value = some id := dif_pos id.valid

@[simp] theorem parseReceiver_value (receiver : ReceiverId) : parseReceiver receiver.value = some receiver :=
  dif_pos receiver.valid

theorem eventFields_nodup (event : AuditEvent) : ((eventFields event).map Prod.fst).Nodup := by
  cases event <;> simp [eventFields]

theorem recordFields_nodup (seq : ℕ) (record : AuditRecord) : ((recordFields seq record).map Prod.fst).Nodup := by
  simp [recordFields]

theorem get_event (event : AuditEvent) (key : String) :
    get (ofFields (eventFields event)) key = (eventFields event).lookup key :=
  Json.get_ofFields (eventFields_nodup event) key

theorem get_record (seq : ℕ) (record : AuditRecord) (key : String) :
    get (ofFields (recordFields seq record)) key = (recordFields seq record).lookup key :=
  Json.get_ofFields (recordFields_nodup seq record) key

end Values

theorem decodeEvent_eventFields {event : AuditEvent} (h : eventFits event = true) :
    decodeEvent (ofFields (eventFields event)) = some (boundedEvent event) := by
  unfold decodeEvent
  simp only [get_event]
  cases event with
  | decided intent decision reasons rules baseline policy =>
    have hpolicy := unlessNull_orNull (fun value => value.asStr.bind digestOfText)
      (fun digest => .string (digestText digest)) id policy (by simp) (by simp)
    simp [eventFields, List.lookup_cons, strings_texts, fields_fieldNames, hpolicy, boundedEvent]
  | dispatching intent before target preconditionFields =>
    obtain ⟨hbefore, htarget⟩ := Bool.and_eq_true_iff.mp h
    have hlevel : ∀ level : Option ℤ, level.all (fun n => decide (-2 ^ 15 ≤ n ∧ n < 2 ^ 15)) = true →
        unlessNull asI16 (orNull .number level) = some level := by
      intro level hall
      have hread := unlessNull_orNull asI16 .number id level (by simp)
        fun n hn => asI16_number (of_decide_eq_true ((Option.all_eq_true _ _).mp hall n hn))
      rwa [Option.map_id, id_eq] at hread
    simp [eventFields, List.lookup_cons, hlevel before hbefore, hlevel target htarget, fields_fieldNames, boundedEvent]
  | finished status dispatch confirmed reason =>
    have hreason := unlessNull_orNull Json.asStr (fun reason => .string (bounded reason maxReasonText))
      (bounded · maxReasonText) reason (by simp) (by simp)
    simp [eventFields, List.lookup_cons, hreason, boundedEvent]
  | policyLoaded digest => simp [eventFields, List.lookup_cons, boundedEvent]
  | policyLoadFailed error => simp [eventFields, List.lookup_cons, boundedEvent]
  | accessRefused endpoint reason peerUid resource suppressed =>
    obtain ⟨huid, hsuppressed⟩ := Bool.and_eq_true_iff.mp h
    have hpeer := unlessNull_orNull asU32 (fun uid : ℕ => .number uid) id peerUid (by simp) fun n hn => asU32_number (of_decide_eq_true ((Option.all_eq_true _ _).mp huid n hn))
    have hroute := unlessNull_orNull Json.asStr (fun route => .string (bounded route maxIntentText))
      (bounded · maxIntentText) resource (by simp) (by simp)
    simp [eventFields, List.lookup_cons, hpeer, hroute, asU32_number (of_decide_eq_true hsuppressed), boundedEvent]
  | tokenIssued id label => simp [eventFields, List.lookup_cons, boundedEvent]
  | tokenRevoked id label => simp [eventFields, List.lookup_cons, boundedEvent]

theorem decodePrincipal_encodePrincipal (principal : Option Principal) :
    decodePrincipal (encodePrincipal principal) = some principal := by
  rcases principal with _ | _ | label
  · rfl
  · simp [encodePrincipal, decodePrincipal]
  · have hlabel : get (ofFields [("agent", Json.string label.value)]) "agent" = some (.string label.value) :=
      Json.get_ofFields (by simp) "agent"
    simp [encodePrincipal, decodePrincipal, hlabel]

theorem decodeRecord_recordFields {seq : ℕ} {record : AuditRecord} (h : recordFits record = true) :
    decodeRecord (ofFields (recordFields seq record)) = some (boundedRecord record) := by
  obtain ⟨hschema, hevent⟩ := Bool.and_eq_true_iff.mp h
  have hversion : record.schema = auditSchema := by simpa using hschema
  have hsmall : asU32 (.number auditSchema) = some auditSchema := asU32_number (by decide)
  have hoperation := unlessNull_orNull Json.asNat (fun id : ℕ => .number id) id record.operation (by simp) (by simp)
  have hreceiver := unlessNull_orNull (fun value => value.asStr.bind parseReceiver) (fun receiver => .string receiver.value)
    id record.receiver (by simp) (by simp)
  unfold decodeRecord
  simp only [get_record]
  simp [recordFields, List.lookup_cons, hsmall, hversion, hoperation, hreceiver, decodePrincipal_encodePrincipal,
    decodeEvent_eventFields hevent, boundedRecord]

/-! ### Lines -/

section Lines
variable {json : JsonText} {seq : ℕ} {record : AuditRecord}

theorem isRecord_recordFields (seq : ℕ) (record : AuditRecord) : IsRecord (ofFields (recordFields seq record)) :=
  ⟨seq, record, rfl⟩

/-- **A record is read back as it was written**, with its number. -/
theorem decodeLine_encode (hjson : json.Lawful IsRecord) (h : recordFits record = true) :
    decodeLine json (encode json seq record) = some ⟨seq, some (boundedRecord record)⟩ := by
  unfold decodeLine encode
  rw [hjson.read_write _ (isRecord_recordFields seq record)]
  have hseq : get (ofFields (recordFields seq record)) "seq" = some (.number seq) := by
    rw [get_record]
    rfl
  simp [hseq, decodeRecord_recordFields h]

/-- **A line that was cut short is not read.** -/
theorem decodeLine_cut (hjson : json.Lawful IsRecord) {text : List Char} (hcut : text <+: encode json seq record)
    (hne : text ≠ encode json seq record) : decodeLine json text = none := by
  unfold decodeLine
  rw [hjson.read_cut _ text (isRecord_recordFields seq record) hcut hne]

theorem newline_encode (hjson : json.Lawful IsRecord) : '\n' ∉ encode json seq record :=
  hjson.newline _ (isRecord_recordFields seq record)

/-- A line starts and ends with something that is not blank. -/
theorem encode_shape (hjson : json.Lawful IsRecord) (seq : ℕ) (record : AuditRecord) :
    ∃ body, encode json seq record = '{' :: body ++ ['}'] :=
  hjson.write_object _ (isRecord_recordFields seq record)

/-- A line that ends otherwise than an object does is not read. -/
theorem decodeLine_concat (hjson : json.Lawful IsRecord) (text : List Char) {c : Char} (hclose : c ≠ '}')
    (hblank : isJsonBlank c = false) : decodeLine json (text ++ [c]) = none := by
  unfold decodeLine
  split
  · rename_i object hread
    obtain ⟨body, blanks, htext, hblanks⟩ := hjson.read_object _ _ hread
    rcases List.eq_nil_or_concat' blanks with rfl | ⟨front, last, rfl⟩
    · have hlast := (List.append_inj' htext rfl).2
      exact absurd (List.singleton_inj.mp hlast) hclose
    · have hsame : text ++ [c] = (body ++ '}' :: front) ++ [last] := by
        rw [htext]
        simp
      have hlast := (List.append_inj' hsame rfl).2
      rw [List.singleton_inj.mp hlast, hblanks last (by simp)] at hblank
      cases hblank
  · rfl

end Lines

end DenonAvr.Infrastructure
