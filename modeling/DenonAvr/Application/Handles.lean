import DenonAvr.Application.Connections
import DenonAvr.Application.Events
import DenonAvr.Application.Gate
import DenonAvr.Infrastructure.ConfigYaml

/-!
# The handles of callers

The control-service port as a handle serves it: reads of receivers, operations and their events, and dry runs, with what
each caller is told. A call that awaits something is a `Call`, and between two of its steps the service's tasks and other
calls may run; the service itself takes the steps of `gate`. What the repository, the connector and a session answer is
given to the step that asks them.

`handles` is every interleaving. Which changes of operations are published before which is left open.
-/

namespace DenonAvr.Application

open Domain Library Policy Session Infrastructure Connections

/-! ### What a caller may see -/

inductive Model
  | avrX3800h
  | unknown
deriving DecidableEq

/-- `Model::from_reported`. -/
def Model.fromReported (value : String) : Model :=
  let normalized := (value.toList.map Char.toUpper).filter fun c => c ≠ ' ' && c ≠ '-'
  if "AVRX3800H".toList <:+: normalized ∨ "AVCX3800H".toList <:+: normalized then .avrX3800h else .unknown

def x3800hSurroundModes : List String :=
  ["DIRECT", "PURE DIRECT", "STEREO", "MULTI CH IN", "DOLBY SURROUND", "MCH STEREO", "MONO MOVIE", "ROCK ARENA",
    "JAZZ CLUB", "MATRIX", "VIDEO GAME", "DTS NEURAL:X", "DTS VIRTUAL:X", "AURO-3D", "VIRTUAL", "AUTO"]

/-- What an agent may learn about a receiver's abilities. -/
structure ReceiverCapabilities where
  writable : Bool
  zone2Power : Bool
  sourceCatalogRead : Bool
  inputs : List String
  surroundModes : List String
deriving DecidableEq

/-- `ModelCapabilities::for_model`. -/
def ReceiverCapabilities.forModel (model : Model) : ReceiverCapabilities :=
  let writable : Bool := model = .avrX3800h
  { writable, zone2Power := writable, sourceCatalogRead := writable
    inputs := if writable then x3800hInputs else []
    surroundModes := if writable then x3800hSurroundModes else [] }

/-- A saved receiver as an agent sees it. -/
structure ReceiverSummary where
  id : ReceiverId
  model : Option String
  capabilities : ReceiverCapabilities
  connection : ConnectionStatus
deriving DecidableEq

def summaries (configuration : ConfiguredReceivers) (connection : ReceiverId → ConnectionStatus) : List ReceiverSummary :=
  configuration.receivers.filterMap fun (name, identity) =>
    (ReceiverId.new name).toOption.map fun id =>
      { id, model := identity.model, connection := connection id
        capabilities := .forModel (.fromReported (identity.model.getD "")) }

inductive PolicyHealth
  | notConfigured | active | unavailable
deriving DecidableEq

inductive AuditHealth
  | notConfigured | ok | failing
deriving DecidableEq

inductive ApprovalHealth
  | unavailable
deriving DecidableEq

structure ServiceHealth where
  policy : PolicyHealth
  audit : AuditHealth
  ledgerReady : Bool
  approval : ApprovalHealth
deriving DecidableEq

def Service.health (s : Service) : ServiceHealth :=
  { policy := if s.policy.isOk then .active else .unavailable
    audit := if s.auditOk then .ok else .failing
    ledgerReady := s.books.ready
    approval := .unavailable }

/-- The digest of the policy in force, when there is one. -/
def Service.digest (s : Service) : Option PolicyDigest := s.policy.toOption.map ActivePolicy.digest

/-- What the policy would decide for a request. -/
inductive DryRunDecision
  | allow
  | requireApproval (reasons rules : List String)
  | deny (reasons rules : List String)
  /-- A real request would be refused. -/
  | unavailable (reason : String)
deriving DecidableEq

structure DryRun where
  decision : DryRunDecision
  policy : Option PolicyDigest
deriving DecidableEq

/-- Rule ids are the Operator's to see. -/
def DryRunDecision.of (decision : Decision) (showRules : Bool) : DryRunDecision :=
  let reasons := decision.reasons.map Reason.text
  let rules := if showRules then decision.rules else []
  match decision.effect with
  | .allow => .allow
  | .requireApproval => .requireApproval reasons rules
  | .deny => .deny reasons rules

/-- What a call returns when it succeeds; a session's observation of the receiver's sources is a `Catalog`. -/
inductive Answer (Catalog : Type)
  | receivers (summaries : List ReceiverSummary)
  | state (latest : ReceiverState)
  | sourceCatalog (observation : Catalog)
  | health (health : ServiceHealth)
  | operation (snapshot : OperationSnapshot)
  | operationEvents
  /-- `EventStream::next`; `none` when the stream ended. -/
  | event (event : Option (Given OperationSnapshot))
  | dryRun (dryRun : DryRun)

abbrev Reply (Catalog : Type) := Except ControlError (Answer Catalog)

/-! ### Errors -/

/-- Receivers chosen only by address are for the Operator. -/
def visibleReceiver (caller : Principal) (receiver : ReceiverId) : Except ControlError Unit :=
  if receiver.isAdHoc ∧ caller ≠ .operator then .error (.notFound "receiver") else .ok ()

def incompleteText : String := "the receiver could not complete the request"

/-- An error as the caller may see it. -/
def sanitized (caller : Principal) (error : ControlError) : ControlError :=
  if caller = .operator then error
  else
    match error with
    | .unavailable message =>
      if message = Operations.shutDownText then error else .unavailable receiverUnreachable
    | .receiver error => .receiver { error with message := incompleteText }
    | error => error

/-- What `identity` finds: whether the Operator chose the address, and what the repository loads. -/
structure Found where
  registered : Bool
  loaded : Except OperationError ConfiguredReceivers

def Found.identity (found : Found) (receiver : ReceiverId) : Except ControlError Unit :=
  if receiver.isAdHoc then if found.registered then .ok () else .error (.notFound "receiver")
  else
    match found.loaded with
    | .ok configuration =>
      if configuration.isConfigured receiver.value then .ok () else .error (.notFound "receiver")
    | .error error => .error (.receiver error)

/-- How `lease` ends. -/
inductive Leased (α : Type)
  | closed
  /-- The receiver is not saved, or not any more. -/
  | unknown
  /-- The repository could not be read. -/
  | unread (error : OperationError)
  /-- The session did not open, or did not synchronize. -/
  | unconnected (error : OperationError)
  | held (session : α)

def Leased.result {α : Type} : Leased α → Except ControlError α
  | closed => .error (.unavailable Operations.shutDownText)
  | unknown => .error (.notFound "receiver")
  | unread error => .error (.receiver error)
  | unconnected error => .error (.unavailable error.text)
  | held session => .ok session

/-! ### Reads -/

section Reads
variable {Catalog : Type}

def receiversReply (caller : Principal) (loaded : Except OperationError ConfiguredReceivers)
    (connection : ReceiverId → ConnectionStatus) : Reply Catalog :=
  match loaded with
  | .ok configuration => .ok (.receivers (summaries configuration connection))
  | .error error => .error (sanitized caller (.receiver error))

/-- `ReceiverReads::state`; the lease is of a session with a latest state. -/
def stateReply (caller : Principal) (receiver : ReceiverId) (leased : Leased ReceiverState) :
    Except ControlError (Answer Catalog) := do
  visibleReceiver caller receiver
  let latest ← leased.result.mapError (sanitized caller)
  return .state latest

/-- `StateSubscription::changed`; without a next state the session has closed. -/
def changedReply (next : Option ReceiverState) : Reply Catalog :=
  match next with
  | some state => .ok (.state state)
  | none => .error (.receiver ⟨.stopped, "receiver state subscription", "session closed"⟩)

def sourceCatalogReply (caller : Principal) (receiver : ReceiverId) (leased : Leased (Except OperationError Catalog)) :
    Except ControlError (Answer Catalog) := do
  visibleReceiver caller receiver
  let read ← leased.result.mapError (sanitized caller)
  let observation ← read.mapError fun error => sanitized caller (.receiver error)
  return .sourceCatalog observation

/-- The checks before a submission and a dry run. -/
def findReceiver (caller : Principal) (receiver : ReceiverId) (found : Found) : Except ControlError Unit := do
  visibleReceiver caller receiver
  (found.identity receiver).mapError (sanitized caller)

end Reads

/-! ### Dry runs -/

/-- Where a dry run is. Each name is of what it does next. -/
inductive DryRunPc
  /-- `precheck`, in it `ensure_ledger`. -/
  | precheck
  | ledger
  | rebuilding
  | readingLog
  | leasing
  | deciding
  | evaluating (policy : ActivePolicy)
deriving DecidableEq

/-- What the step of a call may find outside the service. -/
structure CallWorld where
  now : WallTime
  /-- What `since` returns, if it returns in time and without an error. -/
  log : Option (List AuditRecord)
  leased : Leased Unit
  state : ReceiverState

def Service.dryRunUnavailable (s : Service) (reason : String) : DryRun := { decision := .unavailable reason, policy := s.digest }

/-- One step of `dry_run`: what the service does for it, and where it leads or how it ends. -/
def Service.dryRun (s : Service) (label : AgentLabel) (receiver : ReceiverId) (intent : ReceiverIntent) (pc : DryRunPc)
    (w : CallWorld) : Option (Option Action × (DryRunPc ⊕ Except ControlError DryRun)) :=
  match pc with
  | .precheck =>
    some (none, if s.policy.isOk then .inl .ledger else .inr (.ok (s.dryRunUnavailable policyUnavailable)))
  | .ledger => some (none, .inl (if s.books.ready then .leasing else .rebuilding))
  | .rebuilding =>
    if s.rebuilding.isSome then none
    else if s.books.ready then some (none, .inl .leasing)
    else some (some (.rebuildElsewhere w.now), .inl .readingLog)
  | .readingLog =>
    some (some (.readElsewhere w.log),
      if w.log.isSome then .inl .leasing else .inr (.ok (s.dryRunUnavailable ledgerUnavailable)))
  | .leasing =>
    some (none, match w.leased.result with
      | .ok () => .inl .deciding
      | .error error => .inr (.error error))
  | .deciding =>
    some (none, match s.policy with
      | .ok policy => .inl (.evaluating policy)
      | .error _ => .inr (.ok (s.dryRunUnavailable policyUnavailable)))
  | .evaluating policy =>
    let decision := s.books.evaluateIn w.now policy.config label.value receiver intent w.state
    some (none, .inr (.ok { decision := .of decision false, policy := some policy.digest }))

/-! ### Calls -/

/-- Where a call is that awaits something. -/
inductive CallPc
  /-- `operation`, for the operation to end or the time to pass. -/
  | waiting (id : OperationId)
  /-- `cancel`, of an operation that could be withdrawn when it was read. -/
  | withdrawing (id : OperationId)
  /-- The operation could not be withdrawn any more. -/
  | late (id : OperationId)
  | dryRun (label : AgentLabel) (receiver : ReceiverId) (intent : ReceiverIntent) (pc : DryRunPc)
  | returned
deriving DecidableEq

structure Call where
  caller : Principal
  pc : CallPc
deriving DecidableEq

/-- An `EventStream`, and how many of the events it has passed. -/
structure EventStream where
  viewer : Principal
  position : ℕ
deriving DecidableEq

/-- The service and the calls of its handles. -/
structure Handles (Catalog : Type) where
  service : Service := {}
  /-- The last that the watch channel of an operation was given. -/
  watched : OperationId → Option Entry := fun _ => none
  /-- Changes that are still to be published. -/
  pending : List Item := []
  /-- The channel of events is there. -/
  opened : Bool := true
  sent : List Item := []
  streams : List EventStream := []
  /-- The owners of the state subscriptions. -/
  subscriptions : List Principal := []
  calls : List Call := []
  /-- What each caller was told, in order. -/
  told : List (Principal × Reply Catalog) := []

inductive HandleAction (Catalog : Type)
  | receivers (caller : Principal) (loaded : Except OperationError ConfiguredReceivers)
      (connection : ReceiverId → ConnectionStatus)
  | state (caller : Principal) (receiver : ReceiverId) (leased : Leased ReceiverState)
  | changed (subscription : ℕ) (next : Option ReceiverState)
  | sourceCatalog (caller : Principal) (receiver : ReceiverId) (leased : Leased (Except OperationError Catalog))
  | health (caller : Principal)
  | submit (caller : Principal) (receiver : ReceiverId) (submission : OperationSubmission) (found : Found) (now : Instant)
  | operation (caller : Principal) (id : OperationId) (wait : Bool)
  | cancel (caller : Principal) (id : OperationId)
  | operationEvents (caller : Principal)
  | next (stream : ℕ)
  /-- So many events are gone before the stream reads them. -/
  | lag (stream count : ℕ)
  | dryRun (caller : Principal) (receiver : ReceiverId) (intent : ReceiverIntent) (found : Found) (now : Instant)
  /-- A method of `OperatorAdmin`. What it does for the Operator is the service's work. -/
  | administer (caller : Principal)
  /-- The next step of a call. -/
  | resume (call : ℕ) (w : CallWorld)
  | publish (publication : ℕ)
  /-- The end of `shutdown`. -/
  | take
  /-- A step of the service that is no call's. -/
  | work (action : Action)

/-- Not a part of a call of a handle. -/
def Action.isWork : Action → Bool
  | .submit .. | .cancel .. | .chargeDryRun .. => false
  | _ => true

/-- The operation that a step may change. -/
def Action.target (s : Service) : Action → Option OperationId
  | .submit .. => some (s.operations.nextId + 1)
  | .cancel _ id | .advance id _ | .panic id => some id
  | _ => none

/-- What is to be published of a step: every change of an operation changes its status. -/
def changedItem (before after : Operations) (id : OperationId) : Option Item :=
  (after.entryOf id).bind fun entry =>
    if before.statusOf id = some entry.snapshot.status then none else some (entry.owner, entry.snapshot)

namespace Handles

variable {Catalog : Type}

def tell (s : Handles Catalog) (caller : Principal) (reply : Reply Catalog) : Handles Catalog :=
  { s with told := s.told ++ [(caller, reply)] }

def await (s : Handles Catalog) (caller : Principal) (pc : CallPc) : Handles Catalog :=
  { s with calls := s.calls ++ [⟨caller, pc⟩] }

def openStream (s : Handles Catalog) (viewer : Principal) : Handles Catalog :=
  { s with streams := s.streams ++ [⟨viewer, s.sent.length⟩] }

/-- The service has made a step that may have changed the operation. -/
def follow (s : Handles Catalog) (service : Service) (target : Option OperationId) : Handles Catalog :=
  { s with
    service
    watched := fun id => service.operations.entryOf id <|> s.watched id
    pending := s.pending ++ (target.bind (changedItem s.service.operations service.operations)).toList }

/-- The service makes a step. -/
def serve (cfg : Settings) (s : Handles Catalog) (action : Action) : Option (Handles Catalog) :=
  (s.service.step cfg action).map fun service => s.follow service (action.target s.service)

/-- The next step of a call: what the service does for it, and where it leads or how it ends. -/
def resume (s : Handles Catalog) (call : Call) (w : CallWorld) : Option (Option Action × (CallPc ⊕ Reply Catalog)) :=
  match call.pc with
  | .waiting id => (s.watched id).map fun entry => (none, .inr (.ok (.operation entry.snapshot)))
  | .withdrawing id =>
    match s.service.operations.cancel call.caller id with
    | .ok (_, snapshot) => some (some (.cancel call.caller id), .inr (.ok (.operation snapshot)))
    | .error _ => some (none, .inl (.late id))
  | .late id =>
    some (none, .inr (match s.service.operations.watchOperation call.caller id with
      | .ok actual => .error (.tooLate actual)
      | .error error => .error error))
  | .dryRun label receiver intent pc =>
    (s.service.dryRun label receiver intent pc w).map fun (action, next) =>
      (action, next.map (CallPc.dryRun label receiver intent) fun result =>
        (result.mapError (sanitized call.caller)).map .dryRun)
  | .returned => none

def step (cfg : Settings) (s : Handles Catalog) : HandleAction Catalog → Option (Handles Catalog)
  | .receivers caller loaded connection => some (s.tell caller (receiversReply caller loaded connection))
  | .state caller receiver leased =>
    let reply := stateReply caller receiver leased
    let subscriptions := if reply.isOk then s.subscriptions ++ [caller] else s.subscriptions
    some ({ s with subscriptions }.tell caller reply)
  | .changed subscription next => s.subscriptions[subscription]?.map fun caller => s.tell caller (changedReply next)
  | .sourceCatalog caller receiver leased => some (s.tell caller (sourceCatalogReply caller receiver leased))
  | .health caller => some (s.tell caller (.ok (.health s.service.health)))
  | .submit caller receiver submission found now =>
    match findReceiver caller receiver found with
    | .error error => some (s.tell caller (.error error))
    | .ok () =>
      (s.serve cfg (.submit caller receiver submission now)).map fun s' =>
        s'.tell caller ((s.service.submit cfg caller receiver submission now).2.map .operation)
  | .operation caller id wait =>
    match s.service.operations.watchOperation caller id with
    | .error error => some (s.tell caller (.error error))
    | .ok current =>
      some (if wait && !current.status.isTerminal then s.await caller (.waiting id)
        else s.tell caller (.ok (.operation current)))
  | .cancel caller id =>
    match s.service.operations.watchOperation caller id with
    | .error error => some (s.tell caller (.error error))
    | .ok current =>
      some (if current.status.isCancellable then s.await caller (.withdrawing id)
        else s.tell caller (.error (.tooLate current)))
  | .operationEvents caller =>
    some (if s.opened then (s.openStream caller).tell caller (.ok .operationEvents)
      else s.tell caller (.error (.unavailable Operations.shutDownText)))
  | .next k =>
    s.streams[k]?.bind fun stream =>
      match s.sent[stream.position]? with
      | some item =>
        let s' := { s with streams := s.streams.set k { stream with position := stream.position + 1 } }
        some (if visible stream.viewer item then s'.tell stream.viewer (.ok (.event (some (.update item.2)))) else s')
      | none => if s.opened then none else some (s.tell stream.viewer (.ok (.event none)))
  | .lag k count =>
    s.streams[k]?.bind fun stream =>
      if 0 < count ∧ stream.position + count ≤ s.sent.length then
        some ({ s with streams := s.streams.set k { stream with position := stream.position + count } }.tell
          stream.viewer (.ok (.event (some .missed))))
      else none
  | .dryRun caller receiver intent found now =>
    match findReceiver caller receiver found with
    | .error error => some (s.tell caller (.error error))
    | .ok () =>
      match caller with
      -- The Operator skips policy, so there is nothing to evaluate.
      | .operator => some (s.tell caller (.ok (.dryRun { decision := .allow, policy := s.service.digest })))
      | .agent label =>
        (s.serve cfg (.chargeDryRun label now)).map fun s' =>
          match (chargeWrite cfg.limits s.service.writes label now).2 with
          | .ok () => s'.await caller (.dryRun label receiver intent .precheck)
          | .error error => s'.tell caller (.error error)
  | .administer caller => some (if caller = .operator then s else s.tell caller (.error .forbidden))
  | .resume k w =>
    s.calls[k]?.bind fun call =>
      (s.resume call w).bind fun (action, next) =>
        (action.elim (some s) (s.serve cfg)).map fun s' =>
          match next with
          | .inl pc => { s' with calls := s'.calls.set k { call with pc } }
          | .inr reply => { s' with calls := s'.calls.set k { call with pc := .returned } }.tell call.caller reply
  | .publish k =>
    s.pending[k]?.map fun item =>
      { s with pending := s.pending.eraseIdx k, sent := if s.opened then s.sent ++ [item] else s.sent }
  | .take => if s.service.operations.closed ∧ s.service.inFlight = 0 then some { s with opened := false } else none
  | .work action => if action.isWork then s.serve cfg action else none

end Handles

/-- Every run of a service and of its callers. -/
def handles (cfg : Settings) (Catalog : Type) : Machine (Handles Catalog) (HandleAction Catalog) where
  init s := s = {}
  step := Handles.step cfg

end DenonAvr.Application
