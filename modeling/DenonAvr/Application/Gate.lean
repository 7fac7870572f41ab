import DenonAvr.Application.Audit
import DenonAvr.Application.Books
import DenonAvr.Application.Caps
import DenonAvr.Session.Operate

/-!
# The gate

How the service carries an operation from its admission to its end. An agent's request meets the policy, the
ledger and the audit log before the receiver's session is called; the Operator's is recorded and counted, never
limited. Each operation has a task, which `Pc` says the place of, and `advance` is one step of it, up to the next
point at which another task may run or the answer of the log, the receiver or the clock is needed. `gate` is every
interleaving of the tasks with submissions, cancellations, reloads of the policy and the service's other work.

The trace is not part of the program: it keeps, in order, what the properties are about. So are the entries that
were dropped from the ledger for their age.
-/

namespace DenonAvr.Application

open Domain Library Policy Session

/-! ### Requests and what they are told -/

def policyUnavailable : String := "policy unavailable"
def ledgerUnavailable : String := "the budget history is not available"
def auditUnavailable : String := "audit log unavailable"
def noEpochText : String := "the receiver's state is not established"
def receiverUnreachable : String := "the receiver could not be reached"

/-- What an agent is told of a session's answer, in place of the session's own text. -/
def fixedReason : OperationOutcome → Option String
  | .rejectedBeforeDispatch _ cause _ => some (match cause with
    | .unsupportedIntent => "the receiver does not support this change"
    | .observationFailed => "the receiver's state could not be read"
    | .preconditionMismatch _ => "the receiver changed since the request was judged"
    | .commandRefused => "the receiver refused the command"
    | .sessionStopped => "the receiver connection closed")
  | .indeterminate _ _ _ => some "the outcome could not be established"
  | _ => none

/-- A policy that loaded, and when. -/
structure ActivePolicy where
  config : PolicyConfig
  digest : PolicyDigest
  loadedAt : WallTime
deriving DecidableEq

/-- A request that the policy allowed, with what it was judged on. -/
structure Grant where
  policy : ActivePolicy
  input : PolicyInput
  decision : Decision
  precondition : Precondition
  settlement : Settlement
deriving DecidableEq

/-- Where the task of an operation is. Each name is of what the task does next. -/
inductive Pc
  /-- `precheck`: whether there is a policy. -/
  | precheck
  /-- `ensure_ledger`: whether the ledger is ready. -/
  | ledger
  /-- Waiting to be the one that rebuilds it. -/
  | rebuilding
  | readingLog
  /-- Ending a request for which there is no policy or no ledger. -/
  | refusing (resolution : Resolution)
  | recordingRefused (resolution : Resolution)
  | leasing
  /-- `decide`: the policy in force. -/
  | deciding
  | judging (policy : ActivePolicy)
  | recordingRefusal (decision : Decision) (digest : PolicyDigest) (resolution : Resolution)
  /-- Allowed: from the next step on the request can be withdrawn. -/
  | allowing (grant : Grant)
  | recordingDecided (grant : Grant)
  | checking (grant : Grant)
  | recordingDispatching (grant : Grant)
  /-- Releasing the place of a request that ends in `decide`. -/
  | releasing (settlement : Settlement) (resolution : Resolution)
  /-- `begin_operator_write`. -/
  | reserving
  | notingDecided (state : ReceiverState) (settlement : Settlement)
  | notingDispatching (state : ReceiverState) (settlement : Settlement)
  | beginning (precondition : Option Precondition) (settlement : Settlement)
  /-- Releasing the place of a request that was withdrawn before its session was called. -/
  | withdrawing (settlement : Settlement)
  | calling (precondition : Option Precondition) (settlement : Settlement)
  | inSession (settlement : Settlement)
  | settling (settlement : Settlement) (resolution : Resolution) (shown : Option String)
  /-- `finish_agent`. -/
  | finishing (resolution : Resolution) (shown : Option String)
  | reviewing (resolution : Resolution)
  | recording (resolution : Resolution)
  /-- Ending an Operator's operation without a record of it. -/
  | closing (resolution : Resolution)
  | ended
deriving DecidableEq

/-- What an operation's task is given. -/
structure Job where
  owner : Principal
  receiver : ReceiverId
  intent : ReceiverIntent
deriving DecidableEq

structure Task extends Job where
  pc : Pc
deriving DecidableEq

/-! ### The service -/

inductive Event
  | loaded (policy : Except String ActivePolicy)
  /-- A task read the policy to decide by. -/
  | policyRead (id : OperationId) (policy : ActivePolicy)
  | judged (id : OperationId) (policy : ActivePolicy) (input : PolicyInput) (judged : Judged)
  /-- A record was to be appended, and whether the log said that it was. -/
  | appended (record : AuditRecord) (ok : Bool)
  /-- `begin_session` moved the operation into the session. -/
  | begun (id : OperationId)
  /-- The session's `operate` was called. -/
  | called (id : OperationId) (owner : Principal) (request : OperationRequest)
  | answered (id : OperationId) (outcome : OperationOutcome)
  /-- A cancellation won. -/
  | withdrawn (id : OperationId)
deriving DecidableEq

/-- The operation whose task made the event. -/
def Event.task? : Event → Option OperationId
  | policyRead id _ | judged id _ _ _ | begun id | called id _ _ | answered id _ => some id
  | appended record _ => record.operation
  | loaded _ | withdrawn _ => none

structure Settings where
  /-- When this service started: the run its operation ids belong to. -/
  run : WallTime
  limits : AgentLimits := {}
  /-- `retained_operations`. -/
  retained : ℕ

structure Service where
  operations : Operations := {}
  policy : Except String ActivePolicy := .error "the policy has not been loaded"
  books : Books := {}
  /-- Whether the last audit append succeeded. -/
  auditOk : Bool := true
  /-- Who rebuilds the ledger, a task or something else, and the time it went by. -/
  rebuilding : Option (Option OperationId × WallTime) := none
  /-- When a refusal made before any decision was last written, and how many were not since. -/
  refusals : Option Instant × ℕ := (none, 0)
  writes : Writes := ∅
  tasks : OperationId → Option Task := fun _ => none
  /-- Operations whose task has not ended. -/
  inFlight : ℕ := 0
  trace : List Event := []
  /-- What was dropped from the ledger for its age. -/
  aged : List LedgerEntry := []

/-- What a step may find outside the service: the clocks, the receiver, and how the calls it makes end. -/
structure World where
  now : WallTime
  instant : Instant
  state : ReceiverState
  /-- `lease_as`. -/
  lease : Except String Unit
  /-- Whether an append ends in time and with success. -/
  appended : Bool
  /-- What `since` returns, if it returns in time and without an error. -/
  log : Option (List AuditRecord)
  outcome : OperationOutcome

namespace Service

/-- `append_within`: the outcome is the audit health. -/
def append (s : Service) (record : AuditRecord) (ok : Bool) : Service :=
  { s with auditOk := ok, trace := s.trace ++ [.appended record ok] }

def note (s : Service) (event : Event) : Service := { s with trace := s.trace ++ [event] }

/-- What `reserve` drops for its age. -/
def outdated (s : Service) (now : WallTime) : List LedgerEntry :=
  s.books.ledger.entries.filter fun entry => !decide (now.saturatingSub retention ≤ entry.change.time)

/-- Settle a place. -/
def settle (s : Service) (settlement : Settlement) (dispatched : Bool) : Service :=
  { s with books := s.books.settle settlement dispatched }

/-- The end of `ensure_ledger`. -/
def takeIn (s : Service) (records : List AuditRecord) (now : WallTime) : Service :=
  { s with
    books := { ledger := (Ledger.rebuild records now).merge s.books.ledger, ready := true }
    rebuilding := none }

end Service

/-- A record about an operation, by its task. -/
def Job.record (job : Job) (cfg : Settings) (id : OperationId) (now : WallTime) (event : AuditEvent) :
    AuditRecord :=
  { run := cfg.run, time := now, operation := some id, principal := some job.owner
    receiver := some job.receiver, event }

def Resolution.finishedEvent (resolution : Resolution) : AuditEvent :=
  .finished resolution.status.text resolution.dispatch resolution.confirmed resolution.reason

/-- `record_refused`: what is written says how many were not. -/
def Resolution.withSkipped (resolution : Resolution) (skipped : ℕ) : Resolution :=
  if skipped = 0 then resolution
  else { resolution with
    reason := some ((resolution.reason.getD "") ++ " (" ++ toString skipped ++ " more refused since the last record)") }

def refusalLogEvery : ℕ := 60 * 1000

/-- The record of a decision that the Operator's write is given. -/
def operatorDecidedEvent (intent : ReceiverIntent) : AuditEvent :=
  .decided (intentText intent) .allow [] [] [] none

/-- What the gate ends a request with that the policy does not allow. -/
def refusedResolution (decision : Decision) : Resolution :=
  .notDispatched (if decision.effect = .deny then .denied else .approvalUnavailable) (reasonText decision)

/-- The judgement of an agent's request, and where it leads. -/
def judgeStep (cfg : Settings) (s : Service) (id : OperationId) (job : Job) (label : AgentLabel)
    (policy : ActivePolicy) (w : World) : Service × Pc :=
  let input := s.books.inputIn w.now policy.config label.value job.receiver job.intent w.state
  let (books, judged) :=
    s.books.judge cfg.run w.now policy.config label.value job.receiver job.intent w.state id
  let s' := s.note (.judged id policy input judged)
  match judged with
  | .refused decision => (s', .recordingRefusal decision policy.digest (refusedResolution decision))
  | .noEpoch decision => (s', .recordingRefusal decision policy.digest (refusal noEpochText))
  | .allowed decision precondition settlement =>
    ({ s' with books, aged := s.aged ++ s.outdated w.now },
      .allowing { policy, input, decision, precondition, settlement })

/-- One step of `run_operation`. A task that waits for the rebuild of the ledger has none. -/
def advance (cfg : Settings) (s : Service) (id : OperationId) (task : Task) (w : World) :
    Option (Service × Pc) :=
  match task.pc with
  | .precheck => some (s, if s.policy.isOk then .ledger else .refusing (refusal policyUnavailable))
  | .ledger => some (s, if s.books.ready then .leasing else .rebuilding)
  | .rebuilding =>
    if s.rebuilding.isSome then none
    else if s.books.ready then some (s, .leasing)
    else some ({ s with rebuilding := some (some id, w.now) }, .readingLog)
  | .readingLog =>
    match s.rebuilding with
    | some (holder, now) =>
      if holder = some id then
        match w.log with
        | some records => some (s.takeIn records now, .leasing)
        | none => some ({ s with rebuilding := none }, .refusing (refusal ledgerUnavailable))
      else none
    | none => none
  | .refusing resolution =>
    some ({ s with operations := (s.operations.finish id resolution).getD s.operations },
      .recordingRefused resolution)
  | .recordingRefused resolution =>
    let due := s.refusals.1.all fun last => decide (refusalLogEvery ≤ w.instant - last)
    if due then
      some ({ s with refusals := (some w.instant, 0) }, .recording (resolution.withSkipped s.refusals.2))
    else some ({ s with refusals := (s.refusals.1, s.refusals.2 + 1) }, .ended)
  | .leasing =>
    match w.lease, task.owner with
    | .ok (), .agent _ => some (s, .deciding)
    | .ok (), .operator => some (s, .reserving)
    -- An agent is not told where the receiver is, only that it is out of reach.
    | .error _, .agent _ => some (s, .finishing (refusal receiverUnreachable) none)
    | .error error, .operator => some (s, .closing (.notDispatched .rejected error))
  | .deciding =>
    match s.policy with
    | .ok policy => some (s.note (.policyRead id policy), .judging policy)
    | .error _ => some (s, .finishing (refusal policyUnavailable) none)
  | .judging policy =>
    match task.owner with
    | .agent label => some (judgeStep cfg s id task.toJob label policy w)
    | .operator => none
  | .recordingRefusal decision digest resolution =>
    let record := task.record cfg id w.now (decidedEvent task.intent decision digest)
    some (s.append record w.appended, .finishing resolution none)
  | .allowing grant =>
    match s.operations.moveFrom id .submitted .allowed with
    | some operations => some ({ s with operations }, .recordingDecided grant)
    | none => some (s, .releasing grant.settlement cancelledResolution)
  | .recordingDecided grant =>
    let record := task.record cfg id w.now (decidedEvent task.intent grant.decision grant.policy.digest)
    some (s.append record w.appended,
      if w.appended then .checking grant else .releasing grant.settlement (refusal auditUnavailable))
  | .checking grant =>
    some (s,
      if s.operations.statusOf id = some .allowed then .recordingDispatching grant
      else .releasing grant.settlement cancelledResolution)
  | .recordingDispatching grant =>
    let record := task.record cfg id w.now
      (dispatchingEvent task.intent grant.input.state grant.precondition.fields)
    some (s.append record w.appended,
      if w.appended then .beginning (some grant.precondition) grant.settlement
      else .releasing grant.settlement (refusal auditUnavailable))
  | .releasing settlement resolution => some (s.settle settlement false, .finishing resolution none)
  | .reserving =>
    let (books, settlement) := s.books.reserve cfg.run w.now task.receiver task.intent w.state id
    some ({ s with books, aged := s.aged ++ s.outdated w.now }, .notingDecided w.state settlement)
  | .notingDecided state settlement =>
    -- A log known to be failing is not waited for.
    if s.auditOk then
      some (s.append (task.record cfg id w.now (operatorDecidedEvent task.intent)) w.appended,
        if w.appended then .notingDispatching state settlement else .beginning none settlement)
    else some (s, .beginning none settlement)
  | .notingDispatching state settlement =>
    let record := task.record cfg id w.now (dispatchingEvent task.intent state [])
    some (s.append record w.appended, .beginning none settlement)
  | .beginning precondition settlement =>
    match s.operations.beginSession id with
    | some operations => some ({ s with operations }.note (.begun id), .calling precondition settlement)
    | none => some (s, .withdrawing settlement)
  | .withdrawing settlement => some (s.settle settlement false, .recording cancelledResolution)
  | .calling precondition settlement =>
    some (s.note (.called id task.owner ⟨id, task.intent, precondition⟩), .inSession settlement)
  | .inSession settlement =>
    let shown := match task.owner with
      | .agent _ => fixedReason w.outcome
      | .operator => none
    some (s.note (.answered id w.outcome), .settling settlement (resolve w.outcome) shown)
  | .settling settlement resolution shown =>
    some (s.settle settlement (resolution.dispatch ≠ .notDispatched), .finishing resolution shown)
  | .finishing resolution shown =>
    match s.operations.finish id { resolution with reason := shown <|> resolution.reason } with
    | some operations => some ({ s with operations }, .recording resolution)
    | none => some (s, .reviewing resolution)
  | .reviewing resolution => some (s, .recording ((s.operations.endedAs id).getD resolution))
  | .recording resolution =>
    some (s.append (task.record cfg id w.now resolution.finishedEvent) w.appended, .ended)
  | .closing resolution =>
    some ({ s with operations := (s.operations.finish id resolution).getD s.operations }, .ended)
  | .ended => none

/-! ### The service as a machine -/

inductive Action
  /-- `submit`, for a receiver the service knows. -/
  | submit (caller : Principal) (receiver : ReceiverId) (submission : OperationSubmission) (now : Instant)
  | cancel (viewer : Principal) (id : OperationId)
  /-- A step of the operation's task. -/
  | advance (id : OperationId) (w : World)
  /-- The operation's task panics. -/
  | panic (id : OperationId)
  /-- `load_policy`, up to its record. -/
  | loadPolicy (loaded : Except String (PolicyConfig × PolicyDigest)) (now : WallTime)
  /-- A record that is about no operation. -/
  | noteElsewhere (principal : Option Principal) (event : AuditEvent) (now : WallTime) (ok : Bool)
  /-- The service's start or a dry run begins to rebuild the ledger. -/
  | rebuildElsewhere (now : WallTime)
  | readElsewhere (log : Option (List AuditRecord))
  /-- A dry run is a write against the cap. -/
  | chargeDryRun (label : AgentLabel) (now : Instant)
  | shutdown

/-- The task that a new operation is given. -/
def firstTask (caller : Principal) (receiver : ReceiverId) (intent : ReceiverIntent) : Task :=
  { owner := caller, receiver, intent, pc :=
      match caller with
      | .agent _ => .precheck
      | .operator => .leasing }

namespace Service

/-- `submit`. -/
def submit (cfg : Settings) (s : Service) (caller : Principal) (receiver : ReceiverId)
    (submission : OperationSubmission) (now : Instant) : Service × Except ControlError OperationSnapshot :=
  if receiver.isAdHoc ∧ caller ≠ .operator then (s, .error (.notFound "receiver"))
  else
    match admitRequest cfg.limits cfg.retained s.operations s.writes caller receiver submission now with
    | (operations, writes, .error error) => ({ s with operations, writes }, .error error)
    | (operations, writes, .ok (.existing snapshot)) => ({ s with operations, writes }, .ok snapshot)
    | (operations, writes, .ok (.new snapshot)) =>
      ({ s with
          operations, writes
          tasks := Function.update s.tasks snapshot.id (some (firstTask caller receiver submission.intent))
          inFlight := s.inFlight + 1 }, .ok snapshot)

/-- `OperationTask::drop`. -/
def endTask (s : Service) (id : OperationId) : Service :=
  { s with operations := (s.operations.dropTask id).getD s.operations, inFlight := s.inFlight - 1 }

def setTask (s : Service) (id : OperationId) (task : Task) : Service :=
  { s with tasks := Function.update s.tasks id (some task) }

def step (cfg : Settings) (s : Service) : Action → Option Service
  | .submit caller receiver submission now => some (s.submit cfg caller receiver submission now).1
  | .cancel viewer id =>
    match s.operations.cancel viewer id with
    | .ok (operations, _) => some ({ s with operations }.note (.withdrawn id))
    | .error _ => some s
  | .advance id w => do
    let task ← s.tasks id
    let (s, pc) ← Application.advance cfg s id task w
    let s := s.setTask id { task with pc }
    return if pc = .ended then s.endTask id else s
  | .panic id => do
    let task ← s.tasks id
    if task.pc = .ended then none
    let held : Bool := s.rebuilding.any fun rebuilding => rebuilding.1 == some id
    let s := { s with rebuilding := if held then none else s.rebuilding }
    return (s.setTask id { task with pc := .ended }).endTask id
  | .loadPolicy loaded now =>
    let policy := loaded.map fun (config, digest) => { config, digest, loadedAt := now : ActivePolicy }
    some ({ s with policy }.note (.loaded policy))
  | .noteElsewhere principal event now ok =>
    some (s.append { run := cfg.run, time := now, operation := none, principal, receiver := none, event } ok)
  | .rebuildElsewhere now =>
    if s.rebuilding.isSome ∨ s.books.ready then none else some { s with rebuilding := some (none, now) }
  | .readElsewhere log =>
    match s.rebuilding with
    | some (none, now) =>
      match log with
      | some records => some (s.takeIn records now)
      | none => some { s with rebuilding := none }
    | _ => none
  | .chargeDryRun label now => some { s with writes := (chargeWrite cfg.limits s.writes label now).1 }
  | .shutdown => some { s with operations := { s.operations with closed := true } }

end Service

/-- Every run of a service that was started as `cfg` says. -/
def gate (cfg : Settings) : Machine Service Action where
  init s := s = {}
  step := Service.step cfg

end DenonAvr.Application
