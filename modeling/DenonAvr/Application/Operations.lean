import DenonAvr.Application.Control
import Mathlib.Data.List.AList

/-!
# The table of operations

Admission, retention, the changes an operation goes through, and how a session's outcome maps to what clients see.
Every change is decided under one lock, by the status the operation has then: `transition` is the one way an entry
changes, and a change that is refused changes nothing.

The lemmas are about one operation at a time: a change of one leaves the others alone, and every operation that
cannot be withdrawn any more stays so.
-/

namespace DenonAvr.Application

open Domain

/-! ### Outcomes -/

/-- How an operation ended, in the terms clients see. -/
structure Resolution where
  status : OperationStatus
  dispatch : DispatchCertainty := .notDispatched
  confirmed : Bool := false
  reason : Option String := none
  observation : Option String := none
deriving DecidableEq

def Resolution.notDispatched (status : OperationStatus) (reason : String) : Resolution :=
  { status, reason := some reason }

/-- Map the session's outcome to what clients see. -/
def resolve : OperationOutcome → Resolution
  | .observedRequestedValue _ dispatch observation =>
    { status := .completed, dispatch, confirmed := true, observation := some observation }
  | .alreadyObserved _ observation =>
    { status := .alreadyInState, confirmed := true, observation := some observation }
  | .rejectedBeforeDispatch _ _ reason => .notDispatched .rejected reason
  | .cancelled _ => { status := .cancelled }
  | .supersededBeforeDispatch _ replacement => { status := .superseded replacement }
  | .indeterminate _ dispatch reason => { status := .indeterminate, dispatch, reason := some reason }

/-- The gate's refusals. -/
def refusal (reason : String) : Resolution := .notDispatched .rejected reason

/-- An operation withdrawn before the session was called. -/
def cancelledResolution : Resolution := { status := .cancelled }

theorem resolve_isTerminal (outcome : OperationOutcome) : (resolve outcome).status.isTerminal = true := by
  cases outcome <;> rfl

/-! ### The table -/

/-- One operation in the table. -/
structure Entry where
  owner : Principal
  key : Option IdempotencyKey
  snapshot : OperationSnapshot
deriving DecidableEq

structure Operations where
  nextId : ℕ := 0
  closed : Bool := false
  entries : AList (fun _ : OperationId => Entry) := ∅
  /-- Admission order. -/
  order : List OperationId := []
  keys : AList (fun _ : Principal × IdempotencyKey => OperationId) := ∅

inductive Admission
  /-- The caller must run it. -/
  | new (snapshot : OperationSnapshot)
  | existing (snapshot : OperationSnapshot)
deriving DecidableEq

namespace Operations

def entryOf (operations : Operations) (id : OperationId) : Option Entry := operations.entries.lookup id

/-- `status_of`. -/
def statusOf (operations : Operations) (id : OperationId) : Option OperationStatus :=
  (operations.entryOf id).map fun entry => entry.snapshot.status

/-- Change an operation, unless `change` refuses. -/
def transition (operations : Operations) (id : OperationId)
    (change : OperationSnapshot → Option OperationSnapshot) : Option Operations := do
  let entry ← operations.entryOf id
  let snapshot ← change entry.snapshot
  return { operations with entries := AList.insert id { entry with snapshot } operations.entries }

/-- Move an operation from one status to the next, if it still has the first. -/
def moveFrom (operations : Operations) (id : OperationId) (start next : OperationStatus) : Option Operations :=
  operations.transition id fun snapshot =>
    if snapshot.status = start then some { snapshot with status := next } else none

/-- `begin_session`. -/
def beginSession (operations : Operations) (id : OperationId) : Option Operations :=
  operations.moveFrom id .allowed .inSession

/-- End an operation that is still running. -/
def finish (operations : Operations) (id : OperationId) (resolution : Resolution) : Option Operations :=
  operations.transition id fun snapshot =>
    if snapshot.status.isTerminal then none
    else some { snapshot with
      status := resolution.status
      dispatch := resolution.dispatch
      confirmed := resolution.confirmed
      reason := resolution.reason
      observation := resolution.observation }

/-- How an operation that has ended ended. -/
def endedAs (operations : Operations) (id : OperationId) : Option Resolution :=
  (operations.entryOf id).bind fun entry =>
    let snapshot := entry.snapshot
    if snapshot.status.isTerminal then
      some { status := snapshot.status, dispatch := snapshot.dispatch, confirmed := snapshot.confirmed
             reason := snapshot.reason, observation := snapshot.observation }
    else none

/-- `OperationTask::drop`: the task ended without resolving its operation. -/
def dropTask (operations : Operations) (id : OperationId) : Option Operations :=
  operations.transition id fun snapshot =>
    if snapshot.status.isTerminal then none
    else
      let inSession : Bool := snapshot.status = .inSession
      some { snapshot with
        status := if inSession then .indeterminate else .rejected
        dispatch := if inSession then .unknown else .notDispatched
        confirmed := false
        reason := some "the operation task ended unexpectedly" }

/-- The operation as `viewer` may see it. -/
def watchOperation (operations : Operations) (viewer : Principal) (id : OperationId) :
    Except ControlError OperationSnapshot :=
  match operations.entryOf id with
  | some entry =>
    if viewer = .operator ∨ entry.owner = viewer then .ok entry.snapshot else .error (.notFound "operation")
  | none => .error (.notFound "operation")

/-- Withdraw an operation. -/
def cancel (operations : Operations) (viewer : Principal) (id : OperationId) :
    Except ControlError (Operations × OperationSnapshot) := do
  let current ← operations.watchOperation viewer id
  if current.status.isCancellable then
    let cancelled := { current with status := .cancelled }
    match operations.transition id fun snapshot =>
        if snapshot.status.isCancellable then some { snapshot with status := .cancelled } else none with
    | some operations => .ok (operations, cancelled)
    | none => .error (.tooLate current)
  else .error (.tooLate current)

/-- Whether the operation has an entry and has finished. -/
def finished (operations : Operations) (id : OperationId) : Bool :=
  (operations.entryOf id).any fun entry => entry.snapshot.status.isTerminal

/-- Drop one operation and its key. -/
def evict (operations : Operations) (id : OperationId) : Operations :=
  match operations.entryOf id with
  | some entry =>
    { operations with
      entries := operations.entries.erase id
      keys := entry.key.elim operations.keys fun key => operations.keys.erase (entry.owner, key) }
  | none => operations

/-- The loop of `evict_finished` over the ids in admission order, with the excess and what it keeps. -/
def evictLoop (operations : Operations) (excess : ℕ) (kept : List OperationId) : List OperationId → Operations
  | [] => { operations with order := kept }
  | id :: order =>
    if 0 < excess ∧ operations.finished id = true then (operations.evict id).evictLoop (excess - 1) kept order
    else operations.evictLoop excess (kept ++ [id]) order

/-- Drop the oldest finished operations beyond the retention limit. -/
def evictFinished (operations : Operations) (retained : ℕ) : Operations :=
  let excess := operations.entries.entries.length - (retained - 1)
  if excess = 0 then operations else operations.evictLoop excess [] operations.order

/-- An unfinished operation of the same owner for the same request. -/
def identical? (operations : Operations) (owner : Principal) (receiver : ReceiverId) (intent : ReceiverIntent) :
    Option OperationSnapshot :=
  (operations.entries.entries.find? fun ⟨_, entry⟩ =>
    entry.owner == owner && !entry.snapshot.status.isTerminal && entry.snapshot.receiver == receiver &&
      entry.snapshot.intent == intent).map fun ⟨_, entry⟩ => entry.snapshot

/-- The operation an idempotency key stands for. -/
def keyed? (operations : Operations) (owner : Principal) (key : Option IdempotencyKey) :
    Option OperationSnapshot := do
  let key ← key
  let id ← operations.keys.lookup (owner, key)
  let entry ← operations.entryOf id
  return entry.snapshot

/-- Record a new operation under the next id. -/
def add (operations : Operations) (owner : Principal) (receiver : ReceiverId)
    (submission : OperationSubmission) (status : OperationStatus) : Operations × OperationSnapshot :=
  let id := operations.nextId + 1
  let snapshot : OperationSnapshot := { id, receiver, intent := submission.intent, status }
  let entry : Entry := { owner, key := submission.idempotencyKey, snapshot }
  ({ operations with
      nextId := id
      keys := submission.idempotencyKey.elim operations.keys fun key =>
        AList.insert (owner, key) id operations.keys
      entries := AList.insert id entry operations.entries
      order := operations.order ++ [id] }, snapshot)

def shutDownText : String := "the control service has shut down"

/-- The status a new operation starts with: an Operator's request is evaluated trivially as allowed. -/
def firstStatus : Principal → OperationStatus
  | .operator => .allowed
  | .agent _ => .submitted

/-- The operation that a request is a retry of, when there is one. -/
def retried (operations : Operations) (owner : Principal) (receiver : ReceiverId)
    (submission : OperationSubmission) : Except ControlError (Option OperationSnapshot) :=
  if operations.closed then .error (.unavailable shutDownText)
  else
    match operations.keyed? owner submission.idempotencyKey with
    | some existing =>
      if existing.receiver ≠ receiver ∨ existing.intent ≠ submission.intent then
        .error (.invalidRequest "the idempotency key was already used for a different request")
      else .ok (some existing)
    | none => .ok (operations.identical? owner receiver submission.intent)

/-! ### What a change of one operation leaves alone -/

section Lemmas
variable {operations operations' : Operations} {id other : OperationId} {status : OperationStatus}
  {change : OperationSnapshot → Option OperationSnapshot}

theorem statusOf_eq_some :
    operations.statusOf id = some status ↔ ∃ entry, operations.entryOf id = some entry ∧ entry.snapshot.status = status := by
  simp [statusOf]

theorem transition_eq_some (h : operations.transition id change = some operations') :
    ∃ entry snapshot, operations.entryOf id = some entry ∧ change entry.snapshot = some snapshot ∧
      operations' =
        { operations with entries := AList.insert id { entry with snapshot } operations.entries } := by
  unfold transition at h
  obtain ⟨entry, hentry, h⟩ := Option.bind_eq_some_iff.mp h
  obtain ⟨snapshot, hsnapshot, h⟩ := Option.bind_eq_some_iff.mp h
  exact ⟨entry, snapshot, hentry, hsnapshot, (Option.some.inj h).symm⟩

theorem entryOf_transition_of_ne (h : operations.transition id change = some operations') (hne : other ≠ id) :
    operations'.entryOf other = operations.entryOf other := by
  obtain ⟨entry, snapshot, -, -, rfl⟩ := transition_eq_some h
  exact AList.lookup_insert_ne hne

theorem nextId_transition (h : operations.transition id change = some operations') :
    operations'.nextId = operations.nextId := by
  obtain ⟨entry, snapshot, -, -, rfl⟩ := transition_eq_some h
  rfl

/-- The status before and after a change, from what `change` does to a snapshot. -/
theorem statusOf_transition (h : operations.transition id change = some operations') :
    ∃ before after, operations.statusOf id = some before.status ∧ change before = some after ∧
      operations'.statusOf id = some after.status := by
  obtain ⟨entry, snapshot, hentry, hsnapshot, rfl⟩ := transition_eq_some h
  refine ⟨entry.snapshot, snapshot, statusOf_eq_some.mpr ⟨entry, hentry, rfl⟩, hsnapshot, ?_⟩
  exact statusOf_eq_some.mpr ⟨{ entry with snapshot }, AList.lookup_insert _, rfl⟩

theorem moveFrom_spec {start next : OperationStatus} (h : operations.moveFrom id start next = some operations') :
    operations.statusOf id = some start ∧ operations'.statusOf id = some next := by
  obtain ⟨before, after, hbefore, hchange, hafter⟩ := statusOf_transition h
  split_ifs at hchange with hstart
  obtain rfl := Option.some.inj hchange
  exact ⟨hstart ▸ hbefore, hafter⟩

theorem finish_spec {resolution : Resolution} (h : operations.finish id resolution = some operations') :
    ∃ status, operations.statusOf id = some status ∧ status.isTerminal = false ∧
      operations'.statusOf id = some resolution.status := by
  obtain ⟨before, after, hbefore, hchange, hafter⟩ := statusOf_transition h
  split_ifs at hchange with hterminal
  obtain rfl := Option.some.inj hchange
  exact ⟨before.status, hbefore, Bool.eq_false_iff.mpr hterminal, hafter⟩

/-- An operation that is still running can be ended. -/
theorem finish_isSome (resolution : Resolution) (hstatus : operations.statusOf id = some status)
    (hrunning : status.isTerminal = false) : (operations.finish id resolution).isSome = true := by
  obtain ⟨entry, hentry, rfl⟩ := statusOf_eq_some.mp hstatus
  simp [finish, transition, hentry, hrunning]

theorem dropTask_spec (h : operations.dropTask id = some operations') :
    ∃ after, operations'.statusOf id = some after ∧ after.isTerminal = true := by
  obtain ⟨before, after, -, hchange, hafter⟩ := statusOf_transition h
  split_ifs at hchange with hterminal
  obtain rfl := Option.some.inj hchange
  refine ⟨_, hafter, ?_⟩
  dsimp only
  split_ifs <;> rfl

/-- A withdrawal that succeeds: the operation could be withdrawn, and its status is all that changes. -/
theorem cancel_eq_ok {viewer : Principal} {snapshot : OperationSnapshot}
    (h : operations.cancel viewer id = .ok (operations', snapshot)) :
    ∃ entry, operations.entryOf id = some entry ∧ entry.snapshot.status.isCancellable = true ∧
      snapshot = { entry.snapshot with status := .cancelled } ∧
        operations.transition id (fun snapshot =>
          if snapshot.status.isCancellable then some { snapshot with status := .cancelled } else none) =
            some operations' := by
  unfold cancel watchOperation at h
  cases hentry : operations.entryOf id with
  | none => rw [hentry] at h; cases h
  | some entry =>
    simp only [hentry, bind, Except.bind] at h
    split_ifs at h with hviewer
    dsimp only at h
    split_ifs at h with hcancellable
    split at h
    · rename_i moved hmoved
      obtain ⟨rfl, rfl⟩ := Prod.mk.inj (Except.ok.inj h)
      exact ⟨entry, rfl, hcancellable, rfl, hmoved⟩
    · cases h

theorem cancel_spec {viewer : Principal} {snapshot : OperationSnapshot}
    (h : operations.cancel viewer id = .ok (operations', snapshot)) :
    ∃ change status, operations.transition id change = some operations' ∧
      operations.statusOf id = some status ∧ status.isCancellable = true ∧
      operations'.statusOf id = some .cancelled := by
  obtain ⟨entry, hentry, hcancellable, -, hmoved⟩ := cancel_eq_ok h
  obtain ⟨before, after, -, hchange, hafter⟩ := statusOf_transition hmoved
  split_ifs at hchange
  obtain rfl := Option.some.inj hchange
  exact ⟨_, entry.snapshot.status, hmoved, statusOf_eq_some.mpr ⟨entry, hentry, rfl⟩, hcancellable, hafter⟩

/-! ### Admission -/

theorem finished_iff : operations.finished id = true ↔
    ∃ entry, operations.entryOf id = some entry ∧ entry.snapshot.status.isTerminal = true := by
  unfold finished
  cases operations.entryOf id <;> simp

theorem entryOf_evict : (operations.evict id).entryOf other = if other = id then none else operations.entryOf other := by
  unfold evict
  cases hentry : operations.entryOf id with
  | none =>
    split_ifs with heq
    · rw [heq, hentry]
    · rfl
  | some entry =>
    split_ifs with heq
    · rw [heq]
      exact AList.lookup_erase _ _
    · exact AList.lookup_erase_ne heq

theorem nextId_evict : (operations.evict id).nextId = operations.nextId := by
  unfold evict
  cases operations.entryOf id <;> rfl

/-- The loop drops finished operations and changes nothing else of the table. -/
theorem evictLoop_spec (operations : Operations) (excess : ℕ) (kept order : List OperationId) :
    (operations.evictLoop excess kept order).nextId = operations.nextId ∧
      ∀ id, (operations.evictLoop excess kept order).entryOf id = operations.entryOf id ∨
        (operations.evictLoop excess kept order).entryOf id = none ∧ operations.finished id = true := by
  induction order generalizing operations excess kept with
  | nil => exact ⟨rfl, fun id => .inl rfl⟩
  | cons first order ih =>
    unfold evictLoop
    split_ifs with hevict
    · obtain ⟨hnext, hentries⟩ := ih (operations.evict first) (excess - 1) kept
      refine ⟨hnext.trans nextId_evict, fun id => ?_⟩
      by_cases heq : id = first
      · have hnone : (operations.evict first).entryOf id = none := by rw [entryOf_evict, if_pos heq]
        rcases hentries id with hsame | ⟨hgone, -⟩
        · exact .inr ⟨hsame.trans hnone, heq ▸ hevict.2⟩
        · exact .inr ⟨hgone, heq ▸ hevict.2⟩
      · have hsame : (operations.evict first).entryOf id = operations.entryOf id := by
          rw [entryOf_evict, if_neg heq]
        unfold finished at hentries ⊢
        rw [← hsame]
        exact hentries id
    · exact ih operations excess (kept ++ [first])

theorem evictFinished_spec (operations : Operations) (retained : ℕ) :
    (operations.evictFinished retained).nextId = operations.nextId ∧
      ∀ id, (operations.evictFinished retained).entryOf id = operations.entryOf id ∨
        (operations.evictFinished retained).entryOf id = none ∧ operations.finished id = true := by
  unfold evictFinished
  dsimp only
  split_ifs
  · exact ⟨rfl, fun id => .inl rfl⟩
  · exact evictLoop_spec _ _ _ _

theorem entryOf_add_of_ne {owner : Principal} {receiver : ReceiverId} {submission : OperationSubmission}
    (hne : other ≠ operations.nextId + 1) :
    (operations.add owner receiver submission status).1.entryOf other = operations.entryOf other :=
  AList.lookup_insert_ne hne

end Lemmas

/-! ### What stays -/

/-- The operation can no longer be withdrawn. -/
def PastCancel (operations : Operations) (id : OperationId) : Prop :=
  ∀ status, operations.statusOf id = some status → status.isCancellable = false

/-- What nobody but the operation's own task changes. -/
structure Keeps (operations operations' : Operations) (id : OperationId) : Prop where
  inSession : operations.statusOf id = some .inSession → operations'.statusOf id = some .inSession
  pastCancel : operations.PastCancel id → operations'.PastCancel id

section Keeps
variable {operations operations' : Operations} {id other : OperationId}

theorem Keeps.refl (operations : Operations) (id : OperationId) : operations.Keeps operations id :=
  ⟨fun h => h, fun h => h⟩

theorem Keeps.of_entryOf (h : operations'.entryOf id = operations.entryOf id) : operations.Keeps operations' id := by
  have hstatus : operations'.statusOf id = operations.statusOf id := congrArg _ h
  exact ⟨fun h => hstatus.trans h, fun h => by unfold PastCancel; rw [hstatus]; exact h⟩

theorem Keeps.cancel (id : OperationId) {viewer : Principal} {snapshot : OperationSnapshot}
    (h : operations.cancel viewer other = .ok (operations', snapshot)) : operations.Keeps operations' id := by
  obtain ⟨change, status, htransition, hstatus, hcancellable, hafter⟩ := cancel_spec h
  by_cases heq : id = other
  · subst heq
    refine ⟨fun hsession => ?_, fun hpast => ?_⟩
    · obtain rfl := Option.some.inj (hsession.symm.trans hstatus)
      cases hcancellable
    · exact absurd hcancellable (by rw [hpast status hstatus]; decide)
  · exact .of_entryOf (entryOf_transition_of_ne htransition heq)

theorem Keeps.addEvicted (owner : Principal) (receiver : ReceiverId) (submission : OperationSubmission)
    (status : OperationStatus) (retained : ℕ) (hid : id ≤ operations.nextId) :
    operations.Keeps ((operations.evictFinished retained).add owner receiver submission status).1 id := by
  obtain ⟨hnext, hentries⟩ := operations.evictFinished_spec retained
  have hadd : ((operations.evictFinished retained).add owner receiver submission status).1.entryOf id =
      (operations.evictFinished retained).entryOf id := by
    refine entryOf_add_of_ne ?_
    rw [hnext]
    exact (Nat.lt_succ_of_le hid).ne
  rcases hentries id with hsame | ⟨hgone, hfinished⟩
  · exact .of_entryOf (hadd.trans hsame)
  · have hnone := hadd.trans hgone
    refine ⟨fun hsession => ?_, fun _ status hstatus => ?_⟩
    · obtain ⟨entry, hentry, hstatus⟩ := statusOf_eq_some.mp hsession
      simp [finished, hentry, hstatus, OperationStatus.isTerminal] at hfinished
    · obtain ⟨entry, hentry, -⟩ := statusOf_eq_some.mp hstatus
      rw [hnone] at hentry
      cases hentry

theorem pastCancel_of_statusOf {status : OperationStatus} (h : operations.statusOf id = some status)
    (hstatus : status.isCancellable = false) : operations.PastCancel id := by
  intro status' h'
  rw [← Option.some.inj (h.symm.trans h')]
  exact hstatus

end Keeps

end Operations

theorem OperationStatus.isCancellable_of_isTerminal {status : OperationStatus} (h : status.isTerminal = true) :
    status.isCancellable = false := by
  cases status <;> first | rfl | cases h

end DenonAvr.Application
