import DenonAvr.Application.Caps
import DenonAvr.Library.Machine

/-!
# The lifecycle of an operation

The table of operations on its own, under every order of the calls that change it: requests, the gate's moves, the
ends of operations, cancellations and tasks that end without one. `SnapshotChange` is what any of them may do to a snapshot
and `Turn` what a step may do to one operation; what holds of an operation in every run follows from these.

A request that repeats an idempotency key is answered with the operation that the key is registered for. A key is
registered when its request makes an operation, not when the request is answered with one that is already running:
such a key is free again when that operation ends (`honours_iff_registers`).
-/

namespace DenonAvr.Application

open Domain Library

/-! ### The table as a machine -/

inductive TableAction
  /-- A request, with what the caps count when it is made. -/
  | submit (owner : Principal) (receiver : ReceiverId) (submission : OperationSubmission) (writes : Writes)
      (now : Instant)
  /-- The gate moves an agent's operation on. -/
  | allow (id : OperationId)
  | beginSession (id : OperationId)
  | finish (id : OperationId) (resolution : Resolution)
  | cancel (viewer : Principal) (id : OperationId)
  | dropTask (id : OperationId)
  | close

namespace Operations

/-- A request, and its answer. -/
def submit (operations : Operations) (limits : AgentLimits) (retained : ℕ) (owner : Principal)
    (receiver : ReceiverId) (submission : OperationSubmission) (writes : Writes) (now : Instant) :
    Operations × Except ControlError Admission :=
  let (operations, _, answer) := admitRequest limits retained operations writes owner receiver submission now
  (operations, answer)

/-- A change that is refused leaves the table as it is. An operation is only ended with a terminal status. -/
def step (limits : AgentLimits) (retained : ℕ) (operations : Operations) : TableAction → Option Operations
  | .submit owner receiver submission writes now =>
    some (operations.submit limits retained owner receiver submission writes now).1
  | .allow id => some ((operations.moveFrom id .submitted .allowed).getD operations)
  | .beginSession id => some ((operations.beginSession id).getD operations)
  | .finish id resolution =>
    if resolution.status.isTerminal then some ((operations.finish id resolution).getD operations) else none
  | .cancel viewer id =>
    match operations.cancel viewer id with
    | .ok (operations, _) => some operations
    | .error _ => some operations
  | .dropTask id => some ((operations.dropTask id).getD operations)
  | .close => some { operations with closed := true }

end Operations

/-- Every order of the calls that change the table. -/
def table (limits : AgentLimits) (retained : ℕ) : Machine Operations TableAction where
  init operations := operations = {}
  step := Operations.step limits retained

/-! ### What a step does to one operation -/

/-- The lifecycle graph. -/
inductive Lifecycle : OperationStatus → OperationStatus → Prop
  | allowed : Lifecycle .submitted .allowed
  | inSession : Lifecycle .allowed .inSession
  | ended {status next : OperationStatus} (hstatus : status.isTerminal = false) (hnext : next.isTerminal = true) :
      Lifecycle status next

/-- What a call may do to a snapshot. An operation that is not ended has dispatched no more than before. -/
structure SnapshotChange (before after : OperationSnapshot) : Prop where
  lifecycle : Lifecycle before.status after.status
  id : after.id = before.id
  receiver : after.receiver = before.receiver
  intent : after.intent = before.intent
  dispatch : after.status.isTerminal = false → after.dispatch = before.dispatch

theorem Lifecycle.running {status next : OperationStatus} (h : Lifecycle status next) : status.isTerminal = false := by
  cases h with
  | allowed | inSession => rfl
  | ended hstatus _ => exact hstatus

/-- What a step may do to an operation. -/
inductive Turn (operations operations' : Operations) (id : OperationId) : Prop
  | same (h : operations'.entryOf id = operations.entryOf id)
  | changed (entry : Entry) (snapshot : OperationSnapshot) (hbefore : operations.entryOf id = some entry)
      (hafter : operations'.entryOf id = some { entry with snapshot }) (hchange : SnapshotChange entry.snapshot snapshot)
  /-- Only an operation that has ended is dropped from the table. -/
  | evicted (entry : Entry) (hbefore : operations.entryOf id = some entry) (hafter : operations'.entryOf id = none)
      (hended : entry.snapshot.status.isTerminal = true)
  | new (entry : Entry) (hid : id = operations.nextId + 1) (hnext : operations'.nextId = id)
      (hbefore : operations.entryOf id = none) (hafter : operations'.entryOf id = some entry)
      (hentry : entry.snapshot.id = id) (hstatus : entry.snapshot.status = Operations.firstStatus entry.owner)
      (hdispatch : entry.snapshot.dispatch = .notDispatched)

/-- Ids are given out in order. -/
def Operations.Ordered (operations : Operations) : Prop :=
  ∀ id entry, operations.entryOf id = some entry → id ≤ operations.nextId ∧ entry.snapshot.id = id

theorem Operations.Ordered.entryOf_next {operations : Operations} (h : operations.Ordered) :
    operations.entryOf (operations.nextId + 1) = none := by
  cases hentry : operations.entryOf (operations.nextId + 1) with
  | none => rfl
  | some entry => exact absurd (h _ entry hentry).1 (Nat.not_succ_le_self _)

section Turn
variable {limits : AgentLimits} {retained : ℕ} {operations operations' : Operations} {id other : OperationId}
  {change : OperationSnapshot → Option OperationSnapshot}

theorem turn_of_transition (h : operations.transition other change = some operations')
    (hchange : ∀ before after, change before = some after → SnapshotChange before after) :
    Turn operations operations' id := by
  by_cases heq : id = other
  · subst heq
    obtain ⟨entry, snapshot, hentry, hsnapshot, rfl⟩ := Operations.transition_eq_some h
    exact .changed entry snapshot hentry (AList.lookup_insert _) (hchange _ _ hsnapshot)
  · exact .same (Operations.entryOf_transition_of_ne h heq)

theorem turn_getD {moved : Option Operations} (h : ∀ operations', moved = some operations' →
    Turn operations operations' id) : Turn operations (moved.getD operations) id := by
  cases hmoved : moved with
  | none => exact .same rfl
  | some operations' => exact h operations' hmoved

theorem change_moveFrom {start next : OperationStatus} (hnext : Lifecycle start next) {before after : OperationSnapshot}
    (h : (if before.status = start then some { before with status := next } else none) = some after) :
    SnapshotChange before after := by
  split_ifs at h with hstart
  obtain rfl := Option.some.inj h
  exact ⟨hstart ▸ hnext, rfl, rfl, rfl, fun _ => rfl⟩

theorem turn_moveFrom {start next : OperationStatus} (hnext : Lifecycle start next)
    (h : operations.moveFrom other start next = some operations') :
    Turn operations operations' id := by
  unfold Operations.moveFrom at h
  exact turn_of_transition h fun _ _ => change_moveFrom hnext

theorem turn_finish {resolution : Resolution} (hterminal : resolution.status.isTerminal = true)
    (h : operations.finish other resolution = some operations') :
    Turn operations operations' id := by
  unfold Operations.finish at h
  refine turn_of_transition h fun before after hchange => ?_
  split_ifs at hchange with hrunning
  obtain rfl := Option.some.inj hchange
  exact ⟨.ended (Bool.eq_false_iff.mpr hrunning) hterminal, rfl, rfl, rfl, fun hnot => by rw [hterminal] at hnot; cases hnot⟩

theorem turn_dropTask (h : operations.dropTask other = some operations') :
    Turn operations operations' id := by
  unfold Operations.dropTask at h
  refine turn_of_transition h fun before after hchange => ?_
  split_ifs at hchange with hrunning
  obtain rfl := Option.some.inj hchange
  have hterminal : (if decide (before.status = .inSession) = true then OperationStatus.indeterminate
      else .rejected).isTerminal = true := by
    split_ifs <;> rfl
  exact ⟨.ended (Bool.eq_false_iff.mpr hrunning) hterminal, rfl, rfl, rfl, fun hnot => by rw [hterminal] at hnot; cases hnot⟩

theorem turn_cancel {viewer : Principal} {snapshot : OperationSnapshot}
    (h : operations.cancel viewer other = .ok (operations', snapshot)) :
    Turn operations operations' id := by
  obtain ⟨entry, hentry, hcancellable, hsnapshot, hmoved⟩ := Operations.cancel_eq_ok h
  refine turn_of_transition hmoved fun before after hchange => ?_
  split_ifs at hchange with hcould
  obtain rfl := Option.some.inj hchange
  refine ⟨.ended ?_ rfl, rfl, rfl, rfl, fun hnot => by cases hnot⟩
  cases hstatus : before.status <;> first | rfl | (rw [hstatus] at hcould; cases hcould)

/-- A request that is answered changes nothing, and one that is new drops operations that have ended and adds one. -/
theorem table_submit_cases (limits : AgentLimits) (retained : ℕ) (operations : Operations) (owner : Principal)
    (receiver : ReceiverId) (submission : OperationSubmission) (writes : Writes) (now : Instant) :
    let submitted := operations.submit limits retained owner receiver submission writes now
    (submitted.1 = operations ∧ ∀ admission, submitted.2 = .ok admission → ∃ snapshot,
      admission = .existing snapshot ∧ operations.retried owner receiver submission = .ok (some snapshot)) ∨
      operations.retried owner receiver submission = .ok none ∧
      submitted.1 = ((operations.evictFinished retained).add owner receiver submission
        (Operations.firstStatus owner)).1 ∧
      submitted.2 = .ok (.new ((operations.evictFinished retained).add owner receiver submission
        (Operations.firstStatus owner)).2) := by
  unfold Operations.submit admitRequest
  cases operations.retried owner receiver submission with
  | error error => exact .inl ⟨rfl, by simp⟩
  | ok existing =>
    cases existing with
    | some existing => exact .inl ⟨rfl, fun admission heq => ⟨existing, (Except.ok.inj heq).symm, rfl⟩⟩
    | none =>
      dsimp only
      obtain ⟨counted, answer⟩ := countNew limits operations writes owner now
      cases answer with
      | error error => exact .inl ⟨rfl, by simp⟩
      | ok admitted => exact .inr ⟨rfl, rfl, rfl⟩

/-- The calls that may move an operation on. -/
inductive TableAction.Moves (id : OperationId) : TableAction → Prop
  | allow : Moves id (.allow id)
  | beginSession : Moves id (.beginSession id)
  | finish (resolution : Resolution) : Moves id (.finish id resolution)
  | cancel (viewer : Principal) : Moves id (.cancel viewer id)
  | dropTask : Moves id (.dropTask id)

/-- What a step does to the table: nothing, one transition, an addition or its closing. -/
inductive TableMove (limits : AgentLimits) (retained : ℕ) (operations : Operations) : TableAction → Operations → Prop
  | same (a : TableAction) : TableMove limits retained operations a operations
  | moved (a : TableAction) (id : OperationId) (change : OperationSnapshot → Option OperationSnapshot)
      (moved : Operations) (ha : a.Moves id) (hmoved : operations.transition id change = some moved) :
      TableMove limits retained operations a moved
  | added (owner : Principal) (receiver : ReceiverId) (submission : OperationSubmission) (writes : Writes) (now : Instant)
      (hretried : operations.retried owner receiver submission = .ok none) :
      TableMove limits retained operations (.submit owner receiver submission writes now)
        ((operations.evictFinished retained).add owner receiver submission (Operations.firstStatus owner)).1
  | closed : TableMove limits retained operations .close { operations with closed := true }

theorem tableMove_of_step {a : TableAction} (h : operations.step limits retained a = some operations') :
    TableMove limits retained operations a operations' := by
  have hgetD : ∀ {a : TableAction} {id change}, a.Moves id →
      TableMove limits retained operations a ((operations.transition id change).getD operations) := by
    intro a id change ha
    cases hmoved : operations.transition id change with
    | none => exact .same a
    | some moved => exact .moved a id change moved ha hmoved
  cases a with
  | submit owner receiver submission writes now =>
    obtain rfl := Option.some.inj h
    rcases table_submit_cases limits retained operations owner receiver submission writes now with
      ⟨hsame, -⟩ | ⟨hretried, hadd, -⟩
    · rw [hsame]
      exact .same _
    · rw [hadd]
      exact .added owner receiver submission writes now hretried
  | allow id =>
    obtain rfl := Option.some.inj h
    exact hgetD .allow
  | beginSession id =>
    obtain rfl := Option.some.inj h
    unfold Operations.beginSession Operations.moveFrom
    exact hgetD .beginSession
  | finish id resolution =>
    simp only [Operations.step] at h
    split_ifs at h
    obtain rfl := Option.some.inj h
    exact hgetD (.finish resolution)
  | cancel viewer id =>
    simp only [Operations.step] at h
    split at h <;> obtain rfl := Option.some.inj h
    · rename_i hcancel
      obtain ⟨-, -, -, -, hmoved⟩ := Operations.cancel_eq_ok hcancel
      exact .moved _ id _ _ (.cancel viewer) hmoved
    · exact .same _
  | dropTask id =>
    obtain rfl := Option.some.inj h
    exact hgetD .dropTask
  | close =>
    obtain rfl := Option.some.inj h
    exact .closed

/-- A new operation, in the table that was made room in. -/
theorem entryOf_addEvicted (operations : Operations) (retained : ℕ) (owner : Principal) (receiver : ReceiverId)
    (submission : OperationSubmission) (status : OperationStatus) :
    ((operations.evictFinished retained).add owner receiver submission status).1.entryOf (operations.nextId + 1) =
      some ⟨owner, submission.idempotencyKey,
        ((operations.evictFinished retained).add owner receiver submission status).2⟩ := by
  unfold Operations.add Operations.entryOf
  dsimp only
  rw [(operations.evictFinished_spec retained).1]
  exact AList.lookup_insert _

/-- The other operations stay, or they had ended and are dropped. -/
theorem entryOf_addEvicted_of_ne (owner : Principal) (receiver : ReceiverId) (submission : OperationSubmission)
    (status : OperationStatus) (hne : id ≠ operations.nextId + 1) :
    let added := ((operations.evictFinished retained).add owner receiver submission status).1
    added.entryOf id = operations.entryOf id ∨ added.entryOf id = none ∧ operations.finished id = true := by
  obtain ⟨hnext, hentries⟩ := operations.evictFinished_spec retained
  have hadd : ((operations.evictFinished retained).add owner receiver submission status).1.entryOf id =
      (operations.evictFinished retained).entryOf id :=
    Operations.entryOf_add_of_ne (by rw [hnext]; exact hne)
  exact (hentries id).imp hadd.trans fun ⟨hgone, hfinished⟩ => ⟨hadd.trans hgone, hfinished⟩

theorem turn_add (h : operations.Ordered) (owner : Principal) (receiver : ReceiverId)
    (submission : OperationSubmission) :
    Turn operations ((operations.evictFinished retained).add owner receiver submission
      (Operations.firstStatus owner)).1 id := by
  have hnext := (operations.evictFinished_spec retained).1
  by_cases heq : id = operations.nextId + 1
  · subst heq
    exact .new _ rfl (congrArg (· + 1) hnext) h.entryOf_next (entryOf_addEvicted operations retained owner receiver
      submission (Operations.firstStatus owner)) (congrArg (· + 1) hnext) rfl rfl
  · rcases entryOf_addEvicted_of_ne owner receiver submission (Operations.firstStatus owner) heq with
      hsame | ⟨hgone, hfinished⟩
    · exact .same hsame
    · obtain ⟨entry, hentry, hended⟩ := Operations.finished_iff.mp hfinished
      exact .evicted entry hentry hgone hended

/-- What a step does to each operation. -/
theorem turn_of_step (hordered : operations.Ordered) {a : TableAction}
    (h : operations.step limits retained a = some operations') (id : OperationId) :
    Turn operations operations' id := by
  cases a with
  | submit owner receiver submission writes now =>
    obtain rfl := Option.some.inj h
    rcases table_submit_cases limits retained operations owner receiver submission writes now with ⟨hsame, -⟩ | ⟨-, hadd, -⟩
    · exact .same (by rw [hsame])
    · rw [hadd]
      exact turn_add hordered owner receiver submission
  | allow other =>
    obtain rfl := Option.some.inj h
    exact turn_getD fun _ => turn_moveFrom .allowed
  | beginSession other =>
    obtain rfl := Option.some.inj h
    exact turn_getD fun _ => turn_moveFrom .inSession
  | finish other resolution =>
    simp only [Operations.step] at h
    split_ifs at h with hterminal
    obtain rfl := Option.some.inj h
    exact turn_getD fun _ => turn_finish hterminal
  | cancel viewer other =>
    simp only [Operations.step] at h
    split at h <;> obtain rfl := Option.some.inj h
    · rename_i hcancel
      exact turn_cancel hcancel
    · exact .same rfl
  | dropTask other =>
    obtain rfl := Option.some.inj h
    exact turn_getD fun _ => turn_dropTask
  | close =>
    obtain rfl := Option.some.inj h
    exact .same rfl

theorem nextId_le_of_step {a : TableAction} (h : operations.step limits retained a = some operations') :
    operations.nextId ≤ operations'.nextId := by
  cases tableMove_of_step h with
  | same => exact le_rfl
  | moved a id change moved ha hmoved => exact (Operations.nextId_transition hmoved).ge
  | added => exact (operations.evictFinished_spec retained).1.ge.trans (Nat.le_succ _)
  | closed => exact le_rfl

theorem nextId_le_of_exec {acts : List TableAction} (h : (table limits retained).exec operations acts = some operations') :
    operations.nextId ≤ operations'.nextId :=
  Machine.exec_induction (table limits retained) (P := fun _ reached => operations.nextId ≤ reached.nextId) le_rfl
    (fun _ _ _ _ _ hle hstep => hle.trans (nextId_le_of_step hstep)) h

end Turn

/-! ### Every run -/

/-- An operation is under its own id, ids are given out in order, and nothing was dispatched for one that has not
ended. -/
structure Operations.Tidy (operations : Operations) : Prop where
  ordered : operations.Ordered
  fresh : ∀ id entry, operations.entryOf id = some entry → entry.snapshot.status.isTerminal = false →
    entry.snapshot.dispatch = .notDispatched

/-- The same request, by the same caller. -/
structure Entry.SameRequest (entry entry' : Entry) : Prop where
  owner : entry'.owner = entry.owner
  key : entry'.key = entry.key
  id : entry'.snapshot.id = entry.snapshot.id
  receiver : entry'.snapshot.receiver = entry.snapshot.receiver
  intent : entry'.snapshot.intent = entry.snapshot.intent

/-- What became of an operation that had an id before: it is gone, or it is the same request, and as it was if it
had ended. -/
def Remains (operations operations' : Operations) (id : OperationId) : Prop :=
  ∀ entry', operations'.entryOf id = some entry' → ∃ entry, operations.entryOf id = some entry ∧
    entry.SameRequest entry' ∧ (entry.snapshot.status.isTerminal = true → entry' = entry)

section Runs
variable {limits : AgentLimits} {retained : ℕ} {operations operations' : Operations} {id : OperationId}

theorem Operations.Tidy.step (h : operations.Tidy) {a : TableAction}
    (hstep : operations.step limits retained a = some operations') : operations'.Tidy := by
  have hle := nextId_le_of_step hstep
  refine ⟨fun id entry' hentry' => ?_, fun id entry' hentry' hrunning => ?_⟩
  · cases turn_of_step h.ordered hstep id with
    | same hsame =>
      obtain ⟨hid, hown⟩ := h.ordered id entry' (hsame ▸ hentry')
      exact ⟨hid.trans hle, hown⟩
    | changed entry snapshot hbefore hafter hchange =>
      obtain rfl := Option.some.inj (hafter.symm.trans hentry')
      obtain ⟨hid, hown⟩ := h.ordered id entry hbefore
      exact ⟨hid.trans hle, hchange.id.trans hown⟩
    | evicted entry hbefore hafter hended =>
      rw [hafter] at hentry'
      cases hentry'
    | new entry hid hnext hbefore hafter hentry hstatus hdispatch =>
      obtain rfl := Option.some.inj (hafter.symm.trans hentry')
      exact ⟨hnext.ge, hentry⟩
  · cases turn_of_step h.ordered hstep id with
    | same hsame => exact h.fresh id entry' (hsame ▸ hentry') hrunning
    | changed entry snapshot hbefore hafter hchange =>
      obtain rfl := Option.some.inj (hafter.symm.trans hentry')
      exact (hchange.dispatch hrunning).trans (h.fresh id entry hbefore hchange.lifecycle.running)
    | evicted entry hbefore hafter hended =>
      rw [hafter] at hentry'
      cases hentry'
    | new entry hid hnext hbefore hafter hentry hstatus hdispatch =>
      obtain rfl := Option.some.inj (hafter.symm.trans hentry')
      exact hdispatch

theorem tidy_of_reachable (h : (table limits retained).Reachable operations) : operations.Tidy := by
  refine Machine.Reachable.invariant (I := Operations.Tidy) (fun operations hinit => ?_)
    (fun _ _ _ _ hi hstep => hi.step hstep) h
  obtain rfl : operations = {} := hinit
  exact ⟨fun id entry hentry => (by cases hentry), fun id entry hentry => (by cases hentry)⟩

theorem Remains.step (h : operations.Tidy) (hid : id ≤ operations.nextId) {a : TableAction}
    (hstep : operations.step limits retained a = some operations') : Remains operations operations' id := by
  intro entry' hentry'
  cases turn_of_step h.ordered hstep id with
  | same hsame => exact ⟨entry', hsame ▸ hentry', ⟨rfl, rfl, rfl, rfl, rfl⟩, fun _ => rfl⟩
  | changed entry snapshot hbefore hafter hchange =>
    obtain rfl := Option.some.inj (hafter.symm.trans hentry')
    refine ⟨entry, hbefore, ⟨rfl, rfl, hchange.id, hchange.receiver, hchange.intent⟩, fun hended => ?_⟩
    rw [hchange.lifecycle.running] at hended
    cases hended
  | evicted entry hbefore hafter hended =>
    rw [hafter] at hentry'
    cases hentry'
  | new entry hnew hnext hbefore hafter hentry hstatus hdispatch =>
    subst hnew
    exact absurd hid (Nat.not_succ_le_self _)

theorem Remains.trans {operations'' : Operations} (h : Remains operations operations' id)
    (h' : Remains operations' operations'' id) : Remains operations operations'' id := by
  intro entry'' hentry''
  obtain ⟨entry', hentry', hsame', hended'⟩ := h' entry'' hentry''
  obtain ⟨entry, hentry, hsame, hended⟩ := h entry' hentry'
  refine ⟨entry, hentry, ⟨hsame'.owner.trans hsame.owner, hsame'.key.trans hsame.key, hsame'.id.trans hsame.id,
    hsame'.receiver.trans hsame.receiver, hsame'.intent.trans hsame.intent⟩, fun hterminal => ?_⟩
  obtain rfl := hended hterminal
  exact hended' hterminal

/-- The run lemma for one operation. -/
theorem remains_of_exec (h : operations.Tidy) (hid : id ≤ operations.nextId) {acts : List TableAction}
    (hexec : (table limits retained).exec operations acts = some operations') :
    Remains operations operations' id := by
  have hrun := Machine.exec_induction (table limits retained)
    (P := fun _ reached => Remains operations reached id ∧ reached.Tidy ∧ id ≤ reached.nextId)
    ⟨fun entry hentry => ⟨entry, hentry, ⟨rfl, rfl, rfl, rfl, rfl⟩, fun _ => rfl⟩, h, hid⟩
    (fun acts reached a next _ ⟨hremains, htidy, hle⟩ hstep =>
      ⟨hremains.trans (.step htidy hle hstep), htidy.step hstep, hle.trans (nextId_le_of_step hstep)⟩) hexec
  exact hrun.1

end Runs

/-! ### Idempotency keys -/

/-- A key is registered for the retained operation that was made with it, and for no other. -/
def Operations.Keyed (operations : Operations) : Prop :=
  ∀ owner key id, operations.keys.lookup (owner, key) = some id ↔
    ∃ entry, operations.entryOf id = some entry ∧ entry.owner = owner ∧ entry.key = some key

section Keys
variable {limits : AgentLimits} {retained : ℕ} {operations operations' : Operations} {id : OperationId}

theorem Operations.Keyed.transition (h : operations.Keyed) {change : OperationSnapshot → Option OperationSnapshot}
    (hmoved : operations.transition id change = some operations') : operations'.Keyed := by
  intro owner key other
  have hkeys : operations'.keys = operations.keys := by
    obtain ⟨entry, snapshot, -, -, rfl⟩ := Operations.transition_eq_some hmoved
    rfl
  rw [hkeys, h owner key other]
  by_cases heq : other = id
  · subst heq
    obtain ⟨entry, snapshot, hentry, -, rfl⟩ := Operations.transition_eq_some hmoved
    have hafter : ({ operations with entries := AList.insert other { entry with snapshot } operations.entries } :
        Operations).entryOf other = some { entry with snapshot } := AList.lookup_insert _
    rw [hentry, hafter]
    simp
  · rw [Operations.entryOf_transition_of_ne hmoved heq]

theorem Operations.Keyed.evict (h : operations.Keyed) (id : OperationId) : (operations.evict id).Keyed := by
  intro owner key other
  rw [Operations.entryOf_evict]
  cases hentry : operations.entryOf id with
  | none =>
    have hsame : operations.evict id = operations := by
      unfold Operations.evict
      rw [hentry]
    rw [hsame, h owner key other]
    split_ifs with heq
    · rw [heq, hentry]
      simp
    · rfl
  | some entry =>
    have hkeys : (operations.evict id).keys =
        entry.key.elim operations.keys fun key => operations.keys.erase (entry.owner, key) := by
      unfold Operations.evict
      rw [hentry]
    by_cases hmine : entry.owner = owner ∧ entry.key = some key
    · -- The key that goes with its operation.
      obtain ⟨rfl, hkey⟩ := hmine
      rw [hkeys, hkey]
      have hregistered := (h entry.owner key id).mpr ⟨entry, hentry, rfl, hkey⟩
      refine ⟨fun hlookup => ?_, fun ⟨entry', hentry', howner', hkey'⟩ => ?_⟩
      · rw [Option.elim_some, AList.lookup_erase] at hlookup
        cases hlookup
      · split_ifs at hentry' with heq
        have hother := (h entry.owner key other).mpr ⟨entry', hentry', howner', hkey'⟩
        exact absurd (Option.some.inj (hother.symm.trans hregistered)) heq
    · have hlookup : (operations.evict id).keys.lookup (owner, key) = operations.keys.lookup (owner, key) := by
        rw [hkeys]
        cases hkey : entry.key with
        | none => rfl
        | some own =>
          refine AList.lookup_erase_ne fun heq => hmine ?_
          obtain ⟨rfl, rfl⟩ := Prod.mk.inj heq
          exact ⟨rfl, hkey⟩
      rw [hlookup, h owner key other]
      split_ifs with heq
      · subst heq
        refine ⟨fun ⟨entry', hentry', howner', hkey'⟩ => absurd ?_ hmine, fun ⟨entry', hnone, _⟩ => by cases hnone⟩
        obtain rfl := Option.some.inj (hentry.symm.trans hentry')
        exact ⟨howner', hkey'⟩
      · rfl

theorem Operations.Keyed.evictLoop (h : operations.Keyed) (excess : ℕ) (kept order : List OperationId) :
    (operations.evictLoop excess kept order).Keyed := by
  induction order generalizing operations excess kept with
  | nil => exact h
  | cons first order ih =>
    unfold Operations.evictLoop
    split_ifs
    · exact ih (h.evict first) _ _
    · exact ih h _ _

theorem Operations.Keyed.evictFinished (h : operations.Keyed) (retained : ℕ) :
    (operations.evictFinished retained).Keyed := by
  unfold Operations.evictFinished
  dsimp only
  split_ifs
  · exact h
  · exact h.evictLoop _ _ _

theorem Operations.Keyed.add (h : operations.Keyed) (hnone : operations.entryOf (operations.nextId + 1) = none)
    {owner : Principal} {receiver : ReceiverId} {submission : OperationSubmission} {status : OperationStatus}
    (hfree : ∀ key, submission.idempotencyKey = some key → operations.keys.lookup (owner, key) = none) :
    (operations.add owner receiver submission status).1.Keyed := by
  obtain ⟨entry, hentry, howner, hkey⟩ : ∃ entry : Entry,
      (operations.add owner receiver submission status).1.entryOf (operations.nextId + 1) = some entry ∧
        entry.owner = owner ∧ entry.key = submission.idempotencyKey := ⟨_, AList.lookup_insert _, rfl, rfl⟩
  have hkeys : (operations.add owner receiver submission status).1.keys =
      submission.idempotencyKey.elim operations.keys fun key =>
        AList.insert (owner, key) (operations.nextId + 1) operations.keys := rfl
  intro owner' key' other
  by_cases hmine : owner' = owner ∧ submission.idempotencyKey = some key'
  · obtain ⟨rfl, hsubmitted⟩ := hmine
    rw [hkeys, hsubmitted, Option.elim_some, AList.lookup_insert]
    refine ⟨fun heq => ?_, fun ⟨entry', hentry', howner', hkey'⟩ => ?_⟩
    · obtain rfl := Option.some.inj heq
      exact ⟨entry, hentry, howner, hkey.trans hsubmitted⟩
    · by_cases heq : other = operations.nextId + 1
      · rw [heq]
      · rw [Operations.entryOf_add_of_ne heq] at hentry'
        have hold := (h owner' key' other).mpr ⟨entry', hentry', howner', hkey'⟩
        rw [hfree key' hsubmitted] at hold
        cases hold
  · have hlookup : (operations.add owner receiver submission status).1.keys.lookup (owner', key') =
        operations.keys.lookup (owner', key') := by
      rw [hkeys]
      cases hsubmitted : submission.idempotencyKey with
      | none => rfl
      | some key =>
        refine AList.lookup_insert_ne fun heq => hmine ?_
        obtain ⟨rfl, rfl⟩ := Prod.mk.inj heq
        exact ⟨rfl, hsubmitted⟩
    rw [hlookup, h owner' key' other]
    by_cases heq : other = operations.nextId + 1
    · subst heq
      rw [hnone, hentry]
      refine ⟨fun ⟨entry', hgone, _⟩ => (by cases hgone), fun ⟨entry', hsome, howner', hkey'⟩ => absurd ?_ hmine⟩
      obtain rfl := Option.some.inj hsome
      exact ⟨howner'.symm.trans howner, hkey.symm.trans hkey'⟩
    · rw [Operations.entryOf_add_of_ne heq]

theorem Operations.Ordered.evictFinished (h : operations.Ordered) (retained : ℕ) :
    (operations.evictFinished retained).Ordered := by
  obtain ⟨hnext, hentries⟩ := operations.evictFinished_spec retained
  intro id entry hentry
  rcases hentries id with hsame | ⟨hgone, -⟩
  · rw [hnext]
    exact h id entry (hsame ▸ hentry)
  · rw [hgone] at hentry
    cases hentry

/-- A key that no retained operation was made with stays free when operations are dropped. -/
theorem Operations.Keyed.free_evictFinished (h : operations.Keyed) {owner : Principal} {key : IdempotencyKey}
    (hfree : operations.keys.lookup (owner, key) = none) :
    (operations.evictFinished retained).keys.lookup (owner, key) = none := by
  cases hlookup : (operations.evictFinished retained).keys.lookup (owner, key) with
  | none => rfl
  | some id =>
    obtain ⟨entry, hentry, howner, hkey⟩ := (h.evictFinished retained owner key id).mp hlookup
    rcases (operations.evictFinished_spec retained).2 id with hsame | ⟨hgone, -⟩
    · have hold := (h owner key id).mpr ⟨entry, hsame ▸ hentry, howner, hkey⟩
      rw [hfree] at hold
      cases hold
    · rw [hgone] at hentry
      cases hentry

/-- The operation that a registered key stands for. -/
theorem Operations.Keyed.keyed? (h : operations.Keyed) {owner : Principal} {key : IdempotencyKey} {entry : Entry}
    (hentry : operations.entryOf id = some entry) (howner : entry.owner = owner) (hkey : entry.key = some key) :
    operations.keyed? owner (some key) = some entry.snapshot := by
  have hlookup := (h owner key id).mpr ⟨entry, hentry, howner, hkey⟩
  simp [Operations.keyed?, hlookup, hentry]

theorem Operations.Keyed.lookup_of_keyed? (h : operations.Keyed) {owner : Principal} {key : IdempotencyKey}
    (hnone : operations.keyed? owner (some key) = none) : operations.keys.lookup (owner, key) = none := by
  cases hlookup : operations.keys.lookup (owner, key) with
  | none => rfl
  | some id =>
    obtain ⟨entry, hentry, howner, hkey⟩ := (h owner key id).mp hlookup
    rw [h.keyed? hentry howner hkey] at hnone
    cases hnone

theorem Operations.Keyed.exists_of_keyed? (h : operations.Keyed) {owner : Principal} {key : IdempotencyKey}
    {snapshot : OperationSnapshot} (hsome : operations.keyed? owner (some key) = some snapshot) :
    ∃ id entry, operations.entryOf id = some entry ∧ entry.owner = owner ∧ entry.key = some key ∧
      entry.snapshot = snapshot := by
  cases hlookup : operations.keys.lookup (owner, key) with
  | none => simp [Operations.keyed?, hlookup] at hsome
  | some id =>
    obtain ⟨entry, hentry, howner, hkey⟩ := (h owner key id).mp hlookup
    rw [h.keyed? hentry howner hkey] at hsome
    exact ⟨id, entry, hentry, howner, hkey, Option.some.inj hsome⟩

/-- A request is new when the table is open and nothing retained answers it. -/
theorem retried_eq_none {owner : Principal} {receiver : ReceiverId} {submission : OperationSubmission}
    (h : operations.retried owner receiver submission = .ok none) :
    operations.closed = false ∧ operations.keyed? owner submission.idempotencyKey = none ∧
      operations.identical? owner receiver submission.intent = none := by
  unfold Operations.retried at h
  split_ifs at h with hclosed
  split at h
  · split_ifs at h
    cases h
  · rename_i hkeyed
    exact ⟨Bool.eq_false_iff.mpr hclosed, hkeyed, Except.ok.inj h⟩

/-- The key of a request that is new is free. -/
theorem Operations.Keyed.free_of_retried (h : operations.Keyed) {owner : Principal} {receiver : ReceiverId}
    {submission : OperationSubmission} (hretried : operations.retried owner receiver submission = .ok none)
    {key : IdempotencyKey} (hkey : submission.idempotencyKey = some key) :
    (operations.evictFinished retained).keys.lookup (owner, key) = none := by
  obtain ⟨-, hkeyed, -⟩ := retried_eq_none hretried
  rw [hkey] at hkeyed
  exact h.free_evictFinished (h.lookup_of_keyed? hkeyed)

theorem Operations.Keyed.step (h : operations.Keyed) (htidy : operations.Tidy) {a : TableAction}
    (hstep : operations.step limits retained a = some operations') : operations'.Keyed := by
  cases tableMove_of_step hstep with
  | same => exact h
  | moved a id change moved ha hmoved => exact h.transition hmoved
  | added owner receiver submission writes now hretried =>
    exact (h.evictFinished retained).add (htidy.ordered.evictFinished retained).entryOf_next
      fun _ => h.free_of_retried hretried
  | closed => exact h

theorem keyed_of_reachable (h : (table limits retained).Reachable operations) : operations.Keyed := by
  refine Machine.Reachable.invariant (I := Operations.Keyed) (fun operations hinit => ?_)
    (fun _ _ _ hreached hi hstep => hi.step (tidy_of_reachable hreached) hstep) h
  obtain rfl : operations = {} := hinit
  intro owner key id
  exact ⟨fun hlookup => (by cases hlookup), fun ⟨entry, hentry, _⟩ => by cases hentry⟩

end Keys

/-! ### Requests that come back -/

def Admission.snapshot : Admission → OperationSnapshot
  | .new snapshot | .existing snapshot => snapshot

/-- As long as the table is open and the operation retained, the key is answered with it: a request for the same
gets it back, any other is an invalid request, and no operation is made. -/
def Honours (limits : AgentLimits) (retained : ℕ) (operations : Operations) (owner : Principal)
    (key : IdempotencyKey) (receiver : ReceiverId) (intent : ReceiverIntent) (id : OperationId) : Prop :=
  ∀ acts later, (table limits retained).exec operations acts = some later → later.closed = false →
    later.entryOf id ≠ none → ∀ receiver' submission writes now, submission.idempotencyKey = some key →
      (later.submit limits retained owner receiver' submission writes now).1 = later ∧
        ((receiver' = receiver ∧ submission.intent = intent → ∃ snapshot, snapshot.id = id ∧
            (later.submit limits retained owner receiver' submission writes now).2 = .ok (.existing snapshot)) ∧
          (¬ (receiver' = receiver ∧ submission.intent = intent) → ∃ message,
            (later.submit limits retained owner receiver' submission writes now).2 = .error (.invalidRequest message)))

/-- The request has a key that is registered, or it is not one that is running already. -/
def Registers (operations : Operations) (owner : Principal) (receiver : ReceiverId)
    (submission : OperationSubmission) : Prop :=
  operations.keyed? owner submission.idempotencyKey ≠ none ∨
    operations.identical? owner receiver submission.intent = none

section Honours
variable {limits : AgentLimits} {retained : ℕ} {operations : Operations} {owner : Principal} {key : IdempotencyKey}
  {receiver : ReceiverId} {submission : OperationSubmission} {writes : Writes} {now : Instant} {id : OperationId}

/-- The answer to a key that is registered. -/
theorem submit_of_keyed {existing : OperationSnapshot} (hopen : operations.closed = false)
    (hkeyed : operations.keyed? owner submission.idempotencyKey = some existing) :
    operations.submit limits retained owner receiver submission writes now =
      (operations, if existing.receiver ≠ receiver ∨ existing.intent ≠ submission.intent then
        .error (.invalidRequest "the idempotency key was already used for a different request")
        else .ok (.existing existing)) := by
  have hretried : operations.retried owner receiver submission =
      if existing.receiver ≠ receiver ∨ existing.intent ≠ submission.intent then
        .error (.invalidRequest "the idempotency key was already used for a different request")
      else .ok (some existing) := by
    unfold Operations.retried
    rw [hopen, hkeyed]
    rfl
  unfold Operations.submit admitRequest
  rw [hretried]
  split_ifs <;> rfl

/-- A request whose key is not registered is not told that it is. -/
theorem submit_ne_invalidRequest (hopen : operations.closed = false)
    (hkeyed : operations.keyed? owner submission.idempotencyKey = none) (message : String) :
    (operations.submit limits retained owner receiver submission writes now).2 ≠ .error (.invalidRequest message) := by
  have hretried : operations.retried owner receiver submission =
      .ok (operations.identical? owner receiver submission.intent) := by
    unfold Operations.retried
    rw [hopen, hkeyed]
    rfl
  unfold Operations.submit admitRequest
  rw [hretried]
  cases operations.identical? owner receiver submission.intent with
  | some existing => simp
  | none =>
    dsimp only
    cases owner with
    | operator => simp [countNew]
    | agent label =>
      unfold countNew admitWrite chargeWrite
      dsimp only
      split_ifs <;> simp

/-- The request that is running already. -/
theorem identical?_eq_some {existing : OperationSnapshot} {intent : ReceiverIntent}
    (h : operations.identical? owner receiver intent = some existing) :
    ∃ id entry, operations.entryOf id = some entry ∧ entry.snapshot = existing ∧ entry.owner = owner ∧
      existing.receiver = receiver ∧ existing.intent = intent := by
  obtain ⟨⟨id, entry⟩, hfind, rfl⟩ := Option.map_eq_some_iff.mp h
  have hmem := AList.mem_lookup_iff.mpr (List.mem_of_find?_eq_some hfind)
  have hmatches := List.find?_some hfind
  simp only [Bool.and_eq_true, beq_iff_eq] at hmatches
  exact ⟨id, entry, hmem, rfl, hmatches.1.1.1, hmatches.1.2, hmatches.2⟩

/-- A key that is registered is honoured from then on. -/
theorem honours_of_entry (h : (table limits retained).Reachable operations) {entry : Entry}
    (hentry : operations.entryOf id = some entry) (howner : entry.owner = owner) (hkey : entry.key = some key) :
    Honours limits retained operations owner key entry.snapshot.receiver entry.snapshot.intent id := by
  intro acts later hexec hopen hretained receiver' submission writes now hsubmitted
  obtain ⟨hid, hown⟩ := (tidy_of_reachable h).ordered id entry hentry
  obtain ⟨entry', hentry'⟩ := Option.ne_none_iff_exists'.mp hretained
  obtain ⟨old, hold, hsame, -⟩ := remains_of_exec (tidy_of_reachable h) hid hexec entry' hentry'
  obtain rfl := Option.some.inj (hentry.symm.trans hold)
  have hkeyed := (keyed_of_reachable (h.exec hexec)).keyed? hentry' (hsame.owner.trans howner) (hsame.key.trans hkey)
  rw [← hsubmitted] at hkeyed
  rw [submit_of_keyed hopen hkeyed, hsame.receiver, hsame.intent]
  refine ⟨rfl, fun ⟨hreceiver, hintent⟩ => ⟨entry'.snapshot, hsame.id.trans hown, ?_⟩, fun hother => ⟨_, if_pos ?_⟩⟩
  · rw [if_neg (by simp [hreceiver, hintent])]
  · rw [not_and_or] at hother
    exact hother.imp (fun hne heq => hne heq.symm) fun hne heq => hne heq.symm

theorem submit_closed (h : operations.closed = true) :
    (operations.submit limits retained owner receiver submission writes now).2 =
      .error (.unavailable Operations.shutDownText) := by
  unfold Operations.submit admitRequest Operations.retried
  rw [h]
  rfl

/-- The answer of a request that is running already. -/
theorem submit_of_identical {existing : OperationSnapshot} (hopen : operations.closed = false)
    (hkeyed : operations.keyed? owner submission.idempotencyKey = none)
    (hidentical : operations.identical? owner receiver submission.intent = some existing) :
    operations.submit limits retained owner receiver submission writes now = (operations, .ok (.existing existing)) := by
  unfold Operations.submit admitRequest Operations.retried
  rw [hopen, hkeyed, hidentical]
  rfl

theorem exists_intent_ne (intent : ReceiverIntent) : ∃ other, other ≠ intent := by
  by_cases h : intent = .mute .on
  · exact ⟨.mute .off, by rw [h]; decide⟩
  · exact ⟨.mute .on, Ne.symm h⟩

/-- **Idempotency keys.** An operation that a request with a key was answered with is the answer to the key from
then on if and only if the request has a key that is registered or is not one that is running already. -/
theorem honours_iff_registers (limits : AgentLimits) (retained : ℕ) (operations : Operations)
    (h : (table limits retained).Reachable operations) (owner : Principal) (receiver : ReceiverId)
    (submission : OperationSubmission) (key : IdempotencyKey) (hkey : submission.idempotencyKey = some key)
    (writes : Writes) (now : Instant) (admission : Admission)
    (hanswer : (operations.submit limits retained owner receiver submission writes now).2 = .ok admission) :
    Honours limits retained (operations.submit limits retained owner receiver submission writes now).1 owner key
      receiver submission.intent admission.snapshot.id ↔ Registers operations owner receiver submission := by
  have htidy := tidy_of_reachable h
  have hopen : operations.closed = false := by
    by_contra hclosed
    rw [submit_closed (by simpa using hclosed)] at hanswer
    cases hanswer
  constructor
  · intro hhonours
    by_contra hnot
    obtain ⟨hkeyed, hrunning⟩ := not_or.mp hnot
    rw [not_ne_iff] at hkeyed
    obtain ⟨existing, hidentical⟩ := Option.ne_none_iff_exists'.mp hrunning
    rw [submit_of_identical hopen hkeyed hidentical] at hanswer hhonours
    obtain rfl := Except.ok.inj hanswer
    obtain ⟨id, entry, hentry, rfl, -, -, -⟩ := identical?_eq_some hidentical
    have hown := (htidy.ordered id entry hentry).2
    obtain ⟨other, hother⟩ := exists_intent_ne submission.intent
    -- Another request with the key is not told that the key was used.
    obtain ⟨-, -, hinvalid⟩ := hhonours [] operations rfl hopen (by
      show operations.entryOf entry.snapshot.id ≠ none
      rw [hown, hentry]
      simp) receiver { intent := other, idempotencyKey := some key } writes now rfl
    obtain ⟨message, hmessage⟩ := hinvalid fun hsame => hother hsame.2
    exact submit_ne_invalidRequest hopen (hkey ▸ hkeyed) message hmessage
  · intro hregisters
    cases hkeyed : operations.keyed? owner submission.idempotencyKey with
    | some existing =>
      rw [submit_of_keyed hopen hkeyed] at hanswer ⊢
      split_ifs at hanswer with hdiffers
      obtain rfl := Except.ok.inj hanswer
      obtain ⟨hreceiver, hintent⟩ := not_or.mp hdiffers
      rw [not_ne_iff] at hreceiver hintent
      obtain ⟨id, entry, hentry, howner, hentryKey, rfl⟩ :=
        (keyed_of_reachable h).exists_of_keyed? (hkey ▸ hkeyed)
      rw [← hreceiver, ← hintent]
      show Honours _ _ _ _ _ _ _ entry.snapshot.id
      rw [(htidy.ordered id entry hentry).2]
      exact honours_of_entry h hentry howner hentryKey
    | none =>
      have hidentical := hregisters.resolve_left fun hne => hne hkeyed
      rcases table_submit_cases limits retained operations owner receiver submission writes now with
        ⟨-, hexisting⟩ | ⟨-, hadd, hnew⟩
      · obtain ⟨snapshot, -, hretried⟩ := hexisting admission hanswer
        unfold Operations.retried at hretried
        rw [hopen, hkeyed, hidentical] at hretried
        cases hretried
      · obtain rfl := Except.ok.inj (hanswer.symm.trans hnew)
        have hreached : (table limits retained).Reachable
            (operations.submit limits retained owner receiver submission writes now).1 :=
          .step (a := .submit owner receiver submission writes now) h trivial rfl
        obtain ⟨entry, hentry, howner, hentryKey, hsnapshot⟩ : ∃ entry : Entry,
            (operations.submit limits retained owner receiver submission writes now).1.entryOf
                ((operations.evictFinished retained).nextId + 1) = some entry ∧
              entry.owner = owner ∧ entry.key = submission.idempotencyKey ∧
                entry.snapshot = ((operations.evictFinished retained).add owner receiver submission
                  (Operations.firstStatus owner)).2 := by
          rw [hadd]
          exact ⟨_, AList.lookup_insert _, rfl, rfl, rfl⟩
        have hhonours := honours_of_entry hreached hentry howner (hentryKey.trans hkey)
        rw [hsnapshot] at hhonours
        exact hhonours

end Honours

/-! ### A key that is presented twice -/

def avr : ReceiverId := ⟨"avr", by decide⟩

def retryKey : IdempotencyKey := ⟨"retry-1", by decide⟩

def muteOn : OperationSubmission := { intent := .mute .on }

def muteOnAgain : OperationSubmission := { muteOn with idempotencyKey := some retryKey }

/-- A request without a key, which is running. -/
def muting : Operations := (({} : Operations).submit {} 100 .operator avr muteOn ∅ 0).1

theorem reachable_muting : (table {} 100).Reachable muting :=
  .step (a := .submit .operator avr muteOn ∅ 0) (.init rfl) trivial rfl

/-- A key on the first request is honoured. -/
theorem honours_firstRequest :
    Honours {} 100 (({} : Operations).submit {} 100 .operator avr muteOnAgain ∅ 0).1 .operator retryKey avr (.mute .on) 1 :=
  (honours_iff_registers {} 100 {} (.init rfl) .operator avr muteOnAgain retryKey rfl ∅ 0
    (.new { id := 1, receiver := avr, intent := .mute .on, status := .allowed }) rfl).mpr (.inr rfl)

/-- A request that is repeated with a key is answered with the one that is running. Once that has ended, the key makes
another operation. -/
theorem not_honours_runningRequest : ∃ limits retained operations owner receiver submission key writes now admission,
    (table limits retained).Reachable operations ∧ submission.idempotencyKey = some key ∧
      (operations.submit limits retained owner receiver submission writes now).2 = .ok admission ∧
        ¬ Honours limits retained (operations.submit limits retained owner receiver submission writes now).1 owner key
          receiver submission.intent admission.snapshot.id := by
  refine ⟨{}, 100, muting, .operator, avr, muteOnAgain, retryKey, ∅, 0,
    .existing { id := 1, receiver := avr, intent := .mute .on, status := .allowed }, reachable_muting, rfl, by decide, ?_⟩
  intro hhonours
  obtain ⟨hsame, -⟩ := hhonours [.finish 1 { status := .completed }] _ rfl (by decide) (by decide) avr muteOnAgain ∅ 0 rfl
  exact absurd (congrArg Operations.nextId hsame) (by decide)

end DenonAvr.Application
