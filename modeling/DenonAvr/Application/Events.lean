import DenonAvr.Application.Lifecycle
import DenonAvr.Library.Broadcast

/-!
# Operation events

The table of operations, the publication of its changes and the readers of their events. A change is made under the
table's lock, and whoever made it publishes it after the lock is released, so two changes of one operation by different
tasks may be published in either order.

The readers are told of every operation in the order of its changes in every run in which no change is made to an
operation whose last one is still to be published, and none is still to be published when the channel is closed
(`events_in_order`). Without that condition an operation that was cancelled is shown as running
(`not_events_in_order`).
-/

namespace DenonAvr.Application

open Domain Library

/-! ### Changes and publications -/

/-- What is sent: whose operation, and what it is now. -/
abbrev Item := Principal × OperationSnapshot

/-- The operation that a call may change. -/
def TableAction.target (operations : Operations) : TableAction → Option OperationId
  | .submit .. => some (operations.nextId + 1)
  | .allow id | .beginSession id | .finish id _ | .cancel _ id | .dropTask id => some id
  | .close => none

/-- The operation whose task makes the call. -/
def TableAction.task? : TableAction → Option OperationId
  | .allow id | .beginSession id | .finish id _ | .dropTask id => some id
  | _ => none

def TableAction.isSubmit : TableAction → Bool
  | .submit .. => true
  | _ => false

def TableAction.isCancel : TableAction → Bool
  | .cancel .. => true
  | _ => false

/-- The operation as the call left it, if it changed it. -/
def changedEntry (limits : AgentLimits) (retained : ℕ) (operations : Operations) (action : TableAction) : Option Entry :=
  (operations.step limits retained action).bind fun operations' =>
    (action.target operations).bind fun id =>
      (operations'.entryOf id).filter fun entry => operations.entryOf id ≠ some entry

/-- A change that is still to be published. -/
structure Publication where
  item : Item
  /-- By the task of the operation, or by the request that is to start it. -/
  ofTask : Bool
deriving DecidableEq

/-- An `EventStream`. -/
structure Subscriber where
  viewer : Principal
  reader : Reader Item
deriving DecidableEq

/-- All of them for the Operator, the viewer's own otherwise. -/
def visible (viewer : Principal) (item : Item) : Bool := viewer = .operator || item.1 = viewer

structure EventRun where
  operations : Operations
  /-- `in_flight`: the operations whose task has not ended. -/
  inFlight : List OperationId
  pending : List Publication
  /-- The channel is there. -/
  opened : Bool
  sent : List Item
  /-- Every change, in order. -/
  history : List Item
  subscribers : List Subscriber

inductive EventAction
  | change (action : TableAction)
  | publish (publication : ℕ)
  | endTask (id : OperationId)
  /-- The end of `shutdown`. -/
  | take
  | subscribe (viewer : Principal)
  | read (subscriber : ℕ)
  | lag (subscriber count : ℕ)

def ofId (id : OperationId) (items : List Item) : List Item := items.filter fun item => item.2.id = id

/-- A task makes one step after the other: it has published what it changed before. -/
def EventRun.ready (run : EventRun) (id : OperationId) : Bool :=
  decide (id ∈ run.inFlight) && !run.pending.any fun publication => publication.ofTask && publication.item.2.id = id

def EventRun.change (run : EventRun) (action : TableAction) (operations : Operations) (entry : Entry) : EventRun :=
  { run with
    operations
    inFlight := if action.isSubmit then run.inFlight ++ [entry.snapshot.id] else run.inFlight
    pending := run.pending ++ [⟨(entry.owner, entry.snapshot), !action.isCancel⟩]
    history := run.history ++ [(entry.owner, entry.snapshot)] }

def updateSubscriber (run : EventRun) (r : ℕ) (step : Subscriber → Option (Reader Item)) : Option EventRun :=
  run.subscribers[r]?.bind fun subscriber => (step subscriber).map fun reader =>
    { run with subscribers := run.subscribers.set r { subscriber with reader } }

/-- The service from its start, with any callers and readers. -/
def events (limits : AgentLimits) (retained : ℕ) : Machine EventRun EventAction where
  init := fun run => run = ⟨{}, [], [], true, [], [], []⟩
  step := fun run action =>
    match action with
    | .change action =>
      if action.task?.all run.ready then
        (run.operations.step limits retained action).map fun operations =>
          match changedEntry limits retained run.operations action with
          | some entry => run.change action operations entry
          | none => { run with operations }
      else none
    | .publish k =>
      run.pending[k]?.map fun publication =>
        { run with
          pending := run.pending.eraseIdx k
          sent := if run.opened then run.sent ++ [publication.item] else run.sent }
    | .endTask id =>
      if run.ready id ∧ (run.operations.entryOf id).all (fun entry => entry.snapshot.status.isTerminal) then
        some { run with inFlight := run.inFlight.erase id }
      else none
    | .take =>
      if run.operations.closed ∧ run.inFlight = [] then some { run with opened := false } else none
    | .subscribe viewer =>
      if run.opened then
        some { run with subscribers := run.subscribers ++ [⟨viewer, .subscribe run.sent⟩] }
      else none
    | .read r => updateSubscriber run r fun subscriber => subscriber.reader.read (visible subscriber.viewer) run.sent
    | .lag r count => updateSubscriber run r fun subscriber => subscriber.reader.lag run.sent count

/-- A change is made to an operation whose last change is still to be published, or the channel is closed while one is. -/
def overtaken (limits : AgentLimits) (retained : ℕ) (run : EventRun) : EventAction → Bool
  | .change action => (changedEntry limits retained run.operations action).any fun entry =>
      run.pending.any fun publication => publication.item.2.id = entry.snapshot.id
  | .take => !run.pending.isEmpty
  | _ => false

/-! ### What a call changes -/

section Call
variable {limits : AgentLimits} {retained : ℕ} {operations operations' : Operations} {action : TableAction} {entry : Entry}
  {id : OperationId}

theorem nextId_of_step (h : operations.step limits retained action = some operations') (hsubmit : action.isSubmit = false) :
    operations'.nextId = operations.nextId := by
  cases tableMove_of_step h with
  | same => rfl
  | moved a id change moved ha hmoved => exact Operations.nextId_transition hmoved
  | added => cases hsubmit
  | closed => rfl

theorem closed_of_step (hclosed : operations.closed = true) (h : operations.step limits retained action = some operations') :
    operations'.closed = true := by
  cases tableMove_of_step h with
  | same => exact hclosed
  | moved a id change moved ha hmoved =>
    obtain ⟨_, _, -, -, rfl⟩ := Operations.transition_eq_some hmoved
    exact hclosed
  | added owner receiver submission writes now hretried =>
    unfold Operations.retried at hretried
    rw [if_pos hclosed] at hretried
    cases hretried
  | closed => rfl

theorem TableAction.Moves.target (h : action.Moves id) : action.target operations = some id := by
  cases h <;> rfl

/-- The operations that a call is not about stay, or they are dropped. -/
theorem entryOf_of_step_of_ne (h : operations.step limits retained action = some operations')
    (hne : action.target operations ≠ some id) : operations'.entryOf id = operations.entryOf id ∨ operations'.entryOf id = none := by
  cases tableMove_of_step h with
  | same => exact .inl rfl
  | moved a other change moved ha hmoved =>
    refine .inl (Operations.entryOf_transition_of_ne hmoved fun heq => hne ?_)
    rw [ha.target, heq]
  | added owner receiver submission writes now =>
    exact (entryOf_addEvicted_of_ne owner receiver submission (Operations.firstStatus owner)
      fun heq => hne (congrArg some heq.symm)).imp_right And.left
  | closed => exact .inl rfl

theorem changedEntry_eq_some (h : operations.step limits retained action = some operations') :
    changedEntry limits retained operations action = some entry ↔
      ∃ id, action.target operations = some id ∧ operations'.entryOf id = some entry ∧ operations.entryOf id ≠ some entry := by
  unfold changedEntry
  rw [h]
  simp [Option.bind_eq_some_iff, Option.filter_eq_some_iff]

/-- What a call does that changes an operation: it moves on one that is running, or makes a new one. -/
theorem changed_of_step (htidy : operations.Tidy) (h : operations.step limits retained action = some operations')
    (hchanged : changedEntry limits retained operations action = some entry) :
    operations'.entryOf entry.snapshot.id = some entry ∧ action.target operations = some entry.snapshot.id ∧
      ((action.isSubmit = false ∧ ∃ before, operations.entryOf entry.snapshot.id = some before ∧
          before.owner = entry.owner ∧ before.snapshot.status.isTerminal = false) ∨
        action.isSubmit = true ∧ operations.closed = false ∧ operations.nextId < entry.snapshot.id) := by
  obtain ⟨id, htarget, hafter, hbefore⟩ := (changedEntry_eq_some h).mp hchanged
  obtain ⟨-, rfl⟩ := (htidy.step h).ordered id entry hafter
  refine ⟨hafter, htarget, ?_⟩
  cases turn_of_step htidy.ordered h entry.snapshot.id with
  | same hsame => exact absurd (hsame.symm.trans hafter) hbefore
  | changed before snapshot hentry hafter' hchange =>
    obtain rfl := Option.some.inj (hafter'.symm.trans hafter)
    refine .inl ⟨?_, before, hentry, rfl, hchange.lifecycle.running⟩
    cases action with
    | submit owner receiver submission writes now =>
      obtain hid := Option.some.inj htarget
      rw [← hid, htidy.ordered.entryOf_next] at hentry
      cases hentry
    | _ => rfl
  | evicted before hentry hgone hended => cases hgone.symm.trans hafter
  | new other hid hnext hentry hafter' hown hstatus hdispatch =>
    have hsubmit : action.isSubmit = true := by
      by_contra hsubmit
      have hsame := nextId_of_step h (eq_false_of_ne_true hsubmit)
      rw [hnext, hid] at hsame
      exact Nat.succ_ne_self _ hsame
    refine .inr ⟨hsubmit, ?_, by rw [hid]; exact Nat.lt_succ_self _⟩
    cases action with
    | submit owner receiver submission writes now =>
      by_contra hclosed
      obtain rfl := Option.some.inj h
      rcases table_submit_cases limits retained operations owner receiver submission writes now with ⟨hsame, -⟩ | ⟨hnone, -⟩
      · rw [hsame] at hafter
        exact hbefore hafter
      · unfold Operations.retried at hnone
        rw [if_pos (eq_true_of_ne_false hclosed)] at hnone
        cases hnone
    | _ => cases hsubmit

/-- The operations that a call does not change stay, or they are dropped. -/
theorem entryOf_of_step (h : operations.step limits retained action = some operations')
    (hchanged : ∀ entry, changedEntry limits retained operations action = some entry → action.target operations ≠ some id) :
    operations'.entryOf id = operations.entryOf id ∨ operations'.entryOf id = none := by
  by_cases htarget : action.target operations = some id
  · cases hafter : operations'.entryOf id with
    | none => exact .inr rfl
    | some entry =>
      by_cases hbefore : operations.entryOf id = some entry
      · exact .inl hbefore.symm
      · exact absurd htarget (hchanged entry ((changedEntry_eq_some h).mpr ⟨id, htarget, hafter, hbefore⟩))
  · exact entryOf_of_step_of_ne h htarget

end Call

/-! ### Runs -/

/-- What is still to be published of an operation. -/
def EventRun.unpublished (run : EventRun) (id : OperationId) : List Item := ofId id (run.pending.map Publication.item)

/-- What holds while no change overtakes another one. -/
structure Delivered (run : EventRun) : Prop where
  tidy : run.operations.Tidy
  current : ∀ id entry, run.operations.entryOf id = some entry →
    (ofId id run.history).getLast? = some (entry.owner, entry.snapshot)
  fresh : ∀ id, run.operations.nextId < id → ofId id run.history = []
  /-- An operation ends with its last change. -/
  ended : ∀ id, ∀ item ∈ (ofId id run.history).dropLast, item.2.status.isTerminal = false
  owners : ∀ id, ∀ item ∈ ofId id run.history, ∀ other ∈ ofId id run.history, item.1 = other.1
  running : ∀ id entry, run.operations.entryOf id = some entry → entry.snapshot.status.isTerminal = false →
    id ∈ run.inFlight
  told : ∀ id, ofId id run.history = ofId id run.sent ++ run.unpublished id
  single : ∀ id, (run.unpublished id).length ≤ 1
  shut : run.opened = false → run.pending = [] ∧ run.inFlight = [] ∧ run.operations.closed = true
  readers : ∀ subscriber ∈ run.subscribers, subscriber.reader.Tracks (visible subscriber.viewer) run.sent

section Runs
variable {limits : AgentLimits} {retained : ℕ} {run run' : EventRun} {action : TableAction} {operations : Operations}
  {entry : Entry} {id : OperationId} {items : List Item} {item : Item}

theorem ofId_append (items more : List Item) : ofId id (items ++ more) = ofId id items ++ ofId id more :=
  List.filter_append ..

theorem ofId_singleton (h : item.2.id = id) : ofId id [item] = [item] := List.filter_cons_of_pos (by simpa using h)

theorem ofId_singleton_of_ne (h : item.2.id ≠ id) : ofId id [item] = [] := List.filter_cons_of_neg (by simpa using h)

theorem mem_ofId : item ∈ ofId id items ↔ item ∈ items ∧ item.2.id = id := by
  unfold ofId
  rw [List.mem_filter, decide_eq_true_iff]

theorem Delivered.keep (h : Delivered run) (hstep : run.operations.step limits retained action = some operations)
    (hchanged : changedEntry limits retained run.operations action = none) : Delivered { run with operations } := by
  have hkept : ∀ id, operations.entryOf id = run.operations.entryOf id ∨ operations.entryOf id = none := fun id =>
    entryOf_of_step hstep fun entry hentry => by
      rw [hchanged] at hentry
      cases hentry
  have hbefore : ∀ {id entry}, operations.entryOf id = some entry → run.operations.entryOf id = some entry := by
    intro id entry hentry
    obtain hsame | hgone := hkept id
    · exact hsame.symm.trans hentry
    · cases hgone.symm.trans hentry
  exact { h with
    tidy := h.tidy.step hstep
    current := fun id entry hentry => h.current id entry (hbefore hentry)
    fresh := fun id hid => h.fresh id ((nextId_le_of_step hstep).trans_lt hid)
    running := fun id entry hentry => h.running id entry (hbefore hentry)
    shut := fun hshut => by
      obtain ⟨hpending, hidle, hclosed⟩ := h.shut hshut
      exact ⟨hpending, hidle, closed_of_step hclosed hstep⟩ }

/-- **A change** of an operation whose earlier changes are published. -/
theorem Delivered.change (h : Delivered run) (hstep : run.operations.step limits retained action = some operations)
    (hchanged : changedEntry limits retained run.operations action = some entry)
    (hpublished : ∀ publication ∈ run.pending, publication.item.2.id ≠ entry.snapshot.id) :
    Delivered (run.change action operations entry) := by
  obtain ⟨hafter, htarget, hkind⟩ := changed_of_step h.tidy hstep hchanged
  have hself : ∀ items, ofId entry.snapshot.id (items ++ [(entry.owner, entry.snapshot)]) =
      ofId entry.snapshot.id items ++ [(entry.owner, entry.snapshot)] := fun items => by
    rw [ofId_append]
    exact congrArg _ (ofId_singleton rfl)
  have hother : ∀ {id}, id ≠ entry.snapshot.id → ∀ items, ofId id (items ++ [(entry.owner, entry.snapshot)]) = ofId id items := by
    intro id hne items
    rw [ofId_append, ofId_singleton_of_ne hne.symm, List.append_nil]
  have hkept : ∀ {id other}, id ≠ entry.snapshot.id → operations.entryOf id = some other →
      run.operations.entryOf id = some other := by
    intro id other hne hentry
    obtain hsame | hgone := entryOf_of_step_of_ne hstep fun heq => hne (Option.some.inj (heq.symm.trans htarget))
    · exact hsame.symm.trans hentry
    · cases hgone.symm.trans hentry
  -- what was told of the operation before
  have hbefore : ∀ item ∈ ofId entry.snapshot.id run.history, item.1 = entry.owner ∧ item.2.status.isTerminal = false := by
    intro item hitem
    obtain ⟨-, before, hentry, howner, hrunning⟩ | ⟨-, -, hnew⟩ := hkind
    · have hlast := h.current _ before hentry
      refine ⟨(h.owners _ item hitem _ (List.mem_of_getLast? hlast)).trans howner, ?_⟩
      obtain ⟨rest, hsplit⟩ := List.getLast?_eq_some_iff.mp hlast
      have hended := h.ended entry.snapshot.id
      rw [hsplit] at hitem hended
      rw [List.dropLast_concat] at hended
      obtain hitem | hitem := List.mem_append.mp hitem
      · exact hended item hitem
      · obtain rfl := List.mem_singleton.mp hitem
        exact hrunning
    · rw [h.fresh _ hnew] at hitem
      cases hitem
  have hunpublished : run.unpublished entry.snapshot.id = [] := by
    refine List.filter_eq_nil_iff.mpr fun item hitem => ?_
    obtain ⟨publication, hpublication, rfl⟩ := List.mem_map.mp hitem
    simpa using hpublished publication hpublication
  have hpending : ∀ id, (run.change action operations entry).unpublished id =
      ofId id (run.pending.map Publication.item ++ [(entry.owner, entry.snapshot)]) := fun id => by
    unfold EventRun.unpublished EventRun.change
    rw [List.map_append]
    rfl
  exact {
    tidy := h.tidy.step hstep
    current := fun id other hentry => by
      by_cases hid : id = entry.snapshot.id
      · subst hid
        obtain rfl := Option.some.inj (hafter.symm.trans hentry)
        show (ofId _ (run.history ++ _)).getLast? = _
        rw [hself, List.getLast?_concat]
      · show (ofId _ (run.history ++ _)).getLast? = _
        rw [hother hid]
        exact h.current id other (hkept hid hentry)
    fresh := fun id hid => by
      have hid : operations.nextId < id := hid
      have hne : id ≠ entry.snapshot.id := by
        rintro rfl
        exact absurd ((h.tidy.step hstep).ordered _ entry hafter).1 (not_le_of_gt hid)
      show ofId _ (run.history ++ _) = _
      rw [hother hne]
      exact h.fresh id ((nextId_le_of_step hstep).trans_lt hid)
    ended := fun id => by
      show ∀ item ∈ (ofId id (run.history ++ _)).dropLast, _
      by_cases hid : id = entry.snapshot.id
      · subst hid
        rw [hself, List.dropLast_concat]
        exact fun item hitem => (hbefore item hitem).2
      · rw [hother hid]
        exact h.ended id
    owners := fun id => by
      show ∀ item ∈ ofId id (run.history ++ _), ∀ other ∈ ofId id (run.history ++ _), _
      by_cases hid : id = entry.snapshot.id
      · subst hid
        rw [hself]
        have howner : ∀ item ∈ ofId entry.snapshot.id run.history ++ [(entry.owner, entry.snapshot)],
            item.1 = entry.owner := by
          intro item hitem
          obtain hitem | hitem := List.mem_append.mp hitem
          · exact (hbefore item hitem).1
          · obtain rfl := List.mem_singleton.mp hitem
            rfl
        exact fun item hitem other hother => (howner item hitem).trans (howner other hother).symm
      · rw [hother hid]
        exact h.owners id
    running := fun id other hentry hrunning => by
      by_cases hid : id = entry.snapshot.id
      · subst hid
        obtain ⟨hsubmit, before, hentry, -, hbefore⟩ | ⟨hsubmit, -⟩ := hkind
        · show _ ∈ if action.isSubmit then _ else run.inFlight
          rw [if_neg (by rw [hsubmit]; exact Bool.false_ne_true)]
          exact h.running _ before hentry hbefore
        · show _ ∈ if action.isSubmit then _ else run.inFlight
          rw [if_pos hsubmit]
          exact List.mem_append_right _ (List.mem_singleton_self _)
      · have hold := h.running id other (hkept hid hentry) hrunning
        show id ∈ if action.isSubmit then _ else run.inFlight
        split_ifs
        · exact List.mem_append_left _ hold
        · exact hold
    told := fun id => by
      rw [hpending]
      show ofId id (run.history ++ _) = ofId id run.sent ++ _
      rw [ofId_append, ofId_append, h.told id, List.append_assoc]
      rfl
    single := fun id => by
      rw [hpending]
      by_cases hid : id = entry.snapshot.id
      · subst hid
        rw [hself]
        show (run.unpublished _ ++ _).length ≤ 1
        rw [hunpublished]
        rfl
      · rw [hother hid]
        exact h.single id
    shut := fun hshut => by
      obtain ⟨-, hidle, hclosed⟩ := h.shut hshut
      obtain ⟨-, before, hentry, -, hrunning⟩ | ⟨-, hopen, -⟩ := hkind
      · have hmem := h.running _ before hentry hrunning
        rw [hidle] at hmem
        cases hmem
      · cases hopen.symm.trans hclosed
    readers := h.readers }

theorem Delivered.publish (h : Delivered run) {k : ℕ} {publication : Publication} (hk : run.pending[k]? = some publication) :
    Delivered { run with
      pending := run.pending.eraseIdx k
      sent := if run.opened then run.sent ++ [publication.item] else run.sent } := by
  have hopened : run.opened = true := by
    by_contra hshut
    obtain ⟨hpending, -⟩ := h.shut (eq_false_of_ne_true hshut)
    rw [hpending] at hk
    cases hk
  obtain ⟨hlt, hget⟩ := List.getElem?_eq_some_iff.mp hk
  have hsplit : run.pending = run.pending.take k ++ publication :: run.pending.drop (k + 1) := by
    rw [← hget, ← List.drop_eq_getElem_cons hlt, List.take_append_drop]
  have hunpublished : ∀ id, run.unpublished id =
      ofId id ((run.pending.take k).map Publication.item) ++ (ofId id [publication.item] ++
        ofId id ((run.pending.drop (k + 1)).map Publication.item)) := fun id => by
    unfold EventRun.unpublished
    conv_lhs => rw [hsplit]
    rw [List.map_append, List.map_cons, ofId_append, ← List.singleton_append, ofId_append]
  have hleft : ∀ id, ofId id ((run.pending.eraseIdx k).map Publication.item) =
      ofId id ((run.pending.take k).map Publication.item) ++ ofId id ((run.pending.drop (k + 1)).map Publication.item) :=
    fun id => by rw [List.eraseIdx_eq_take_drop_succ, List.map_append, ofId_append]
  -- nothing else of the operation is pending
  have honly : ∀ id, publication.item.2.id = id →
      ofId id ((run.pending.take k).map Publication.item) = [] ∧
        ofId id ((run.pending.drop (k + 1)).map Publication.item) = [] := by
    intro id hid
    have hsingle := h.single id
    rw [hunpublished, ofId_singleton hid, List.length_append, List.length_append, List.length_singleton] at hsingle
    exact ⟨List.length_eq_zero_iff.mp (by omega), List.length_eq_zero_iff.mp (by omega)⟩
  rw [if_pos hopened]
  exact { h with
    told := fun id => by
      show _ = ofId id (run.sent ++ [publication.item]) ++ ofId id ((run.pending.eraseIdx k).map Publication.item)
      rw [h.told id, hunpublished, hleft, ofId_append]
      by_cases hid : publication.item.2.id = id
      · obtain ⟨htake, hdrop⟩ := honly id hid
        rw [htake, hdrop, List.nil_append, List.append_nil, List.append_nil, List.append_nil]
      · rw [ofId_singleton_of_ne hid, List.nil_append, List.append_nil]
    single := fun id => by
      have hsingle := h.single id
      show (ofId id ((run.pending.eraseIdx k).map Publication.item)).length ≤ 1
      rw [hunpublished, List.length_append, List.length_append] at hsingle
      rw [hleft, List.length_append]
      omega
    shut := fun hshut => by cases hopened.symm.trans hshut
    readers := fun subscriber hsubscriber => (h.readers subscriber hsubscriber).concat [publication.item] }

theorem Delivered.update (h : Delivered run) {r : ℕ} {step : Subscriber → Option (Reader Item)}
    (hreader : ∀ subscriber reader, subscriber.reader.Tracks (visible subscriber.viewer) run.sent →
      step subscriber = some reader → reader.Tracks (visible subscriber.viewer) run.sent)
    (hstep : updateSubscriber run r step = some run') : Delivered run' := by
  obtain ⟨subscriber, hsubscriber, hmap⟩ := Option.bind_eq_some_iff.mp hstep
  obtain ⟨reader, hread, rfl⟩ := Option.map_eq_some_iff.mp hmap
  refine { h with readers := fun other hother => ?_ }
  obtain hother | rfl := List.mem_or_eq_of_mem_set hother
  · exact h.readers other hother
  · exact hreader subscriber reader (h.readers subscriber (List.mem_of_getElem? hsubscriber)) hread

theorem delivered_of_reachable
    (h : (events limits retained).ReachableBy (fun run action => overtaken limits retained run action = false) run) :
    Delivered run := by
  refine h.invariant ?_ ?_
  · rintro _ rfl
    exact {
      tidy := tidy_of_reachable (.init (M := table limits retained) rfl)
      current := fun id entry hentry => by cases hentry
      fresh := fun _ _ => rfl
      ended := fun _ _ hitem => nomatch hitem
      owners := fun _ _ hitem => nomatch hitem
      running := fun id entry hentry => by cases hentry
      told := fun _ => rfl
      single := fun _ => Nat.zero_le _
      shut := nofun
      readers := nofun }
  · intro run action run' _ hovertaken h hstep
    cases action with
    | change action =>
      unfold events at hstep
      dsimp only at hstep
      split_ifs at hstep with hready
      obtain ⟨operations, hoperations, heq⟩ := Option.map_eq_some_iff.mp hstep
      cases hchanged : changedEntry limits retained run.operations action with
      | none =>
        rw [hchanged] at heq
        subst heq
        exact h.keep hoperations hchanged
      | some entry =>
        rw [hchanged] at heq
        subst heq
        refine h.change hoperations hchanged fun publication hpublication => ?_
        unfold overtaken at hovertaken
        dsimp only at hovertaken
        rw [hchanged, Option.any_some] at hovertaken
        simpa using List.any_eq_false.mp hovertaken publication hpublication
    | publish k =>
      obtain ⟨publication, hk, rfl⟩ := Option.map_eq_some_iff.mp hstep
      exact h.publish hk
    | endTask id =>
      unfold events at hstep
      dsimp only at hstep
      split_ifs at hstep with hended
      obtain rfl := Option.some.inj hstep
      refine { h with
        running := fun other entry hentry hrunning => ?_
        shut := fun hshut => ?_ }
      · have hne : other ≠ id := by
          rintro rfl
          have hterminal := hended.2
          rw [show run.operations.entryOf other = some entry from hentry, Option.all_some] at hterminal
          cases hrunning.symm.trans hterminal
        exact (List.mem_erase_of_ne hne).mpr (h.running other entry hentry hrunning)
      · obtain ⟨hpending, hidle, hclosed⟩ := h.shut hshut
        exact ⟨hpending, by show run.inFlight.erase id = []; rw [hidle]; rfl, hclosed⟩
    | take =>
      unfold events at hstep
      dsimp only at hstep
      split_ifs at hstep with hidle
      obtain rfl := Option.some.inj hstep
      refine { h with shut := fun _ => ⟨?_, hidle.2, hidle.1⟩ }
      simpa [overtaken] using hovertaken
    | subscribe viewer =>
      unfold events at hstep
      dsimp only at hstep
      split_ifs at hstep
      obtain rfl := Option.some.inj hstep
      refine { h with readers := fun subscriber hsubscriber => ?_ }
      obtain hsubscriber | hsubscriber := List.mem_append.mp hsubscriber
      · exact h.readers subscriber hsubscriber
      · obtain rfl := List.mem_singleton.mp hsubscriber
        exact Reader.tracks_subscribe
    | read r => exact h.update (fun _ _ htracks hread => htracks.read hread) hstep
    | lag r count => exact h.update (fun _ _ htracks hlag => htracks.lag hlag) hstep

/-- What a subscriber is told of one operation. -/
def Subscriber.about (subscriber : Subscriber) (id : OperationId) : List (Given Item) :=
  subscriber.reader.given.filter (Given.about fun item => item.2.id = id)

/-- The subscriber may see the operation. -/
def Subscriber.Sees (subscriber : Subscriber) (run : EventRun) (id : OperationId) : Prop :=
  ∃ item ∈ ofId id run.history, visible subscriber.viewer item = true

/-- A subscriber is told of an operation it may see in the order of its changes. -/
structure InOrder (run : EventRun) (subscriber : Subscriber) (id : OperationId) : Prop where
  order : ((subscriber.about id).filterMap Given.update?).Sublist (ofId id run.history)
  /-- The changes from before the subscription, those it covers, and those that are still to come. -/
  told : ofId id run.history = ofId id (run.sent.take subscriber.reader.start) ++
    ofId id (subscriber.reader.passed run.sent) ++
    (ofId id (run.sent.drop subscriber.reader.position) ++ run.unpublished id)
  complete : Covers (ofId id (subscriber.reader.passed run.sent)) (subscriber.about id)
  /-- Once everything is read, the end of an operation is the last that was told, or something is told to be missing
  there. -/
  last : subscriber.reader.position = run.sent.length → run.unpublished id = [] →
    ofId id (subscriber.reader.passed run.sent) ≠ [] → ∀ item ∈ ofId id run.history, item.2.status.isTerminal = true →
      (subscriber.about id).getLast? = some (.update item) ∨ (subscriber.about id).getLast? = some .missed

/-- **Operation events keep the order of the operation** in every run in which no change overtakes the publication of an
earlier one. -/
theorem events_in_order
    (h : (events limits retained).ReachableBy (fun run action => overtaken limits retained run action = false) run)
    {subscriber : Subscriber} (hsubscriber : subscriber ∈ run.subscribers) (hsees : subscriber.Sees run id) :
    InOrder run subscriber id := by
  have htold := delivered_of_reachable h
  have htracks := htold.readers subscriber hsubscriber
  -- who may see one change of an operation may see all of them
  have hvisible : ∀ item ∈ run.sent, item.2.id = id → visible subscriber.viewer item = true := by
    intro item hitem hid
    obtain ⟨seen, hseen, hvisible⟩ := hsees
    have hmem : item ∈ ofId id run.history := by
      rw [htold.told id]
      exact List.mem_append_left _ (mem_ofId.mpr ⟨hitem, hid⟩)
    unfold visible at hvisible ⊢
    rw [htold.owners id item hmem seen hseen]
    exact hvisible
  have hsplit : run.sent = run.sent.take subscriber.reader.start ++ subscriber.reader.passed run.sent ++
      run.sent.drop subscriber.reader.position := by
    have htake : run.sent.take subscriber.reader.start ++ subscriber.reader.passed run.sent =
        run.sent.take subscriber.reader.position := by
      unfold Reader.passed
      conv_rhs => rw [← List.take_append_drop subscriber.reader.start (run.sent.take subscriber.reader.position)]
      rw [List.take_take, Nat.min_eq_left htracks.start]
    rw [htake, List.take_append_drop]
  have hcovers : Covers (ofId id (subscriber.reader.passed run.sent)) (subscriber.about id) := by
    have hfilter := htracks.covers.filter (p := fun item : Item => decide (item.2.id = id))
    have hsame : ((subscriber.reader.passed run.sent).filter (visible subscriber.viewer)).filter
        (fun item : Item => decide (item.2.id = id)) = ofId id (subscriber.reader.passed run.sent) := by
      rw [List.filter_filter]
      refine List.filter_congr fun item hitem => ?_
      by_cases hid : item.2.id = id
      · have hsent : item ∈ run.sent := List.mem_of_mem_take (List.mem_of_mem_drop hitem)
        rw [hvisible item hsent hid, Bool.and_true]
      · rw [decide_eq_false hid, Bool.false_and]
    rwa [hsame] at hfilter
  have hhistory : ofId id run.history = ofId id (run.sent.take subscriber.reader.start) ++
      ofId id (subscriber.reader.passed run.sent) ++
      (ofId id (run.sent.drop subscriber.reader.position) ++ run.unpublished id) := by
    rw [htold.told id]
    conv_lhs => rw [hsplit]
    rw [ofId_append, ofId_append, List.append_assoc]
  refine ⟨?_, hhistory, hcovers, fun hposition hunpublished hpassed item hitem hterminal => ?_⟩
  · rw [hhistory]
    exact hcovers.sublist.trans ((List.sublist_append_right _ _).trans (List.sublist_append_left _ _))
  · have hdrop : run.sent.drop subscriber.reader.position = [] := List.drop_eq_nil_of_le hposition.ge
    rw [hdrop, hunpublished] at hhistory
    obtain ⟨last, hlast⟩ := List.getLast?_isSome.mpr hpassed |> Option.isSome_iff_exists.mp
    -- the end of an operation is its last change
    have hend : (ofId id run.history).getLast? = some last := by
      rw [hhistory]
      show (_ ++ _ ++ ([] ++ [])).getLast? = _
      rw [List.append_nil, List.append_nil, List.getLast?_append, hlast]
      rfl
    have heq : item = last := by
      obtain ⟨rest, hrest⟩ := List.getLast?_eq_some_iff.mp hend
      have hended := htold.ended id
      rw [hrest] at hitem hended
      rw [List.dropLast_concat] at hended
      obtain hitem | hitem := List.mem_append.mp hitem
      · cases hterminal.symm.trans (hended item hitem)
      · exact List.mem_singleton.mp hitem
    rw [heq]
    exact hcovers.getLast hlast

end Runs

section Example

def lounge : ReceiverId := ⟨"lounge", by decide⟩

def sofa : AgentLabel := ⟨"sofa", by decide⟩

def newRun : EventRun := ⟨{}, [], [], true, [], [], []⟩

/-- An agent asks, and follows its operations. -/
def asked : List EventAction :=
  [.subscribe (.agent sofa), .change (.submit (.agent sofa) lounge { intent := .mute .on } ∅ 0), .publish 0]

/-- The policy allows the request, and the agent withdraws it before that is published. -/
def withdrawnEarly : List EventAction :=
  asked ++ [.change (.allow 1), .change (.cancel (.agent sofa) 1), .publish 1, .publish 0, .read 0, .read 0, .read 0]

theorem withdrawnEarly_isSome : ((events {} 100).exec newRun withdrawnEarly).isSome = true := by decide +kernel

def afterWithdrawnEarly : EventRun := ((events {} 100).exec newRun withdrawnEarly).get withdrawnEarly_isSome

def muteBy (status : OperationStatus) : Item := (.agent sofa, { id := 1, receiver := lounge, intent := .mute .on, status })

/-- What the agent is told. -/
def toldEarly : Subscriber :=
  ⟨.agent sofa, ⟨0, 3, [.update (muteBy .submitted), .update (muteBy .cancelled), .update (muteBy .allowed)]⟩⟩

theorem subscribers_afterWithdrawnEarly : afterWithdrawnEarly.subscribers = [toldEarly] := by decide +kernel

theorem history_afterWithdrawnEarly :
    afterWithdrawnEarly.history = [muteBy .submitted, muteBy .allowed, muteBy .cancelled] := by decide +kernel

/-- A withdrawn operation can be shown as allowed. -/
theorem not_events_in_order : ∃ run, (events {} 100).Reachable run ∧ ∃ subscriber ∈ run.subscribers, ∃ id,
    subscriber.Sees run id ∧ ¬InOrder run subscriber id := by
  refine ⟨afterWithdrawnEarly, ?_, toldEarly, ?_, 1, ?_, fun hinOrder => ?_⟩
  · exact Machine.reachable_of_exec newRun withdrawnEarly rfl (Option.some_get withdrawnEarly_isSome).symm
  · rw [subscribers_afterWithdrawnEarly]
    exact List.mem_singleton_self _
  · unfold Subscriber.Sees
    rw [history_afterWithdrawnEarly]
    exact ⟨muteBy .submitted, by decide, by decide⟩
  · have horder := hinOrder.order
    rw [history_afterWithdrawnEarly] at horder
    revert horder
    decide

/-- It withdraws the request after that. -/
def withdrawnLate : List EventAction :=
  asked ++ [.change (.allow 1), .publish 0, .change (.cancel (.agent sofa) 1), .publish 0, .read 0, .lag 0 1, .read 0]

theorem withdrawnLate_isSome :
    ((events {} 100).execBy (fun run action => overtaken {} 100 run action = false) newRun withdrawnLate).isSome = true := by
  decide +kernel

def afterWithdrawnLate : EventRun :=
  ((events {} 100).execBy (fun run action => overtaken {} 100 run action = false) newRun withdrawnLate).get
    withdrawnLate_isSome

def toldLate : Subscriber := ⟨.agent sofa, ⟨0, 3, [.update (muteBy .submitted), .missed, .update (muteBy .cancelled)]⟩⟩

theorem subscribers_afterWithdrawnLate : afterWithdrawnLate.subscribers = [toldLate] := by decide +kernel

theorem history_afterWithdrawnLate :
    afterWithdrawnLate.history = [muteBy .submitted, muteBy .allowed, muteBy .cancelled] := by decide +kernel

theorem reachable_afterWithdrawnLate :
    (events {} 100).ReachableBy (fun run action => overtaken {} 100 run action = false) afterWithdrawnLate :=
  Machine.reachableBy_of_execBy newRun withdrawnLate rfl (Option.some_get withdrawnLate_isSome).symm

theorem events_in_order_withdrawnLate : InOrder afterWithdrawnLate toldLate 1 :=
  events_in_order reachable_afterWithdrawnLate
    (by rw [subscribers_afterWithdrawnLate]; exact List.mem_singleton_self _)
    ⟨muteBy .submitted, by rw [history_afterWithdrawnLate]; decide, by decide⟩

end Example

end DenonAvr.Application
