import DenonAvr.Application.Connections
import DenonAvr.Library.Tally

/-!
# What the pool counts

A slot's lock, its count of leases and of operations' leases, and the count of operations in flight agree with the tasks
there are (`counted_of_reachable`). So at most one task is at work behind a slot's lock, and a counter that is zero says
that there is no such task.
-/

namespace DenonAvr.Application.Connections

open Domain Library Library.Tally

namespace Task

/-- The slot whose lock the task holds. -/
def lock : Task → Option ReceiverId
  | identifying r _ => some r
  | connecting r _ _ => some r
  | synchronizing r _ _ _ => some r
  | closing r _ _ => some r
  | draining _ r _ => some r
  | _ => none

/-- The slot that counts a lease of the task's. -/
def lease : Task → Option ReceiverId
  | leased r _ _ => some r
  | operating r _ => some r
  | dropping r _ step => if step = .timer then none else some r
  | _ => none

/-- The slot that counts an operation's lease of the task's. -/
def operationLease : Task → Option ReceiverId
  | leased r operation _ => if operation then some r else none
  | operating r _ => some r
  | dropping r operation step => if operation = true ∧ step = .operations then some r else none
  | _ => none

/-- The task is an operation's and has not ended. -/
def inFlight : Task → Bool
  | submitted _ => true
  | resolving _ operation => operation
  | waiting _ operation => operation
  | identifying _ operation => operation
  | connecting _ operation _ => operation
  | synchronizing _ operation _ _ => operation
  | closing _ _ (.call operation) => operation
  | leased _ operation _ => operation
  | operating _ _ => true
  | dropping _ operation _ => operation
  | finishing => true
  | _ => false

section Ends
variable (operation : Bool) (agenda : Agenda)

@[simp] theorem lock_callOver : (callOver operation).lock = none := by cases operation <;> rfl
@[simp] theorem lease_callOver : (callOver operation).lease = none := by cases operation <;> rfl
@[simp] theorem operationLease_callOver : (callOver operation).operationLease = none := by cases operation <;> rfl
@[simp] theorem hand_callOver : (callOver operation).hand = none := by cases operation <;> rfl
@[simp] theorem inFlight_callOver : (callOver operation).inFlight = operation := by cases operation <;> rfl
@[simp] theorem lock_next : agenda.next.lock = none := by
  cases agenda with
  | call operation => exact lock_callOver operation
  | _ => rfl
@[simp] theorem lease_next : agenda.next.lease = none := by
  cases agenda with
  | call operation => exact lease_callOver operation
  | _ => rfl
@[simp] theorem operationLease_next : agenda.next.operationLease = none := by
  cases agenda with
  | call operation => exact operationLease_callOver operation
  | _ => rfl
@[simp] theorem hand_next : agenda.next.hand = none := by
  cases agenda with
  | call operation => exact hand_callOver operation
  | _ => rfl
@[simp] theorem inFlight_next (r : ReceiverId) (session : ℕ) :
    agenda.next.inFlight = (closing r session agenda).inFlight := by
  cases agenda with
  | call operation => exact inFlight_callOver operation
  | _ => rfl

end Ends

theorem place_of_lock {task : Task} {r : ReceiverId} (h : task.lock = some r) : task.place = some r := by
  cases task <;> simp_all [lock, place]

theorem place_of_lease {task : Task} {r : ReceiverId} (h : task.lease = some r) : task.place = some r := by
  cases task <;> simp_all [lease, place]

theorem lease_of_operationLease {task : Task} {r : ReceiverId} (h : task.operationLease = some r) :
    task.lease = some r := by
  cases task <;> simp_all [operationLease, lease]

theorem lock_of_hand {task : Task} {r : ReceiverId} {session : ℕ} (h : task.hand = some (r, session)) :
    task.lock = some r := by
  cases task <;> simp_all [hand, lock]

/-- The task holds something of this slot. -/
def holds (held : Task → Option ReceiverId) (r : ReceiverId) (task : Task) : Bool := decide (held task = some r)

theorem holds_eq_true {held : Task → Option ReceiverId} {r : ReceiverId} {task : Task} (h : held task = some r) :
    holds held r task = true := decide_eq_true h

theorem holds_eq_false {held : Task → Option ReceiverId} {r : ReceiverId} {task : Task} (h : held task ≠ some r) :
    holds held r task = false := decide_eq_false h

end Task

/-- The counters agree with the tasks. -/
structure Pool.Counted (s : Pool) : Prop where
  lock : ∀ r, s.tasks.countP (Task.holds Task.lock r) = (s.slots r).locked.toNat
  leases : ∀ r, s.tasks.countP (Task.holds Task.lease r) = (s.slots r).leases
  operations : ∀ r, s.tasks.countP (Task.holds Task.operationLease r) = (s.slots r).operations
  inFlight : s.tasks.countP Task.inFlight = s.inFlight

/-- The slot knows of what the task holds. -/
structure Backed (slot : Slot) (task : Task) : Prop where
  lock : task.lock ≠ none → slot.locked = true
  leases : task.lease ≠ none → 0 < slot.leases
  operations : task.operationLease ≠ none → 0 < slot.operations

section Local
variable {closed : Bool} {address : Option String} {fresh : ℕ} {choice : Choice} {slot : Slot} {task : Task}
  {out : Outcome} {r r' : ReceiverId}

/-- **A step at a slot counts what it does.** -/
theorem SlotStep.counts (h : SlotStep closed address fresh slot choice task out) (hplace : task.place = some r)
    (hbacked : Backed slot task) :
    slot.locked.toNat + weight (Task.holds Task.lock r) out.task =
        out.slot.locked.toNat + weight (Task.holds Task.lock r) task ∧
      slot.leases + weight (Task.holds Task.lease r) out.task =
          out.slot.leases + weight (Task.holds Task.lease r) task ∧
        slot.operations + weight (Task.holds Task.operationLease r) out.task =
          out.slot.operations + weight (Task.holds Task.operationLease r) task := by
  obtain ⟨hlock, hleases, hoperations⟩ := hbacked
  cases h <;> simp only [Task.holds, weight, Task.lock_callOver, Task.lease_callOver,
    Task.operationLease_callOver, Task.lock_next, Task.lease_next, Task.operationLease_next]
  all_goals
    simp_all [Task.place, Task.lock, Task.lease, Task.operationLease, Slot.release, Slot.lease]
  · split_ifs <;> rfl
  · split_ifs <;> rfl
  · split_ifs with hoperation
    · have := hoperations hoperation
      omega
    · rfl
  · omega

theorem SlotStep.inFlight (h : SlotStep closed address fresh slot choice task out) :
    out.task.inFlight = task.inFlight := by
  cases h <;> simp only [Task.inFlight_callOver]
  case close r session agenda => exact Task.inFlight_next agenda r session
  all_goals rfl

/-- What a task holds after its step is at the slot it was at. -/
theorem SlotStep.lock_place (h : SlotStep closed address fresh slot choice task out) (hplace : task.place = some r)
    (hlock : out.task.lock = some r') : r' = r := by
  cases h <;> simp_all only [Task.lock_callOver, Task.lock_next, reduceCtorEq] <;>
    simp_all [Task.place, Task.lock]

theorem SlotStep.lease_place (h : SlotStep closed address fresh slot choice task out) (hplace : task.place = some r)
    (hlease : out.task.lease = some r') : r' = r := by
  cases h <;> simp_all only [Task.lease_callOver, Task.lease_next, reduceCtorEq] <;>
    simp_all [Task.place, Task.lease]

end Local

section Pool
variable {s s' : Pool} {action : PoolAction} {i : ℕ} {choice : Choice} {task : Task} {out : Outcome} {r : ReceiverId}

theorem Pool.Counted.backed (h : s.Counted) (htask : s.tasks[i]? = some task) (hplace : task.place = some r) :
    Backed (s.slots r) task := by
  refine ⟨fun hsome => ?_, fun hsome => ?_, fun hsome => ?_⟩
  · obtain ⟨r', hr'⟩ := Option.ne_none_iff_exists'.mp hsome
    obtain rfl := Option.some.inj ((Task.place_of_lock hr').symm.trans hplace)
    have hpos := countP_pos_of_getElem? (p := Task.holds Task.lock r') htask (Task.holds_eq_true hr')
    rw [h.lock] at hpos
    cases hlocked : (s.slots r').locked with
    | true => rfl
    | false => simp [hlocked] at hpos
  · obtain ⟨r', hr'⟩ := Option.ne_none_iff_exists'.mp hsome
    obtain rfl := Option.some.inj ((Task.place_of_lease hr').symm.trans hplace)
    rw [← h.leases]
    exact countP_pos_of_getElem? htask (Task.holds_eq_true hr')
  · obtain ⟨r', hr'⟩ := Option.ne_none_iff_exists'.mp hsome
    obtain rfl := Option.some.inj ((Task.place_of_lease (Task.lease_of_operationLease hr')).symm.trans hplace)
    rw [← h.operations]
    exact countP_pos_of_getElem? htask (Task.holds_eq_true hr')

/-- The timer that a step arms holds nothing. -/
theorem countP_timer {p : Task → Bool} (hp : ∀ armedAt, p (.sleeping r armedAt) = false) (timer : Option ℕ) :
    (timer.map (Task.sleeping r)).toList.countP p = 0 := by
  cases timer with
  | none => rfl
  | some armedAt => simp [hp]

/-- A count of what tasks hold of a slot, after a step at a slot. -/
theorem count_apply {held : Task → Option ReceiverId} (count : Slot → ℕ)
    (hcount : ∀ r, s.tasks.countP (Task.holds held r) = count (s.slots r)) (htask : s.tasks[i]? = some task)
    (hlocal : count (s.slots r) + weight (Task.holds held r) out.task =
      count out.slot + weight (Task.holds held r) task)
    (hbefore : ∀ r', held task = some r' → r' = r) (hafter : ∀ r', held out.task = some r' → r' = r)
    (htimer : ∀ armedAt, held (.sleeping r armedAt) = none) (r' : ReceiverId) :
    (s.apply i r out).tasks.countP (Task.holds held r') = count ((s.apply i r out).slots r') := by
  have hset := countP_set_append (Task.holds held r') out.task (out.timer.map (.sleeping r)).toList htask
  rw [countP_timer fun armedAt => Task.holds_eq_false (by rw [htimer]; exact nofun), hcount] at hset
  show (s.tasks.set i out.task ++ _).countP _ = count (Function.update s.slots r out.slot r')
  by_cases hr : r' = r
  · subst hr
    rw [Function.update_self]
    omega
  · -- at another slot the task counts for nothing, before its step and after
    rw [weight_of_false (Task.holds_eq_false fun heq => hr (hbefore r' heq)),
      weight_of_false (Task.holds_eq_false fun heq => hr (hafter r' heq))] at hset
    rw [Function.update_of_ne hr]
    exact hset

theorem slots_apply_self : (s.apply i r out).slots r = out.slot := Function.update_self ..

theorem slots_apply_of_ne {r' : ReceiverId} (h : r' ≠ r) : (s.apply i r out).slots r' = s.slots r' :=
  Function.update_of_ne h ..

/-- The tasks after a step at a slot. -/
theorem mem_tasks_apply {t : Task} (h : t ∈ (s.apply i r out).tasks) :
    t = out.task ∨ t ∈ s.tasks ∨ ∃ armedAt, out.timer = some armedAt ∧ t = .sleeping r armedAt := by
  rcases mem_set_append h with h | h | h
  · exact .inl h
  · exact .inr (.inl h)
  · obtain ⟨armedAt, htimer, rfl⟩ := Option.map_eq_some_iff.mp (Option.mem_toList.mp h)
    exact .inr (.inr ⟨armedAt, htimer, rfl⟩)

theorem Pool.Counted.apply (h : s.Counted) (htask : s.tasks[i]? = some task) (hplace : task.place = some r)
    (hstep : SlotStep s.closed (s.address r) s.sessions.length (s.slots r) choice task out) :
    (s.apply i r out).Counted := by
  obtain ⟨hlock, hleases, hoperations⟩ := hstep.counts hplace (h.backed htask hplace)
  have hplaced : ∀ r', task.place = some r' → r' = r := fun r' heq => Option.some.inj (heq.symm.trans hplace)
  refine ⟨?_, ?_, ?_, ?_⟩
  · exact count_apply (fun slot => slot.locked.toNat) h.lock htask hlock
      (fun r' hheld => hplaced r' (Task.place_of_lock hheld)) (fun r' hheld => hstep.lock_place hplace hheld) fun _ => rfl
  · exact count_apply Slot.leases h.leases htask hleases (fun r' hheld => hplaced r' (Task.place_of_lease hheld))
      (fun r' hheld => hstep.lease_place hplace hheld) fun _ => rfl
  · exact count_apply Slot.operations h.operations htask hoperations
      (fun r' hheld => hplaced r' (Task.place_of_lease (Task.lease_of_operationLease hheld)))
      (fun r' hheld => hstep.lease_place hplace (Task.lease_of_operationLease hheld)) fun _ => rfl
  · have hset := countP_set_append Task.inFlight out.task (out.timer.map (.sleeping r)).toList htask
    have hsame : weight Task.inFlight out.task = weight Task.inFlight task := by
      unfold weight
      rw [hstep.inFlight]
    rw [countP_timer fun _ => rfl, h.inFlight] at hset
    show (s.tasks.set i out.task ++ _).countP _ = s.inFlight
    omega

/-- A step that is not at a slot touches no counter but that of operations in flight. -/
theorem OtherStep.counts {next : Pool} {task' : Task} (h : OtherStep s choice task next task')
    (hpos : task.inFlight = true → 0 < s.inFlight) :
    next.slots = s.slots ∧ next.tasks = s.tasks ∧ task.lock = none ∧ task.lease = none ∧ task.operationLease = none ∧
      task'.lock = none ∧ task'.lease = none ∧ task'.operationLease = none ∧
        s.inFlight + weight Task.inFlight task' = next.inFlight + weight Task.inFlight task := by
  cases h with
  | resolveFails choice r operation =>
    refine ⟨rfl, rfl, rfl, rfl, rfl, Task.lock_callOver _, Task.lease_callOver _, Task.operationLease_callOver _, ?_⟩
    unfold weight
    rw [Task.inFlight_callOver]
    rfl
  | finish choice =>
    have := hpos rfl
    refine ⟨rfl, rfl, rfl, rfl, rfl, rfl, rfl, rfl, ?_⟩
    show s.inFlight + 0 = s.inFlight - 1 + 1
    omega
  | _ => exact ⟨rfl, rfl, rfl, rfl, rfl, rfl, rfl, rfl, rfl⟩

theorem Pool.Counted.elsewhere (h : s.Counted) {next : Pool} {task' : Task} (htask : s.tasks[i]? = some task)
    (hstep : OtherStep s choice task next task') : Pool.Counted { next with tasks := next.tasks.set i task' } := by
  have hpos : task.inFlight = true → 0 < s.inFlight := fun hflight => by
    rw [← h.inFlight]
    exact countP_pos_of_getElem? htask hflight
  obtain ⟨hslots, htasks, hlock, hlease, hoperation, hlock', hlease', hoperation', hflight⟩ := hstep.counts hpos
  have hset : ∀ p : Task → Bool, (next.tasks.set i task').countP p + weight p task =
      s.tasks.countP p + weight p task' := fun p => by
    have := countP_set_append p task' [] htask
    rw [htasks]
    rwa [List.append_nil, List.countP_nil, Nat.add_zero] at this
  have hsame : ∀ (held : Task → Option ReceiverId) (r : ReceiverId), held task = none → held task' = none →
      (next.tasks.set i task').countP (Task.holds held r) = s.tasks.countP (Task.holds held r) := by
    intro held r hbefore hafter
    have := hset (Task.holds held r)
    rwa [weight_of_false (Task.holds_eq_false (by rw [hbefore]; exact nofun)),
      weight_of_false (Task.holds_eq_false (by rw [hafter]; exact nofun))] at this
  refine ⟨fun r => ?_, fun r => ?_, fun r => ?_, ?_⟩
  · exact (hsame Task.lock r hlock hlock').trans ((h.lock r).trans (by rw [hslots]))
  · exact (hsame Task.lease r hlease hlease').trans ((h.leases r).trans (by rw [hslots]))
  · exact (hsame Task.operationLease r hoperation hoperation').trans ((h.operations r).trans (by rw [hslots]))
  · have := hset Task.inFlight
    rw [h.inFlight] at this
    show (next.tasks.set i task').countP Task.inFlight = next.inFlight
    omega

theorem Pool.Counted.spawn (h : s.Counted) {pool' : Pool} (hslots : pool'.slots = s.slots)
    (htasks : pool'.tasks = s.tasks) (hlock : task.lock = none) (hlease : task.lease = none)
    (hoperation : task.operationLease = none) (hflight : pool'.inFlight = s.inFlight + weight Task.inFlight task) :
    (pool'.spawn task).Counted := by
  have hsame : ∀ (held : Task → Option ReceiverId) (r : ReceiverId), held task = none →
      (pool'.tasks ++ [task]).countP (Task.holds held r) = s.tasks.countP (Task.holds held r) := by
    intro held r hnone
    rw [htasks, countP_append_singleton, weight_of_false (Task.holds_eq_false (by rw [hnone]; exact nofun)), Nat.add_zero]
  refine ⟨fun r => ?_, fun r => ?_, fun r => ?_, ?_⟩
  · exact (hsame Task.lock r hlock).trans ((h.lock r).trans (by rw [← hslots]; rfl))
  · exact (hsame Task.lease r hlease).trans ((h.leases r).trans (by rw [← hslots]; rfl))
  · exact (hsame Task.operationLease r hoperation).trans ((h.operations r).trans (by rw [← hslots]; rfl))
  · show (pool'.tasks ++ [task]).countP Task.inFlight = pool'.inFlight
    rw [htasks, countP_append_singleton, h.inFlight, hflight]

theorem Pool.Counted.step (h : s.Counted) (hstep : PoolStep s action s') : s'.Counted := by
  cases hstep with
  | call r => exact h.spawn rfl rfl rfl rfl rfl rfl
  | callUnknown r => exact h.spawn rfl rfl rfl rfl rfl rfl
  | submit r => exact h.spawn rfl rfl rfl rfl rfl rfl
  | save saved => exact h.spawn rfl rfl rfl rfl rfl rfl
  | shutdown => exact h.spawn rfl rfl rfl rfl rfl rfl
  | registerAdHoc r host => exact ⟨h.lock, h.leases, h.operations, h.inFlight⟩
  | atSlot i choice task r out htask hplace hstep => exact h.apply htask hplace hstep
  | elsewhere i choice task next task' htask hplace hstep => exact h.elsewhere htask hstep
  | expire k session hsession hlost => exact ⟨h.lock, h.leases, h.operations, h.inFlight⟩

/-- **The pool counts its tasks**, in every state it can reach. -/
theorem counted_of_reachable (h : pool.Reachable s) : s.Counted := by
  refine h.invariant ?_ fun s action s' _ hcounted hstep => hcounted.step (poolStep_of_step hstep)
  rintro _ ⟨stored, rfl⟩
  exact ⟨fun _ => rfl, fun _ => rfl, fun _ => rfl, rfl⟩

section Counted
variable {task' : Task}

/-- **At most one task is at work behind a slot's lock.** -/
theorem Pool.Counted.lock_unique (h : s.Counted) (htask : task ∈ s.tasks) (htask' : task' ∈ s.tasks)
    (hlock : task.lock = some r) (hlock' : task'.lock = some r) : task = task' := by
  refine eq_of_countP_le_one (p := Task.holds Task.lock r) ?_ htask htask' (Task.holds_eq_true hlock)
    (Task.holds_eq_true hlock')
  rw [h.lock]
  exact Bool.toNat_le _

theorem Pool.Counted.locked (h : s.Counted) (htask : task ∈ s.tasks) (hlock : task.lock = some r) :
    (s.slots r).locked = true := by
  obtain ⟨i, hi⟩ := List.mem_iff_getElem?.mp htask
  exact (h.backed hi (Task.place_of_lock hlock)).lock (by rw [hlock]; exact nofun)

theorem Pool.Counted.lease_ne (h : s.Counted) (hleases : (s.slots r).leases = 0) (htask : task ∈ s.tasks) :
    task.lease ≠ some r := by
  intro hlease
  rw [← h.leases, List.countP_eq_zero] at hleases
  exact hleases task htask (Task.holds_eq_true hlease)

theorem Pool.Counted.operationLease_ne (h : s.Counted) (hoperations : (s.slots r).operations = 0)
    (htask : task ∈ s.tasks) : task.operationLease ≠ some r := by
  intro hlease
  rw [← h.operations, List.countP_eq_zero] at hoperations
  exact hoperations task htask (Task.holds_eq_true hlease)

theorem Pool.Counted.inFlight_eq_false (h : s.Counted) (hidle : s.inFlight = 0) (htask : task ∈ s.tasks) :
    task.inFlight = false := by
  rw [← h.inFlight, List.countP_eq_zero] at hidle
  exact Bool.eq_false_iff.mpr (hidle task htask)

end Counted

/-! ### What a slot is spared while its session is closed -/

/-- A count of the slot's that is zero when a session begins to be closed for such a reason, and that only those who get
the lock add to. -/
structure Spares (count : Slot → ℕ) (why : Agenda → Bool) : Prop where
  start : ∀ {closed address fresh choice slot task out}, SlotStep closed address fresh slot choice task out →
    ∀ {r session agenda}, out.task = .closing r session agenda → why agenda = true → count out.slot = 0
  stays : ∀ {closed address fresh choice slot task out}, SlotStep closed address fresh slot choice task out →
    ∀ {r}, task.place = some r → count slot = 0 →
      count out.slot = 0 ∨ slot.locked = false ∨ ∃ operation host session, task = .synchronizing r operation host session

variable {count : Slot → ℕ} {why : Agenda → Bool}

def Pool.Spared (s : Pool) (count : Slot → ℕ) (why : Agenda → Bool) : Prop :=
  ∀ r session agenda, Task.closing r session agenda ∈ s.tasks → why agenda = true → count (s.slots r) = 0

/-- The count stays zero while the session is closed. -/
theorem Spares.spared (hspares : Spares count why) (h : pool.Reachable s) : s.Spared count why := by
  refine h.invariant (I := fun s => s.Spared count why) ?_ ?_
  · rintro _ ⟨stored, rfl⟩ r session agenda hclosing
    cases hclosing
  · intro s action s' hreach hzero hstep r' session agenda hclosing hwhy
    have hcounted := counted_of_reachable hreach
    have hspawn : ∀ task : Task, task.lock = none → Task.closing r' session agenda ∈ s.tasks ++ [task] →
        count (s.slots r') = 0 := by
      intro task hlock hmem
      rcases List.mem_append.mp hmem with hold | hnew
      · exact hzero r' session agenda hold hwhy
      · rw [← List.mem_singleton.mp hnew] at hlock
        cases hlock
    cases poolStep_of_step hstep with
    | call r => exact hspawn _ rfl hclosing
    | callUnknown r => exact hspawn _ rfl hclosing
    | submit r => exact hspawn _ rfl hclosing
    | save saved => exact hspawn _ rfl hclosing
    | shutdown => exact hspawn _ rfl hclosing
    | registerAdHoc r host => exact hzero r' session agenda hclosing hwhy
    | expire k other => exact hzero r' session agenda hclosing hwhy
    | elsewhere i choice task next task' htask hplace hother =>
      obtain ⟨hslots, htasks, -, -, -, hlock, -⟩ := hother.counts fun hflight => by
        rw [← hcounted.inFlight]
        exact countP_pos_of_getElem? htask hflight
      show count (next.slots r') = 0
      rw [hslots]
      have hclosing : Task.closing r' session agenda ∈ next.tasks.set i task' := hclosing
      rcases List.mem_or_eq_of_mem_set hclosing with hold | hnew
      · exact hzero r' session agenda (htasks ▸ hold) hwhy
      · rw [← hnew] at hlock
        cases hlock
    | atSlot i choice task r out htask hplace hslot =>
      by_cases hr : r' = r
      · subst hr
        rw [slots_apply_self]
        rcases mem_tasks_apply hclosing with hout | hold | ⟨armedAt, -, hsleeping⟩
        · exact hspares.start hslot hout.symm hwhy
        · -- the closing task holds the lock, so no other task adds to the count
          rcases hspares.stays hslot hplace (hzero r' session agenda hold hwhy) with hstill | hfree |
            ⟨operation, host, k, rfl⟩
          · exact hstill
          · rw [hcounted.locked hold rfl] at hfree
            cases hfree
          · cases hcounted.lock_unique hold (List.mem_of_getElem? htask) rfl hplace
        · cases hsleeping
      · rw [slots_apply_of_ne hr]
        rcases mem_tasks_apply hclosing with hout | hold | ⟨armedAt, -, hsleeping⟩
        · exact absurd (hslot.lock_place hplace (by rw [← hout]; rfl)) hr
        · exact hzero r' session agenda hold hwhy
        · cases hsleeping

end Pool

end DenonAvr.Application.Connections
