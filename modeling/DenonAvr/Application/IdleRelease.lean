import DenonAvr.Application.OneSession

/-!
# Releasing idle sessions

Timers are not cancelled: one that finds another activity number than that it was armed at does nothing. So an open
session without a lease needs a timer with the current number, and it has one (`idle_release`), from the moment that the
drop of its last lease is over.

That rests on the runtime: a lease that is dropped outside it arms no timer, and the session stays open
(`not_idle_release`).
-/

namespace DenonAvr.Application.Connections

open Domain Library Library.Tally

/-- A lease's drop comes to arming the timer, and there is no runtime to run it. -/
def outsideRuntime (s : Pool) : PoolAction → Bool
  | .advance i choice =>
    match s.tasks[i]? with
    | some (.dropping _ _ .timer) => decide (choice ≠ .ok)
    | _ => false
  | _ => false

/-- An open session without a lease has a timer, or is about to. -/
def Pool.Timed (s : Pool) : Prop :=
  ∀ r held, (s.slots r).held = some held → (s.slots r).leases = 0 →
    (∃ operation, Task.dropping r operation .timer ∈ s.tasks) ∨ Task.sleeping r (s.slots r).activity ∈ s.tasks

section Local
variable {closed : Bool} {address : Option String} {fresh : ℕ} {choice : Choice} {slot : Slot} {task : Task}
  {out : Outcome} {r : ReceiverId}

/-- A timer closes a session that has no lease, and leases come with the lock free, or as the lock is released. -/
theorem spares_leases : Spares Slot.leases (· = .idle) := by
  constructor
  · intro closed address fresh choice slot task out h r session agenda hout hwhy
    obtain rfl := of_decide_eq_true hwhy
    have hover : ∀ operation, callOver operation ≠ .closing r session .idle := by
      intro operation
      cases operation <;> exact nofun
    cases h with
    | timerCloses choice r armedAt held hfree hleases => exact hleases
    | close choice r' session' agenda =>
      cases agenda with
      | call operation => exact absurd hout (hover operation)
      | _ => cases hout
    | _ => first
      | exact absurd hout (hover _)
      | cases hout
  · intro closed address fresh choice slot task out h r hplace hzero
    cases h <;> simp_all [Slot.release, Task.place]

/-- Where the timer of a session without a lease comes from. -/
theorem SlotStep.timer (h : SlotStep closed address fresh slot choice task out) (hplace : task.place = some r)
    (hbacked : Backed slot task) (hruntime : ∀ operation, task = .dropping r operation .timer → choice = .ok)
    {held : Held} (hheld : out.slot.held = some held) (hleases : out.slot.leases = 0) :
    (∃ operation, out.task = .dropping r operation .timer) ∨ out.timer = some out.slot.activity ∨
      slot.held = some held ∧ slot.leases = 0 ∧ out.slot.activity = slot.activity ∧
        (∀ operation, task ≠ .dropping r operation .timer) ∧ task ≠ .sleeping r slot.activity := by
  obtain ⟨-, hpositive, -⟩ := hbacked
  cases h <;> simp_all [Slot.release, Slot.lease, Task.place, Task.lease]
  · omega
  · exact Ne.symm ‹_›

end Local

section Pool
variable {s s' : Pool} {i : ℕ} {choice : Choice} {task : Task} {out : Outcome} {r : ReceiverId}

theorem Pool.Timed.apply (h : s.Timed) (hcounted : s.Counted) (htask : s.tasks[i]? = some task)
    (hplace : task.place = some r)
    (hstep : SlotStep s.closed (s.address r) s.sessions.length (s.slots r) choice task out)
    (hruntime : ∀ operation, task = .dropping r operation .timer → choice = .ok) : (s.apply i r out).Timed := by
  intro r' held hheld hleases
  by_cases hr : r' = r
  · subst hr
    rw [slots_apply_self] at hheld hleases ⊢
    rcases hstep.timer hplace (hcounted.backed htask hplace) hruntime hheld hleases with
      ⟨operation, hout⟩ | harmed | ⟨hbefore, hzero, hactivity, hdropping, hsleeping⟩
    · exact .inl ⟨operation, by rw [← hout]; exact mem_set_append_self htask⟩
    · refine .inr (List.mem_append_right _ ?_)
      rw [harmed]
      exact List.mem_singleton.mpr rfl
    · rw [hactivity]
      refine (h r' held hbefore hzero).imp ?_ fun ht => mem_set_append_of_ne htask ht hsleeping.symm
      rintro ⟨operation, ht⟩
      exact ⟨operation, mem_set_append_of_ne htask ht (hdropping operation).symm⟩
  · rw [slots_apply_of_ne hr] at hheld hleases ⊢
    have hother : ∀ t ∈ s.tasks, t.place = some r' → t ∈ (s.apply i r out).tasks := by
      intro t ht htplace
      refine mem_set_append_of_ne htask ht ?_
      rintro rfl
      exact hr (Option.some.inj (htplace.symm.trans hplace))
    refine (h r' held hheld hleases).imp ?_ fun ht => hother _ ht rfl
    rintro ⟨operation, ht⟩
    exact ⟨operation, hother _ ht rfl⟩

/-- A step elsewhere leaves the tasks that are at a slot. -/
theorem mem_elsewhere {next : Pool} {task' t : Task} (htask : s.tasks[i]? = some task) (hplace : task.place = none)
    (hstep : OtherStep s choice task next task') (ht : t ∈ s.tasks) (htplace : t.place ≠ none) :
    t ∈ next.tasks.set i task' := by
  have hne : t ≠ task := by
    rintro rfl
    exact htplace hplace
  rw [hstep.frame.2.1]
  exact mem_set_of_ne htask ht hne task'

theorem Pool.Timed.elsewhere (h : s.Timed) {next : Pool} {task' : Task} (htask : s.tasks[i]? = some task)
    (hplace : task.place = none) (hstep : OtherStep s choice task next task') :
    Pool.Timed { next with tasks := next.tasks.set i task' } := by
  intro r held hheld hleases
  have hheld : (next.slots r).held = some held := hheld
  have hleases : (next.slots r).leases = 0 := hleases
  show _ ∨ Task.sleeping r (next.slots r).activity ∈ next.tasks.set i task'
  rw [hstep.frame.1] at hheld hleases ⊢
  refine (h r held hheld hleases).imp ?_ fun ht => mem_elsewhere htask hplace hstep ht nofun
  rintro ⟨operation, ht⟩
  exact ⟨operation, mem_elsewhere htask hplace hstep ht nofun⟩

theorem Pool.Timed.spawn (h : s.Timed) {pool' : Pool} (hslots : pool'.slots = s.slots)
    (htasks : pool'.tasks = s.tasks) : (pool'.spawn task).Timed := by
  intro r held hheld hleases
  have hheld : (pool'.slots r).held = some held := hheld
  have hleases : (pool'.slots r).leases = 0 := hleases
  show (∃ operation, _ ∈ pool'.tasks ++ [task]) ∨ Task.sleeping r (pool'.slots r).activity ∈ pool'.tasks ++ [task]
  rw [hslots, htasks] at *
  refine (h r held hheld hleases).imp ?_ fun ht => List.mem_append_left _ ht
  rintro ⟨operation, ht⟩
  exact ⟨operation, List.mem_append_left _ ht⟩

theorem timed_of_reachableBy (h : pool.ReachableBy (fun s action => outsideRuntime s action = false) s) : s.Timed := by
  refine h.invariant ?_ ?_
  · rintro _ ⟨stored, rfl⟩ r held hheld
    cases hheld
  · intro s action s' hreach hinside htimed hstep
    cases poolStep_of_step hstep with
    | call r => exact htimed.spawn rfl rfl
    | callUnknown r => exact htimed.spawn rfl rfl
    | submit r => exact htimed.spawn rfl rfl
    | save saved => exact htimed.spawn rfl rfl
    | shutdown => exact htimed.spawn rfl rfl
    | registerAdHoc r host => exact htimed
    | atSlot i choice task r out htask hplace hslot =>
      refine htimed.apply (counted_of_reachable hreach.reachable) htask hplace hslot ?_
      rintro operation rfl
      simpa [outsideRuntime, htask] using hinside
    | elsewhere i choice task next task' htask hplace hother => exact htimed.elsewhere htask hplace hother
    | expire k session hsession hlost => exact htimed

/-- A timer with the current number takes the session of a slot that has no lease. -/
theorem advance_sleeping {held : Held} (htask : s.tasks[i]? = some (.sleeping r (s.slots r).activity))
    (hheld : (s.slots r).held = some held) (hleases : (s.slots r).leases = 0) (hfree : (s.slots r).locked = false) :
    ∃ s', pool.step s (.advance i .ok) = some s' ∧ s'.tasks[i]? = some (.closing r held.session .idle) := by
  have hout : ∃ out, atSlot s.closed (s.address r) s.sessions.length .ok (s.slots r)
      (.sleeping r (s.slots r).activity) = some out ∧ out.task = .closing r held.session .idle ∧ out.timer = none := by
    simp [atSlot, stepAt, hheld, hleases, hfree]
  obtain ⟨out, hout, hclosing, hnotimer⟩ := hout
  have hlt := (List.getElem?_eq_some_iff.mp htask).1
  refine ⟨s.apply i r out, ?_, ?_⟩
  · show s.advance i .ok = _
    unfold Pool.advance
    rw [htask, Option.bind_some]
    show (atSlot s.closed (s.address r) s.sessions.length .ok (s.slots r) (.sleeping r (s.slots r).activity)).map _ = _
    rw [hout, Option.map_some]
  · show (s.tasks.set i out.task ++ (out.timer.map (.sleeping r)).toList)[i]? = _
    rw [hclosing, hnotimer, List.getElem?_append_left (by rwa [List.length_set]), List.getElem?_set_self hlt]

end Pool

/-- **Idle release is neither early nor lost**, as long as leases are dropped within the runtime: a session that a timer
closes has no lease, and a session that is open, with no lease and no drop of a lease in progress, has a timer with the
current number, which takes it when it fires and the slot is free. -/
theorem idle_release {s : Pool} (h : pool.ReachableBy (fun s action => outsideRuntime s action = false) s) :
    (∀ r session, Task.closing r session .idle ∈ s.tasks → ∀ task ∈ s.tasks, task.lease ≠ some r) ∧
    ∀ r held, (s.slots r).held = some held → (∀ task ∈ s.tasks, task.lease ≠ some r) →
      (∀ operation, Task.dropping r operation .timer ∉ s.tasks) →
        ∃ i, s.tasks[i]? = some (.sleeping r (s.slots r).activity) ∧
          ((s.slots r).locked = false →
            ∃ s', pool.step s (.advance i .ok) = some s' ∧ s'.tasks[i]? = some (.closing r held.session .idle)) := by
  have hcounted := counted_of_reachable h.reachable
  have htimed := timed_of_reachableBy h
  refine ⟨fun r session hclosing task htask =>
    hcounted.lease_ne (spares_leases.spared h.reachable r session .idle hclosing rfl) htask, ?_⟩
  intro r held hheld hnone hdrop
  have hleases : (s.slots r).leases = 0 := by
    rw [← hcounted.leases, List.countP_eq_zero]
    intro task htask hholds
    exact hnone task htask (of_decide_eq_true hholds)
  rcases htimed r held hheld hleases with ⟨operation, hdropping⟩ | hsleeping
  · exact absurd hdropping (hdrop operation)
  · obtain ⟨i, hi⟩ := List.mem_iff_getElem?.mp hsleeping
    exact ⟨i, hi, advance_sleeping hi hheld hleases⟩

section Example

/-- A call that takes a lease and drops it, within the runtime or outside it. -/
def droppedRun (choice : Choice) : List PoolAction :=
  [.call study, .advance 0 .ok, .advance 0 .ok, .advance 0 .ok, .advance 0 .ok, .advance 0 .ok, .advance 0 .ok,
    .advance 0 .ok, .advance 0 .ok, .advance 0 .ok, .advance 0 choice]

theorem droppedRun_isSome :
    (pool.execBy (fun s action => outsideRuntime s action = false) studyPool (droppedRun .ok)).isSome = true := by
  decide

def dropped : Pool :=
  (pool.execBy (fun s action => outsideRuntime s action = false) studyPool (droppedRun .ok)).get droppedRun_isSome

theorem idle_release_dropped :
    (∀ r session, Task.closing r session .idle ∈ dropped.tasks → ∀ task ∈ dropped.tasks, task.lease ≠ some r) ∧
    ∀ r held, (dropped.slots r).held = some held → (∀ task ∈ dropped.tasks, task.lease ≠ some r) →
      (∀ operation, Task.dropping r operation .timer ∉ dropped.tasks) →
        ∃ i, dropped.tasks[i]? = some (.sleeping r (dropped.slots r).activity) ∧
          ((dropped.slots r).locked = false →
            ∃ s', pool.step dropped (.advance i .ok) = some s' ∧
              s'.tasks[i]? = some (.closing r held.session .idle)) :=
  idle_release (Machine.reachableBy_of_execBy studyPool (droppedRun .ok) ⟨_, rfl⟩ (Option.some_get _).symm)

/-- **A lease that is dropped outside the runtime** leaves an open session and no task at all. -/
theorem not_idle_release :
    (pool.exec studyPool (droppedRun .failed)).map (fun s => ((s.slots study).held, (s.slots study).leases, s.tasks)) =
      some (some ⟨0, "192.0.2.10"⟩, 0, [.ended]) := by
  decide

end Example

end DenonAvr.Application.Connections
