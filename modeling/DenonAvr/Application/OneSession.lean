import DenonAvr.Application.PoolCounts

/-!
# One session for each receiver

Every session that is open is in its receiver's slot or in the hands of the one task that holds the slot's lock
(`placed_of_reachableBy`), as long as no task is given up with a session in its hands. A task that connects holds the
lock and has none, so the sessions before it are closed (`one_session`).

A call that is given up while its new session synchronizes drops the session without closing it, and the next call
connects beside it (`not_one_session`).
-/

namespace DenonAvr.Application.Connections

open Domain Library Library.Tally

/-- The slot whose session the task has taken, or is about to make. -/
def Task.away : Task → Option ReceiverId
  | identifying r _ => some r
  | connecting r _ _ => some r
  | synchronizing r _ _ _ => some r
  | closing r _ _ => some r
  | _ => none

namespace Task

theorem lock_of_away {task : Task} {r : ReceiverId} (h : task.away = some r) : task.lock = some r := by
  cases task <;> simp_all [away, lock]

theorem away_of_hand {task : Task} {r : ReceiverId} {session : ℕ} (h : task.hand = some (r, session)) :
    task.away = some r := by
  cases task <;> simp_all [away, hand]

@[simp] theorem away_callOver (operation : Bool) : (callOver operation).away = none := by cases operation <;> rfl

@[simp] theorem away_next (agenda : Agenda) : agenda.next.away = none := by
  cases agenda with
  | call operation => exact away_callOver operation
  | _ => rfl

end Task

/-- A task is given up with a session in its hands. -/
def leaks (s : Pool) : PoolAction → Bool
  | .advance i .abandon => (s.tasks[i]?).any fun task => task.hand.isSome
  | _ => false

/-- The session is in the slot, or in the hands of a task. -/
def Pool.Keeps (s : Pool) (r : ReceiverId) (k : ℕ) : Prop :=
  (∃ held, (s.slots r).held = some held ∧ held.session = k) ∨ ∃ task ∈ s.tasks, task.hand = some (r, k)

structure Pool.Placed (s : Pool) : Prop where
  away : ∀ task ∈ s.tasks, ∀ r, task.away = some r → (s.slots r).held = none
  kept : ∀ k session, s.sessions[k]? = some session → session.closed = false → s.Keeps session.receiver k

section Local
variable {closed : Bool} {address : Option String} {fresh : ℕ} {choice : Choice} {slot : Slot} {task : Task}
  {out : Outcome} {r r' : ReceiverId}

theorem SlotStep.away (h : SlotStep closed address fresh slot choice task out) (hplace : task.place = some r)
    (haway : task.away ≠ none → slot.held = none) (hout : out.task.away = some r') :
    r' = r ∧ out.slot.held = none := by
  cases h <;> simp_all only [Task.away_callOver, Task.away_next, reduceCtorEq] <;>
    simp_all [Task.place, Task.away]

/-- A session comes into the slot only as the lock is released. -/
theorem SlotStep.held_none (h : SlotStep closed address fresh slot choice task out) (hheld : slot.held = none) :
    out.slot.held = none ∨ out.slot.locked = false := by
  cases h <;> simp_all [Slot.lease, Slot.release]

/-- The slot's session stays or is taken. -/
theorem SlotStep.held_some (h : SlotStep closed address fresh slot choice task out) (hplace : task.place = some r)
    (haway : task.away ≠ none → slot.held = none) {held : Held} (hheld : slot.held = some held) :
    out.slot.held = some held ∨ out.task.hand = some (r, held.session) := by
  cases h <;> simp_all [Slot.lease, Task.place, Task.away, Task.hand]

/-- A session in a task's hands stays there, comes into the slot, or is closed. -/
theorem SlotStep.hand (h : SlotStep closed address fresh slot choice task out) {k : ℕ}
    (hhand : task.hand = some (r, k)) (hkept : choice ≠ .abandon) :
    out.task.hand = some (r, k) ∨ (∃ held, out.slot.held = some held ∧ held.session = k) ∨ out.event = .closed k := by
  cases h <;> simp_all [Slot.lease, Task.hand]

/-- A new session is in the task's hands. -/
theorem SlotStep.opened (h : SlotStep closed address fresh slot choice task out) (hplace : task.place = some r)
    {host : String} (hevent : out.event = .opened host) : out.task.hand = some (r, fresh) := by
  cases h <;> simp_all [Task.hand, Task.place]

end Local

section Pool
variable {s s' : Pool} {action : PoolAction} {i : ℕ} {choice : Choice} {task : Task} {out : Outcome} {r : ReceiverId}

theorem OtherStep.frame {next : Pool} {task' : Task} (h : OtherStep s choice task next task') :
    next.slots = s.slots ∧ next.tasks = s.tasks ∧ next.sessions = s.sessions ∧ task.hand = none ∧ task'.away = none := by
  cases h <;> first
    | exact ⟨rfl, rfl, rfl, rfl, rfl⟩
    | exact ⟨rfl, rfl, rfl, rfl, Task.away_callOver _⟩

/-- An open session is not the one that ends. -/
theorem getElem?_endSession {sessions : List Session} {k' k : ℕ} {session : Session}
    (hsession : (endSession k' sessions)[k]? = some session) (hopen : session.closed = false) :
    k' ≠ k ∧ sessions[k]? = some session := by
  rw [endSession, List.getElem?_modify] at hsession
  by_cases hk : k' = k
  · obtain ⟨old, -, hold⟩ := Option.map_eq_some_iff.mp hsession
    rw [if_pos hk] at hold
    rw [← hold] at hopen
    cases hopen
  · simp only [if_neg hk] at hsession
    exact ⟨hk, by simpa using hsession⟩

/-- An open session after a step at a slot is new or was open before, and is not the one that was closed. -/
theorem sessions_apply {k : ℕ} {session : Session} (hsession : (s.apply i r out).sessions[k]? = some session)
    (hopen : session.closed = false) :
    (∃ host, out.event = .opened host ∧ k = s.sessions.length ∧ session = ⟨r, host, false⟩) ∨
      s.sessions[k]? = some session ∧ out.event ≠ .closed k := by
  have hsession : (out.event.sessions r s.sessions)[k]? = some session := hsession
  cases hevent : out.event with
  | opened host =>
    rw [hevent] at hsession
    rcases lt_trichotomy k s.sessions.length with hlt | rfl | hgt
    · exact .inr ⟨by rwa [PoolEvent.sessions, List.getElem?_append_left hlt] at hsession, nofun⟩
    · rw [PoolEvent.sessions, List.getElem?_concat_length] at hsession
      exact .inl ⟨host, rfl, rfl, (Option.some.inj hsession).symm⟩
    · rw [PoolEvent.sessions, List.getElem?_eq_none (by simp; omega)] at hsession
      cases hsession
  | closed k' =>
    rw [hevent] at hsession
    obtain ⟨hk, hold⟩ := getElem?_endSession hsession hopen
    exact .inr ⟨hold, fun heq => hk (PoolEvent.closed.inj heq)⟩
  | none =>
    rw [hevent] at hsession
    exact .inr ⟨hsession, nofun⟩
  | operated =>
    rw [hevent] at hsession
    exact .inr ⟨hsession, nofun⟩

theorem Pool.Placed.away_held (h : s.Placed) (htask : s.tasks[i]? = some task) (hplace : task.place = some r) :
    task.away ≠ none → (s.slots r).held = none := by
  intro hne
  obtain ⟨r', hr'⟩ := Option.ne_none_iff_exists'.mp hne
  obtain rfl := Option.some.inj ((Task.place_of_lock (Task.lock_of_away hr')).symm.trans hplace)
  exact h.away task (List.mem_of_getElem? htask) r' hr'

theorem Pool.Placed.apply (h : s.Placed) (hcounted : s.Counted) (htask : s.tasks[i]? = some task)
    (hplace : task.place = some r)
    (hstep : SlotStep s.closed (s.address r) s.sessions.length (s.slots r) choice task out)
    (hkept : choice = .abandon → task.hand = none) : (s.apply i r out).Placed := by
  have hcounted' := hcounted.apply htask hplace hstep
  have haway := h.away_held htask hplace
  refine ⟨?_, ?_⟩
  · intro t ht r' hr'
    have hlocked := hcounted'.locked ht (Task.lock_of_away hr')
    rcases mem_tasks_apply ht with rfl | hold | ⟨armedAt, -, rfl⟩
    · obtain ⟨rfl, hheld⟩ := hstep.away hplace haway hr'
      rw [slots_apply_self]
      exact hheld
    · have hheld := h.away t hold r' hr'
      by_cases hr : r' = r
      · subst hr
        rw [slots_apply_self] at hlocked ⊢
        exact (hstep.held_none hheld).resolve_right (by simp [hlocked])
      · rwa [slots_apply_of_ne hr]
    · cases hr'
  · intro k session hsession hopen
    rcases sessions_apply hsession hopen with ⟨host, hevent, rfl, rfl⟩ | ⟨hold, hevent⟩
    · exact .inr ⟨out.task, mem_set_append_self htask, hstep.opened hplace hevent⟩
    · rcases h.kept k session hold hopen with ⟨held, hheld, hk⟩ | ⟨t, ht, hhand⟩
      · by_cases hr : session.receiver = r
        · rw [hr] at hheld ⊢
          rcases hstep.held_some hplace haway hheld with hsame | htaken
          · exact .inl ⟨held, by rw [slots_apply_self]; exact hsame, hk⟩
          · exact .inr ⟨out.task, mem_set_append_self htask, by rw [htaken, hk]⟩
        · exact .inl ⟨held, by rwa [slots_apply_of_ne hr], hk⟩
      · by_cases hsame : t = task
        · subst hsame
          have hr := Option.some.inj ((Task.place_of_lock (Task.lock_of_hand hhand)).symm.trans hplace)
          have hnever : choice ≠ .abandon := fun heq => by rw [hkept heq] at hhand; cases hhand
          rcases hstep.hand hhand hnever with hstays | ⟨held, hheld, hk⟩ | hclosed
          · exact .inr ⟨out.task, mem_set_append_self htask, hstays⟩
          · refine .inl ⟨held, ?_, hk⟩
            rw [hr, slots_apply_self]
            exact hheld
          · exact absurd hclosed hevent
        · exact .inr ⟨t, mem_set_append_of_ne htask ht hsame, hhand⟩

theorem Pool.Placed.elsewhere (h : s.Placed) {next : Pool} {task' : Task} (htask : s.tasks[i]? = some task)
    (hstep : OtherStep s choice task next task') : Pool.Placed { next with tasks := next.tasks.set i task' } := by
  obtain ⟨hslots, htasks, hsessions, hhand, haway⟩ := hstep.frame
  refine ⟨?_, ?_⟩
  · intro t ht r hr
    show (next.slots r).held = none
    rw [hslots]
    have ht : t ∈ next.tasks.set i task' := ht
    rw [htasks] at ht
    rcases List.mem_or_eq_of_mem_set ht with hold | rfl
    · exact h.away t hold r hr
    · rw [haway] at hr
      cases hr
  · intro k session hsession hopen
    have hsession : next.sessions[k]? = some session := hsession
    rw [hsessions] at hsession
    refine (h.kept k session hsession hopen).imp ?_ ?_
    · rintro ⟨held, hheld, hk⟩
      exact ⟨held, by rw [← hheld, ← hslots], hk⟩
    · rintro ⟨t, ht, hthand⟩
      refine ⟨t, ?_, hthand⟩
      have hne : t ≠ task := by
        rintro rfl
        rw [hhand] at hthand
        cases hthand
      have hmem := mem_set_of_ne htask ht hne task'
      rw [← htasks] at hmem
      exact hmem

theorem Pool.Placed.spawn (h : s.Placed) {pool' : Pool} (hslots : pool'.slots = s.slots)
    (htasks : pool'.tasks = s.tasks) (hsessions : pool'.sessions = s.sessions) (haway : task.away = none) :
    (pool'.spawn task).Placed := by
  refine ⟨?_, ?_⟩
  · intro t ht r hr
    have ht : t ∈ pool'.tasks ++ [task] := ht
    rw [htasks, List.mem_append, List.mem_singleton] at ht
    show (pool'.slots r).held = none
    rw [hslots]
    rcases ht with ht | rfl
    · exact h.away t ht r hr
    · rw [haway] at hr
      cases hr
  · intro k session hsession hopen
    have hsession : pool'.sessions[k]? = some session := hsession
    rw [hsessions] at hsession
    refine (h.kept k session hsession hopen).imp ?_ ?_
    · rintro ⟨held, hheld, hk⟩
      exact ⟨held, by rw [← hheld, ← hslots]; rfl, hk⟩
    · rintro ⟨t, ht, hthand⟩
      exact ⟨t, List.mem_append_left _ (by rwa [htasks]), hthand⟩

/-- **Every open session is in its slot or in a task's hands.** -/
theorem placed_of_reachableBy (h : pool.ReachableBy (fun s action => leaks s action = false) s) : s.Placed := by
  refine h.invariant ?_ ?_
  · rintro _ ⟨stored, rfl⟩
    exact ⟨fun _ ht => (List.not_mem_nil ht).elim, fun _ _ hsession => by cases hsession⟩
  · intro s action s' hreach hkept hplaced hstep
    cases poolStep_of_step hstep with
    | call r => exact hplaced.spawn rfl rfl rfl rfl
    | callUnknown r => exact hplaced.spawn rfl rfl rfl rfl
    | submit r => exact hplaced.spawn rfl rfl rfl rfl
    | save saved => exact hplaced.spawn rfl rfl rfl rfl
    | shutdown => exact hplaced.spawn rfl rfl rfl rfl
    | registerAdHoc r host => exact ⟨hplaced.away, hplaced.kept⟩
    | atSlot i choice task r out htask hplace hslot =>
      refine hplaced.apply (counted_of_reachable hreach.reachable) htask hplace hslot ?_
      rintro rfl
      simpa [leaks, htask] using hkept
    | elsewhere i choice task next task' htask hplace hother => exact hplaced.elsewhere htask hother
    | expire k session hsession hlost =>
      exact ⟨hplaced.away, fun j other hother hopen => hplaced.kept j other (getElem?_endSession hother hopen).2 hopen⟩

end Pool

/-- **At most one connection for each receiver**: while a call connects to a receiver, every session that the connector
returned for it before is closed, and no two sessions of a receiver are ever open together. -/
theorem one_session {s : Pool} (h : pool.ReachableBy (fun s action => leaks s action = false) s) :
    (∀ r operation host, Task.connecting r operation host ∈ s.tasks →
      ∀ session ∈ s.sessions, session.receiver = r → session.closed = true) ∧
    ∀ (j k : ℕ) (first second : Session), s.sessions[j]? = some first → s.sessions[k]? = some second →
      first.receiver = second.receiver → first.closed = false → second.closed = false → j = k := by
  have hcounted := counted_of_reachable h.reachable
  have hplaced := placed_of_reachableBy h
  refine ⟨?_, ?_⟩
  · intro r operation host htask session hmem hr
    by_contra hopen
    obtain ⟨k, hk⟩ := List.mem_iff_getElem?.mp hmem
    rcases hplaced.kept k session hk (Bool.eq_false_iff.mpr hopen) with ⟨held, hheld, -⟩ | ⟨t, ht, hhand⟩
    · rw [hr, hplaced.away _ htask r rfl] at hheld
      cases hheld
    · -- the task with the session holds the lock, as the one that connects does
      rw [hr] at hhand
      obtain rfl := hcounted.lock_unique ht htask (Task.lock_of_hand hhand) rfl
      cases hhand
  · intro j k first second hj hk hr hfirst hsecond
    have hkeeps := hplaced.kept j first hj hfirst
    rw [hr] at hkeeps
    rcases hkeeps, hplaced.kept k second hk hsecond with ⟨⟨held, hheld, rfl⟩ | ⟨t, ht, hhand⟩,
      ⟨held', hheld', rfl⟩ | ⟨t', ht', hhand'⟩⟩
    · rw [Option.some.inj (hheld.symm.trans hheld')]
    · rw [hplaced.away t' ht' _ (Task.away_of_hand hhand')] at hheld
      cases hheld
    · rw [hplaced.away t ht _ (Task.away_of_hand hhand)] at hheld'
      cases hheld'
    · obtain rfl := hcounted.lock_unique ht ht' (Task.lock_of_hand hhand) (Task.lock_of_hand hhand')
      exact (Prod.mk.inj (Option.some.inj (hhand.symm.trans hhand'))).2

section Example

theorem study_isWellFormed : ReceiverId.isWellFormed "study" = true := by decide

def study : ReceiverId := ⟨"study", study_isWellFormed⟩

def studyPool : Pool := { stored := [(study, "192.0.2.10")] }

/-- A call that takes a lease and drops it, the timer that closes the session, and a call that connects again. -/
def reconnectRun : List PoolAction :=
  [.call study, .advance 0 .ok, .advance 0 .ok, .advance 0 .ok, .advance 0 .ok, .advance 0 .ok, .advance 0 .ok,
    .advance 0 .ok, .advance 0 .ok, .advance 0 .ok, .advance 0 .ok, .advance 1 .ok, .advance 1 .ok, .call study,
    .advance 2 .ok, .advance 2 .ok]

theorem reconnectRun_isSome :
    (pool.execBy (fun s action => leaks s action = false) studyPool reconnectRun).isSome = true := by decide

def reconnecting : Pool := (pool.execBy (fun s action => leaks s action = false) studyPool reconnectRun).get
  reconnectRun_isSome

theorem one_session_reconnecting :
    (∀ r operation host, Task.connecting r operation host ∈ reconnecting.tasks →
      ∀ session ∈ reconnecting.sessions, session.receiver = r → session.closed = true) ∧
    ∀ (j k : ℕ) (first second : Session), reconnecting.sessions[j]? = some first →
      reconnecting.sessions[k]? = some second → first.receiver = second.receiver → first.closed = false →
        second.closed = false → j = k :=
  one_session (Machine.reachableBy_of_execBy studyPool reconnectRun ⟨_, rfl⟩ (Option.some_get _).symm)

/-- A call that is given up while its new session synchronizes, and the next call. -/
def givenUpRun : List PoolAction :=
  [.call study, .advance 0 .ok, .advance 0 .ok, .advance 0 .ok, .advance 0 .ok, .advance 0 .abandon, .call study,
    .advance 1 .ok, .advance 1 .ok, .advance 1 .ok]

/-- **Two sessions of one receiver are open.** -/
theorem not_one_session :
    (pool.exec studyPool givenUpRun).map (fun s => s.sessions) =
      some [⟨study, "192.0.2.10", false⟩, ⟨study, "192.0.2.10", false⟩] := by
  decide

end Example

end DenonAvr.Application.Connections
