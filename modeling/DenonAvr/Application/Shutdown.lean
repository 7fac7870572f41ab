import DenonAvr.Application.OneSession

/-!
# Shutdown

`shutdown` closes the service, waits for the operations in flight, and closes the sessions slot by slot. Behind it a
slot is quiet: it has no session, nobody holds its lock, and as the service is closed nobody takes it. A slot that is
made later is quiet as well (`Known`). So once a call of `shutdown` has returned there is nothing left to open, close or
operate (`shutdown_final`), as long as no task is given up with a session in its hands.
-/

namespace DenonAvr.Application.Connections

open Domain Library Library.Tally

/-! ### The slots there are -/

/-- The slots the task is at or will come to. -/
def Task.slots : Task → List ReceiverId
  | closing r _ (.save _ rest) => r :: rest
  | closing r _ (.shutdown rest) => r :: rest
  | retiring _ todo => todo
  | draining _ r rest => r :: rest
  | visiting todo => todo
  | task => task.place.toList

@[simp] theorem Task.slots_callOver (operation : Bool) : (callOver operation).slots = [] := by cases operation <;> rfl

theorem Task.slots_next (agenda : Agenda) (r : ReceiverId) (session : ℕ) :
    agenda.next.slots ⊆ (closing r session agenda).slots := by
  cases agenda with
  | call operation =>
    rw [show (Agenda.call operation).next.slots = [] from slots_callOver operation]
    exact List.nil_subset _
  | idle => exact List.nil_subset _
  | save saved rest => exact List.subset_cons_self r rest
  | shutdown rest => exact List.subset_cons_self r rest

theorem Task.mem_slots_of_place {task : Task} {r : ReceiverId} (h : task.place = some r) : r ∈ task.slots := by
  cases task with
  | closing r' session agenda =>
    obtain rfl := Option.some.inj h
    cases agenda <;> exact List.mem_cons_self
  | retiring saved todo =>
    cases todo with
    | nil => cases h
    | cons r' rest =>
      obtain rfl := Option.some.inj h
      exact List.mem_cons_self
  | visiting todo =>
    cases todo with
    | nil => cases h
    | cons r' rest =>
      obtain rfl := Option.some.inj h
      exact List.mem_cons_self
  | draining saved r' rest =>
    obtain rfl := Option.some.inj h
    exact List.mem_cons_self
  | _ => exact Option.mem_toList.mpr h

/-- Tasks are at slots that exist, and the others are as they were made. -/
structure Pool.Known (s : Pool) : Prop where
  tasks : ∀ task ∈ s.tasks, task.slots ⊆ s.known
  held : ∀ r ∉ s.known, (s.slots r).held = none

section Local
variable {closed : Bool} {address : Option String} {fresh : ℕ} {choice : Choice} {slot : Slot} {task : Task}
  {out : Outcome} {r r' : ReceiverId}

theorem SlotStep.slots (h : SlotStep closed address fresh slot choice task out) : out.task.slots ⊆ task.slots := by
  cases h with
  | close choice r session agenda => exact Task.slots_next agenda r session
  | refuse choice r operation => exact (Task.slots_callOver operation) ▸ List.nil_subset _
  | identifyFails choice r operation => exact (Task.slots_callOver operation) ▸ List.nil_subset _
  | connectFails choice r operation => exact (Task.slots_callOver operation) ▸ List.nil_subset _
  | dropLease choice r operation => exact (Task.slots_callOver operation) ▸ List.nil_subset _
  | armTimer r operation => exact (Task.slots_callOver operation) ▸ List.nil_subset _
  | noRuntime choice r operation => exact (Task.slots_callOver operation) ▸ List.nil_subset _
  | _ => simp [Task.slots, Task.place]

end Local

section Pool
variable {s s' : Pool} {action : PoolAction} {i : ℕ} {choice : Choice} {task : Task} {out : Outcome} {r : ReceiverId}

theorem OtherStep.known {next : Pool} {task' : Task} (h : OtherStep s choice task next task') :
    s.known ⊆ next.known ∧ (task.slots ⊆ s.known → task'.slots ⊆ next.known) := by
  cases h with
  | lease choice r hopen hknown => exact ⟨List.Subset.refl _, fun _ => List.cons_subset.mpr ⟨hknown, List.nil_subset _⟩⟩
  | resolve choice r operation =>
    show s.known ⊆ (if r ∈ s.known then s.known else s.known ++ [r]) ∧
      (_ → [r] ⊆ (if r ∈ s.known then s.known else s.known ++ [r]))
    split_ifs with hknown
    · exact ⟨List.Subset.refl _, fun _ => List.cons_subset.mpr ⟨hknown, List.nil_subset _⟩⟩
    · exact ⟨List.subset_append_left _ _, fun _ => List.subset_append_right _ _⟩
  | resolveFails choice r operation =>
    exact ⟨List.Subset.refl _, fun _ => (Task.slots_callOver operation) ▸ List.nil_subset _⟩
  | list saved todo horder => exact ⟨List.Subset.refl _, fun _ => horder.subset⟩
  | visit todo hidle horder => exact ⟨List.Subset.refl _, fun _ => horder.subset⟩
  | _ => exact ⟨List.Subset.refl _, fun _ => List.nil_subset _⟩

/-- **Only receivers that exist get a slot.** -/
theorem known_of_reachable (h : pool.Reachable s) : s.Known := by
  refine h.invariant ?_ ?_
  · rintro _ ⟨stored, rfl⟩
    exact ⟨fun _ ht => (List.not_mem_nil ht).elim, fun _ _ => rfl⟩
  · intro s action s' hreach hknown hstep
    have hspawn : ∀ task : Task, task.slots ⊆ s.known → ∀ t ∈ s.tasks ++ [task], t.slots ⊆ s.known := by
      intro task htask t ht
      rcases List.mem_append.mp ht with hold | hnew
      · exact hknown.tasks t hold
      · rwa [List.mem_singleton.mp hnew]
    cases poolStep_of_step hstep with
    | call r hopen hr => exact ⟨hspawn _ (List.cons_subset.mpr ⟨hr, List.nil_subset _⟩), hknown.held⟩
    | callUnknown r => exact ⟨hspawn _ (List.nil_subset _), hknown.held⟩
    | submit r => exact ⟨hspawn _ (List.nil_subset _), hknown.held⟩
    | save saved => exact ⟨hspawn _ (List.nil_subset _), hknown.held⟩
    | shutdown => exact ⟨hspawn _ (List.nil_subset _), hknown.held⟩
    | registerAdHoc r host => exact ⟨hknown.tasks, hknown.held⟩
    | atSlot i choice task r out htask hplace hslot =>
      have hmem := List.mem_of_getElem? htask
      have hr : r ∈ s.known := hknown.tasks task hmem (Task.mem_slots_of_place hplace)
      refine ⟨fun t ht => ?_, fun r' hr' => ?_⟩
      · rcases mem_tasks_apply ht with rfl | hold | ⟨armedAt, -, rfl⟩
        · exact List.Subset.trans hslot.slots (hknown.tasks task hmem)
        · exact hknown.tasks t hold
        · exact List.cons_subset.mpr ⟨hr, List.nil_subset _⟩
      · have hne : r' ≠ r := by
          rintro rfl
          exact hr' hr
        rw [slots_apply_of_ne hne]
        exact hknown.held r' hr'
    | elsewhere i choice task next task' htask hplace hother =>
      obtain ⟨hslots, htasks, -⟩ := hother.frame
      obtain ⟨hmore, hnew⟩ := hother.known
      refine ⟨fun t ht => ?_, fun r hr => ?_⟩
      · have ht : t ∈ next.tasks.set i task' := ht
        rw [htasks] at ht
        rcases List.mem_or_eq_of_mem_set ht with hold | rfl
        · exact List.Subset.trans (hknown.tasks t hold) hmore
        · exact hnew (hknown.tasks task (List.mem_of_getElem? htask))
      · show (next.slots r).held = none
        rw [hslots]
        exact hknown.held r fun hold => hr (hmore hold)
    | expire k session hsession hlost => exact ⟨hknown.tasks, hknown.held⟩

theorem Pool.Known.locked_eq_false (h : s.Known) (hcounted : s.Counted) (hr : r ∉ s.known) :
    (s.slots r).locked = false := by
  by_contra hlocked
  have hpos : 0 < s.tasks.countP (Task.holds Task.lock r) := by
    rw [hcounted.lock, Bool.eq_true_of_not_eq_false hlocked]
    exact Nat.one_pos
  obtain ⟨task, hmem, hholds⟩ := List.countP_pos_iff.mp hpos
  exact hr (h.tasks task hmem (Task.mem_slots_of_place (Task.place_of_lock (of_decide_eq_true hholds))))

end Pool

/-! ### Behind a shutdown -/

/-- Nothing is open or at work at the slot. -/
structure Slot.Quiet (slot : Slot) : Prop where
  held : slot.held = none
  free : slot.locked = false

/-- The service is closed, no operation is in flight, and all slots but these are quiet. -/
structure Pool.Silent (s : Pool) (todo : List ReceiverId) : Prop where
  closed : s.closed = true
  idle : s.inFlight = 0
  quiet : ∀ r ∉ todo, (s.slots r).Quiet

/-- The slots that a call of `shutdown` has not yet been at. -/
def Task.remaining : Task → Option (List ReceiverId)
  | visiting todo => some todo
  | closing r _ (.shutdown rest) => some (r :: rest)
  | _ => none

@[simp] theorem Task.remaining_callOver (operation : Bool) : (callOver operation).remaining = none := by
  cases operation <;> rfl

structure Pool.Shut (s : Pool) : Prop where
  shutting : Task.shutting ∈ s.tasks → s.closed = true
  remaining : ∀ task ∈ s.tasks, ∀ todo, task.remaining = some todo → s.Silent todo
  left : s.left = true → s.Silent []

section Local
variable {closed : Bool} {address : Option String} {fresh : ℕ} {choice : Choice} {slot : Slot} {task : Task}
  {out : Outcome} {r : ReceiverId}

/-- A quiet slot of a closed service stays quiet. -/
theorem SlotStep.quiet (h : SlotStep closed address fresh slot choice task out) (hclosed : closed = true)
    (hquiet : slot.Quiet) (hlock : task.lock = none) : out.slot.Quiet := by
  have hsome : ∀ held, slot.held ≠ some held := fun held hheld => by rw [hquiet.held] at hheld; cases hheld
  cases h with
  | connect choice r operation hfree hopen => rw [hclosed] at hopen; cases hopen
  | take choice r operation held hfree hopen => rw [hclosed] at hopen; cases hopen
  | timerCloses choice r armedAt held hfree hleases hactivity hheld => exact absurd hheld (hsome held)
  | drain choice saved r rest held hsaved hfree hheld => exact absurd hheld (hsome held)
  | shutDown choice r rest held hfree hheld => exact absurd hheld (hsome held)
  | _ => first
    | exact ⟨hquiet.held, hquiet.free⟩
    | cases hlock

theorem SlotStep.not_shutting (h : SlotStep closed address fresh slot choice task out) : out.task ≠ .shutting := by
  have hover : ∀ operation, callOver operation ≠ .shutting := by
    intro operation
    cases operation <;> exact nofun
  cases h with
  | close choice r session agenda =>
    cases agenda with
    | call operation => exact hover operation
    | _ => exact nofun
  | _ => first
    | exact hover _
    | exact nofun

theorem SlotStep.operates (h : SlotStep closed address fresh slot choice task out) (hevent : out.event = .operated) :
    out.task.inFlight = true := by
  cases h <;> first
    | rfl
    | cases hevent

/-- A call of `shutdown` goes on to the next slot and leaves this one quiet. -/
theorem SlotStep.remaining (h : SlotStep closed address fresh slot choice task out) (hplace : task.place = some r)
    (haway : task.away ≠ none → slot.held = none) {todo : List ReceiverId} (hout : out.task.remaining = some todo) :
    task.remaining = some todo ∨ task.remaining = some (r :: todo) ∧ out.slot.Quiet := by
  cases h with
  | close choice r' session agenda =>
    obtain rfl := Option.some.inj hplace
    cases agenda with
    | shutdown rest =>
      obtain rfl := Option.some.inj hout
      exact .inr ⟨rfl, haway nofun, rfl⟩
    | call operation => cases (Task.remaining_callOver operation).symm.trans hout
    | idle => cases hout
    | save saved rest => cases hout
  | shutDown choice r' rest held => exact .inl hout
  | pass choice r' rest hfree hheld =>
    obtain rfl := Option.some.inj hplace
    obtain rfl := Option.some.inj hout
    exact .inr ⟨rfl, hheld, hfree⟩
  | _ => first
    | cases hout
    | cases (Task.remaining_callOver _).symm.trans hout

end Local

section Pool
variable {s s' : Pool} {action : PoolAction} {i : ℕ} {choice : Choice} {task : Task} {out : Outcome} {r : ReceiverId}
  {todo : List ReceiverId}

/-- What steps elsewhere do about `shutdown`. -/
theorem OtherStep.shut {next : Pool} {task' : Task} (h : OtherStep s choice task next task') :
    next.closed = s.closed ∧ task' ≠ .shutting ∧
      (∀ todo, task'.remaining = some todo → task = .shutting ∧ s.inFlight = 0 ∧ todo.Perm s.known) ∧
        (next.left = true → s.left = true ∨ task = .visiting []) := by
  cases h with
  | resolveFails choice r operation =>
    refine ⟨rfl, by cases operation <;> exact nofun, fun todo htodo => ?_, .inl⟩
    cases (Task.remaining_callOver operation).symm.trans htodo
  | visit todo hidle horder =>
    exact ⟨rfl, nofun, fun todo' htodo => by obtain rfl := Option.some.inj htodo; exact ⟨rfl, hidle, horder⟩, .inl⟩
  | leave choice => exact ⟨rfl, nofun, nofun, fun _ => .inr rfl⟩
  | _ => exact ⟨rfl, nofun, nofun, .inl⟩

theorem Pool.Silent.apply (h : s.Silent todo) (hcounted : s.Counted) (htask : s.tasks[i]? = some task)
    (hplace : task.place = some r)
    (hstep : SlotStep s.closed (s.address r) s.sessions.length (s.slots r) choice task out) :
    (s.apply i r out).Silent todo := by
  refine ⟨h.closed, h.idle, fun r' hr' => ?_⟩
  by_cases hr : r' = r
  · subst hr
    rw [slots_apply_self]
    refine hstep.quiet h.closed (h.quiet r' hr') ?_
    by_contra hlock
    have hlocked := (hcounted.backed htask hplace).lock hlock
    rw [(h.quiet r' hr').free] at hlocked
    cases hlocked
  · rw [slots_apply_of_ne hr]
    exact h.quiet r' hr'

theorem Pool.Silent.elsewhere (h : s.Silent todo) {next : Pool} {task' : Task}
    (hstep : OtherStep s choice task next task') : Pool.Silent { next with tasks := next.tasks.set i task' } todo := by
  cases hstep with
  | finish choice => exact ⟨h.closed, by rw [h.idle], h.quiet⟩
  | _ => exact ⟨h.closed, h.idle, h.quiet⟩

theorem Pool.Silent.spawn (h : s.Silent todo) : (s.spawn task).Silent todo := ⟨h.closed, h.idle, h.quiet⟩

theorem Pool.Silent.step (h : s.Silent todo) (hcounted : s.Counted) (hstep : PoolStep s action s') : s'.Silent todo := by
  cases hstep with
  | call r hopen => rw [h.closed] at hopen; cases hopen
  | callUnknown r hopen => rw [h.closed] at hopen; cases hopen
  | submit r hopen => rw [h.closed] at hopen; cases hopen
  | save saved => exact ⟨h.closed, h.idle, h.quiet⟩
  | shutdown => exact ⟨rfl, h.idle, h.quiet⟩
  | registerAdHoc r host => exact ⟨h.closed, h.idle, h.quiet⟩
  | atSlot i choice task r out htask hplace hslot => exact h.apply hcounted htask hplace hslot
  | elsewhere i choice task next task' htask hplace hother => exact h.elsewhere hother
  | expire k session hsession hlost => exact ⟨h.closed, h.idle, h.quiet⟩

theorem Pool.Shut.spawn (h : s.Shut) {pool' : Pool} (htasks : pool'.tasks = s.tasks) (hleft : pool'.left = s.left)
    (hclosed : s.closed = true → pool'.closed = true) (hsilent : ∀ todo, s.Silent todo → pool'.Silent todo)
    (hshutting : task = .shutting → pool'.closed = true) (hremaining : task.remaining = none) :
    (pool'.spawn task).Shut := by
  have hmem : ∀ t ∈ (pool'.spawn task).tasks, t ∈ s.tasks ∨ t = task := by
    intro t ht
    have ht : t ∈ pool'.tasks ++ [task] := ht
    rwa [htasks, List.mem_append, List.mem_singleton] at ht
  refine ⟨fun ht => ?_, fun t ht todo htodo => ?_, fun hl => ?_⟩
  · rcases hmem _ ht with hold | hnew
    · exact hclosed (h.shutting hold)
    · exact hshutting hnew.symm
  · rcases hmem t ht with hold | rfl
    · exact (hsilent todo (h.remaining t hold todo htodo)).spawn
    · rw [hremaining] at htodo
      cases htodo
  · exact (hsilent [] (h.left (hleft ▸ hl))).spawn

theorem Pool.Shut.apply (h : s.Shut) (hcounted : s.Counted) (hplaced : s.Placed) (htask : s.tasks[i]? = some task)
    (hplace : task.place = some r)
    (hstep : SlotStep s.closed (s.address r) s.sessions.length (s.slots r) choice task out) :
    (s.apply i r out).Shut := by
  have hmem := List.mem_of_getElem? htask
  have haway := hplaced.away_held htask hplace
  refine ⟨fun ht => ?_, fun t ht todo htodo => ?_, fun hl => (h.left hl).apply hcounted htask hplace hstep⟩
  · rcases mem_tasks_apply ht with hout | hold | ⟨armedAt, -, hsleeping⟩
    · exact absurd hout.symm hstep.not_shutting
    · exact h.shutting hold
    · cases hsleeping
  · rcases mem_tasks_apply ht with rfl | hold | ⟨armedAt, -, rfl⟩
    · rcases hstep.remaining hplace haway htodo with hsame | ⟨hbefore, hquiet⟩
      · exact (h.remaining task hmem todo hsame).apply hcounted htask hplace hstep
      · -- this slot is quiet now, and those before it were
        have hsilent := (h.remaining task hmem (r :: todo) hbefore).apply hcounted htask hplace hstep
        refine ⟨hsilent.closed, hsilent.idle, fun r' hr' => ?_⟩
        by_cases hr : r' = r
        · rw [hr, slots_apply_self]
          exact hquiet
        · exact hsilent.quiet r' fun hin => (List.mem_cons.mp hin).elim hr hr'
    · exact (h.remaining t hold todo htodo).apply hcounted htask hplace hstep
    · cases htodo

theorem Pool.Shut.elsewhere (h : s.Shut) (hcounted : s.Counted) (hknown : s.Known) {next : Pool} {task' : Task}
    (htask : s.tasks[i]? = some task) (hstep : OtherStep s choice task next task') :
    Pool.Shut { next with tasks := next.tasks.set i task' } := by
  have hmem := List.mem_of_getElem? htask
  have hset : ∀ t ∈ next.tasks.set i task', t ∈ s.tasks ∨ t = task' := by
    intro t ht
    rw [hstep.frame.2.1] at ht
    exact List.mem_or_eq_of_mem_set ht
  obtain ⟨hclosed, hshutting, hremaining, hleft⟩ := hstep.shut
  refine ⟨fun ht => ?_, fun t ht todo htodo => ?_, fun hl => ?_⟩
  · rcases hset _ ht with hold | hnew
    · exact hclosed.trans (h.shutting hold)
    · exact absurd hnew.symm hshutting
  · rcases hset t ht with hold | rfl
    · exact (h.remaining t hold todo htodo).elsewhere hstep
    · obtain ⟨rfl, hidle, horder⟩ := hremaining todo htodo
      refine Pool.Silent.elsewhere ⟨h.shutting hmem, hidle, fun r hr => ?_⟩ hstep
      have hr : r ∉ s.known := fun hin => hr (horder.mem_iff.mpr hin)
      exact ⟨hknown.held r hr, hknown.locked_eq_false hcounted hr⟩
  · rcases hleft hl with hold | rfl
    · exact (h.left hold).elsewhere hstep
    · exact (h.remaining _ hmem [] rfl).elsewhere hstep

/-- **Behind a shutdown all slots are quiet.** -/
theorem shut_of_reachableBy (h : pool.ReachableBy (fun s action => leaks s action = false) s) : s.Shut := by
  refine h.invariant ?_ ?_
  · rintro _ ⟨stored, rfl⟩
    exact ⟨fun ht => (List.not_mem_nil ht).elim, fun _ ht => (List.not_mem_nil ht).elim, nofun⟩
  · intro s action s' hreach hkept hshut hstep
    have hcounted := counted_of_reachable hreach.reachable
    cases poolStep_of_step hstep with
    | call r hopen => exact hshut.spawn rfl rfl id (fun _ => id) nofun rfl
    | callUnknown r hopen => exact hshut.spawn rfl rfl id (fun _ => id) nofun rfl
    | submit r hopen =>
      refine hshut.spawn rfl rfl id (fun _ hsilent => ?_) nofun rfl
      rw [hsilent.closed] at hopen
      cases hopen
    | save saved => exact hshut.spawn rfl rfl id (fun _ => id) nofun rfl
    | shutdown =>
      exact hshut.spawn rfl rfl (fun _ => rfl) (fun _ hsilent => ⟨rfl, hsilent.idle, hsilent.quiet⟩) (fun _ => rfl) rfl
    | registerAdHoc r host =>
      exact ⟨hshut.shutting, fun t ht todo htodo => (hshut.remaining t ht todo htodo).step hcounted (poolStep_of_step hstep),
        fun hl => (hshut.left hl).step hcounted (poolStep_of_step hstep)⟩
    | atSlot i choice task r out htask hplace hslot =>
      exact hshut.apply hcounted (placed_of_reachableBy hreach) htask hplace hslot
    | elsewhere i choice task next task' htask hplace hother =>
      exact hshut.elsewhere hcounted (known_of_reachable hreach.reachable) htask hother
    | expire k session hsession hlost =>
      exact ⟨hshut.shutting, fun t ht todo htodo => (hshut.remaining t ht todo htodo).step hcounted (poolStep_of_step hstep),
        fun hl => (hshut.left hl).step hcounted (poolStep_of_step hstep)⟩

end Pool

/-- What `shutdown` leaves behind. -/
structure Pool.Same (s s' : Pool) : Prop where
  left : s'.left = true
  sessions : s'.sessions.length = s.sessions.length
  admitted : s'.admitted = s.admitted
  operates : s'.operates = s.operates

section Final
variable {s s' : Pool} {action : PoolAction}

/-- Nothing is admitted, opened or operated behind a shutdown. -/
theorem Pool.Same.step (hleft : s.left = true) (hsilent : s.Silent []) (hcounted : s.Counted)
    (hstep : PoolStep s action s') : s.Same s' := by
  have hcounted' := hcounted.step hstep
  have hsilent' := hsilent.step hcounted hstep
  cases hstep with
  | call r hopen => rw [hsilent.closed] at hopen; cases hopen
  | callUnknown r hopen => rw [hsilent.closed] at hopen; cases hopen
  | submit r hopen => rw [hsilent.closed] at hopen; cases hopen
  | save saved => exact ⟨hleft, rfl, rfl, rfl⟩
  | shutdown => exact ⟨hleft, rfl, rfl, rfl⟩
  | registerAdHoc r host => exact ⟨hleft, rfl, rfl, rfl⟩
  | atSlot i choice task r out htask hplace hslot =>
    have hmem : out.task ∈ (s.apply i r out).tasks := mem_set_append_self htask
    refine ⟨hleft, ?_, rfl, ?_⟩
    · show (out.event.sessions r s.sessions).length = _
      cases hevent : out.event with
      | opened host =>
        -- the task with the new session holds the lock
        have hlocked := hcounted'.locked hmem (Task.lock_of_hand (hslot.opened hplace hevent))
        rw [(hsilent'.quiet r List.not_mem_nil).free] at hlocked
        cases hlocked
      | closed session => exact List.length_modify ..
      | none => rfl
      | operated => rfl
    · show (if out.event = .operated then _ else _) = _
      refine if_neg fun hevent => ?_
      have hflight := hcounted'.inFlight_eq_false hsilent'.idle hmem
      rw [hslot.operates hevent] at hflight
      cases hflight
  | elsewhere i choice task next task' htask hplace hother =>
    cases hother with
    | leave choice => exact ⟨rfl, rfl, rfl, rfl⟩
    | _ => exact ⟨hleft, rfl, rfl, rfl⟩
  | expire k session hsession hlost => exact ⟨hleft, List.length_modify .., rfl, rfl⟩

end Final

/-- **Shutdown is final**: from when a call of `shutdown` has returned, every session is closed, and no session is
opened, no submission admitted and no `operate` called. -/
theorem shutdown_final {s s' : Pool} (h : pool.ReachableBy (fun s action => leaks s action = false) s)
    (hleft : s.left = true) {actions : List PoolAction}
    (hexec : pool.execBy (fun s action => leaks s action = false) s actions = some s') :
    (∀ session ∈ s'.sessions, session.closed = true) ∧ s'.sessions.length = s.sessions.length ∧
      s'.admitted = s.admitted ∧ s'.operates = s.operates := by
  obtain ⟨hreach, hsame⟩ := h.execBy_invariant (I := s.Same) (fun m action m' hm _ hsame hstep => by
    have hnext := Pool.Same.step hsame.left ((shut_of_reachableBy hm).left hsame.left)
      (counted_of_reachable hm.reachable) (poolStep_of_step hstep)
    exact ⟨hnext.left, hnext.sessions.trans hsame.sessions, hnext.admitted.trans hsame.admitted,
      hnext.operates.trans hsame.operates⟩) ⟨hleft, rfl, rfl, rfl⟩ hexec
  refine ⟨fun session hmem => ?_, hsame.sessions, hsame.admitted, hsame.operates⟩
  have hsilent := (shut_of_reachableBy hreach).left hsame.left
  by_contra hopen
  obtain ⟨k, hk⟩ := List.mem_iff_getElem?.mp hmem
  have hquiet := hsilent.quiet session.receiver List.not_mem_nil
  rcases (placed_of_reachableBy hreach).kept k session hk (Bool.eq_false_iff.mpr hopen) with ⟨held, hheld, -⟩ |
    ⟨task, ht, hhand⟩
  · rw [hquiet.held] at hheld
    cases hheld
  · have hlocked := (counted_of_reachable hreach.reachable).locked ht (Task.lock_of_hand hhand)
    rw [hquiet.free] at hlocked
    cases hlocked

section Example

/-- A call has its lease, an operation is admitted; `shutdown` waits for the operation, closes the session and returns. -/
def shutdownRun : List PoolAction :=
  [.call study, .advance 0 .ok, .advance 0 .ok, .advance 0 .ok, .advance 0 .ok, .advance 0 .ok, .submit study,
    .shutdown, .advance 1 .ok, .advance 1 .ok, .advance 2 (.order [study]), .advance 2 .ok, .advance 2 .ok,
    .advance 2 .ok]

theorem shutdownRun_isSome :
    (pool.execBy (fun s action => leaks s action = false) studyPool shutdownRun).isSome = true := by decide

def shutDown : Pool := (pool.execBy (fun s action => leaks s action = false) studyPool shutdownRun).get
  shutdownRun_isSome

theorem shutDown_left : shutDown.left = true := by decide

/-- The lease is dropped only now, and the configuration is saved once more. -/
def afterRun : List PoolAction := [.advance 0 .ok, .save [], .advance 3 .ok]

theorem afterRun_isSome :
    (pool.execBy (fun s action => leaks s action = false) shutDown afterRun).isSome = true := by decide

def afterShutdown : Pool := (pool.execBy (fun s action => leaks s action = false) shutDown afterRun).get afterRun_isSome

theorem execBy_afterRun :
    pool.execBy (fun s action => leaks s action = false) shutDown afterRun = some afterShutdown :=
  (Option.some_get _).symm

theorem shutdown_final_study :
    (∀ session ∈ afterShutdown.sessions, session.closed = true) ∧
      afterShutdown.sessions.length = shutDown.sessions.length ∧ afterShutdown.admitted = shutDown.admitted ∧
        afterShutdown.operates = shutDown.operates :=
  shutdown_final (Machine.reachableBy_of_execBy studyPool shutdownRun ⟨_, rfl⟩ (Option.some_get _).symm) shutDown_left
    execBy_afterRun

/-- A call is given up while its new session synchronizes, then the service is shut down. -/
def leakedRun : List PoolAction :=
  [.call study, .advance 0 .ok, .advance 0 .ok, .advance 0 .ok, .advance 0 .ok, .advance 0 .abandon, .shutdown,
    .advance 1 (.order [study]), .advance 1 .ok, .advance 1 .ok]

/-- **`shutdown` has returned and a session is open.** -/
theorem not_shutdown_final :
    (pool.exec studyPool leakedRun).map (fun s => (s.left, s.sessions)) =
      some (true, [⟨study, "192.0.2.10", false⟩]) := by
  decide

end Example

end DenonAvr.Application.Connections
