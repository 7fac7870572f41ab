import DenonAvr.Application.Ending
import DenonAvr.Library.Draining

/-!
# The service comes to rest

The places of a task have an order: each step takes it to a later one (`rank_lt_of_advance`), so a task takes a bounded
number of steps whatever else happens. The one place at which a task waits for another is the lock of the rebuild, and
who holds it can always go on (`Locked`). So the tasks never wait for each other in a circle, and once nothing new is
submitted they all end, whatever the log, the receiver and the clock answer.
-/

namespace DenonAvr.Application

open Domain Library Policy Session

/-! ### The order of the places -/

/-- The most steps that a task at this place still takes. -/
def Pc.rank : Pc → ℕ
  | .precheck => 18
  | .ledger => 17
  | .rebuilding => 16
  | .readingLog => 15
  | .leasing => 14
  | .deciding => 13
  | .judging _ => 12
  | .allowing _ => 11
  | .recordingDecided _ | .reserving => 10
  | .checking _ | .notingDecided _ _ => 9
  | .recordingDispatching _ | .notingDispatching _ _ => 8
  | .beginning _ _ => 7
  | .calling _ _ => 6
  | .inSession _ => 5
  | .settling _ _ _ | .releasing _ _ | .recordingRefusal _ _ _ => 4
  | .finishing _ _ | .refusing _ => 3
  | .reviewing _ | .withdrawing _ | .recordingRefused _ => 2
  | .recording _ | .closing _ => 1
  | .ended => 0

section Rank
variable {cfg : Settings} {s s' : Service} {id : OperationId} {task : Task} {w : World} {pc : Pc}

theorem Pc.rank_eq_zero : pc.rank = 0 ↔ pc = .ended := by
  cases pc <;> simp [Pc.rank]

theorem Pc.rank_le (pc : Pc) : pc.rank ≤ 18 := by
  cases pc <;> simp [Pc.rank]

theorem rank_judgeStep (label : AgentLabel) (policy : ActivePolicy) :
    (judgeStep cfg s id task.toJob label policy w).2.rank < (Pc.judging policy).rank := by
  unfold judgeStep
  dsimp only
  split <;> simp [Pc.rank]

/-- **A step takes a task to a later place.** -/
theorem rank_lt_of_advance (h : advance cfg s id task w = some (s', pc)) : pc.rank < task.pc.rank := by
  cases advanceStep_of_advance h with
  | judging policy label hpc howner =>
    rw [hpc]
    exact rank_judgeStep label policy
  | precheck hpc | ledger hpc | recordingDecided grant hpc | checking grant hpc | recordingDispatching grant hpc
  | notingDecided state settlement hpc haudit =>
    rw [hpc]
    split_ifs <;> simp [Pc.rank]
  | caughtUp hpc | rebuilding hpc | takenIn records now hpc | unread now hpc | refusing resolution hpc
  | due resolution hpc | skipped resolution hpc | leased label hpc | leasedOperator hpc | unreached label error hpc
  | unreachedOperator error hpc | deciding policy hpc | undecided error hpc | recordingRefusal decision digest resolution hpc
  | allowed grant operations hpc | overtaken grant hpc | releasing settlement resolution hpc | reserving hpc
  | unnoted state settlement hpc | notingDispatching state settlement hpc | begun precondition settlement operations hpc
  | barred precondition settlement hpc | withdrawing settlement hpc | calling precondition settlement hpc
  | inSession settlement shown hpc | settling settlement resolution shown hpc
  | finished resolution shown operations hpc | late resolution shown hpc | reviewing resolution hpc
  | recording resolution hpc | closing resolution hpc =>
    rw [hpc]
    simp [Pc.rank]

end Rank

/-! ### Who waits for whom -/

/-- The places of an agent's task alone. -/
def Pc.ofAgent : Pc → Bool
  | .precheck | .ledger | .rebuilding | .readingLog | .deciding | .judging _ => true
  | _ => false

/-- What a step does to the lock of the rebuild. -/
inductive LockMove (id : OperationId) (task : Task) (s s' : Service) (pc : Pc) : Prop
  | kept (lock : s'.rebuilding = s.rebuilding) (before : task.pc ≠ .readingLog) (after : pc ≠ .readingLog)
  | taken (now : WallTime) (free : s.rebuilding = none) (lock : s'.rebuilding = some (some id, now))
      (before : task.pc ≠ .readingLog) (after : pc = .readingLog)
  | released (held : ∃ now, s.rebuilding = some (some id, now)) (lock : s'.rebuilding = none)
      (before : task.pc = .readingLog) (after : pc ≠ .readingLog)

/-- Whoever holds the lock of the rebuild is reading the log, and who reads it holds the lock. -/
structure Locked (s : Service) : Prop where
  holder : ∀ id now, s.rebuilding = some (some id, now) → ∃ task, s.tasks id = some task ∧ task.pc = .readingLog
  reading : ∀ id task, s.tasks id = some task → task.pc = .readingLog → ∃ now, s.rebuilding = some (some id, now)
  /-- The Operator's tasks do not judge, nor wait for the ledger. -/
  owner : ∀ id task, s.tasks id = some task → task.pc.ofAgent = true → ∃ label, task.owner = .agent label

section Locked
variable {cfg : Settings} {s s' : Service} {id : OperationId} {task : Task} {w : World} {pc : Pc}

theorem judgeStep_lock (label : AgentLabel) (policy : ActivePolicy) :
    (judgeStep cfg s id task.toJob label policy w).1.rebuilding = s.rebuilding ∧
      (judgeStep cfg s id task.toJob label policy w).2 ≠ .readingLog := by
  unfold judgeStep
  dsimp only
  split <;> exact ⟨rfl, by simp⟩

theorem advance_lock (h : advance cfg s id task w = some (s', pc)) : LockMove id task s s' pc := by
  cases advanceStep_of_advance h with
  | rebuilding hpc hfree hready => exact .taken w.now hfree rfl (by simp [hpc]) rfl
  | takenIn records now hpc hheld hlog => exact .released ⟨now, hheld⟩ rfl hpc (by simp)
  | unread now hpc hheld hlog => exact .released ⟨now, hheld⟩ rfl hpc (by simp)
  | judging policy label hpc howner =>
    obtain ⟨hlock, hafter⟩ : (judgeStep cfg s id task.toJob label policy w).1.rebuilding = s.rebuilding ∧
        (judgeStep cfg s id task.toJob label policy w).2 ≠ .readingLog := judgeStep_lock label policy
    exact .kept hlock (by simp [hpc]) hafter
  | precheck hpc | ledger hpc | recordingDecided grant hpc | checking grant hpc | recordingDispatching grant hpc
  | notingDecided state settlement hpc haudit =>
    exact .kept rfl (by simp [hpc]) (by split_ifs <;> simp)
  | caughtUp hpc | refusing resolution hpc | due resolution hpc | skipped resolution hpc | leased label hpc
  | leasedOperator hpc | unreached label error hpc | unreachedOperator error hpc | deciding policy hpc
  | undecided error hpc | recordingRefusal decision digest resolution hpc | allowed grant operations hpc
  | overtaken grant hpc | releasing settlement resolution hpc | reserving hpc | unnoted state settlement hpc
  | notingDispatching state settlement hpc | begun precondition settlement operations hpc
  | barred precondition settlement hpc | withdrawing settlement hpc | calling precondition settlement hpc
  | inSession settlement shown hpc | settling settlement resolution shown hpc
  | finished resolution shown operations hpc | late resolution shown hpc | reviewing resolution hpc
  | recording resolution hpc | closing resolution hpc => exact .kept rfl (by simp [hpc]) (by simp)

/-- Only a task of an agent comes to a place of agents' tasks. -/
theorem ofAgent_of_advance (h : advance cfg s id task w = some (s', pc)) (hpc' : pc.ofAgent = true) :
    task.pc.ofAgent = true ∨ ∃ label, task.owner = .agent label := by
  cases advanceStep_of_advance h with
  | leased label hpc hlease howner => exact .inr ⟨label, howner⟩
  | judging policy label hpc howner => exact .inr ⟨label, howner⟩
  | precheck hpc | ledger hpc | caughtUp hpc | rebuilding hpc | takenIn records now hpc | unread now hpc
  | deciding policy hpc => exact .inl (by rw [hpc]; rfl)
  | recordingDecided | checking | recordingDispatching | notingDecided =>
    split_ifs at hpc' <;> cases hpc'
  | refusing | due | skipped | leasedOperator | unreached | unreachedOperator | undecided | recordingRefusal | allowed
  | overtaken | releasing | reserving | unnoted | notingDispatching | begun | barred | withdrawing | calling | inSession
  | settling | finished | late | reviewing | recording | closing => cases hpc'

theorem Locked.silent (h : Locked s) (hlock : s'.rebuilding = s.rebuilding) (htasks : s'.tasks = s.tasks) : Locked s' :=
  ⟨hlock ▸ htasks ▸ h.holder, hlock ▸ htasks ▸ h.reading, htasks ▸ h.owner⟩

theorem Locked.owner_update (h : Locked s) (htasks : s'.tasks = Function.update s.tasks id (some task))
    (howner : task.pc.ofAgent = true → ∃ label, task.owner = .agent label) :
    ∀ other task', s'.tasks other = some task' → task'.pc.ofAgent = true → ∃ label, task'.owner = .agent label := by
  intro other task' htask' hagent
  rw [htasks] at htask'
  by_cases heq : other = id
  · subst heq
    rw [Function.update_self] at htask'
    obtain rfl := Option.some.inj htask'
    exact howner hagent
  · rw [Function.update_of_ne heq] at htask'
    exact h.owner other task' htask' hagent

/-- A task that is put to a place at which nobody reads the log, by a step that keeps the lock or frees it when that task
held it. -/
theorem Locked.put (h : Locked s) (htasks : s'.tasks = Function.update s.tasks id (some task))
    (hlock : ∀ other now, s'.rebuilding = some (some other, now) ↔ s.rebuilding = some (some other, now) ∧ other ≠ id)
    (hpc : task.pc ≠ .readingLog) (howner : task.pc.ofAgent = true → ∃ label, task.owner = .agent label) : Locked s' := by
  refine ⟨fun other now hheld => ?_, fun other task' htask' hreading => ?_, h.owner_update htasks howner⟩
  · obtain ⟨hheld, hne⟩ := (hlock other now).mp hheld
    rw [htasks, Function.update_of_ne hne]
    exact h.holder other now hheld
  · rw [htasks] at htask'
    by_cases heq : other = id
    · subst heq
      rw [Function.update_self] at htask'
      obtain rfl := Option.some.inj htask'
      exact absurd hreading hpc
    · rw [Function.update_of_ne heq] at htask'
      obtain ⟨now, hheld⟩ := h.reading other task' htask' hreading
      exact ⟨now, (hlock other now).mpr ⟨hheld, heq⟩⟩

theorem Locked.advance (h : Locked s) (htask : s.tasks id = some task) (hadvance : advance cfg s id task w = some (s', pc)) :
    Locked (s'.setTask id { task with pc }) := by
  have htasks : (s'.setTask id { task with pc }).tasks = Function.update s.tasks id (some { task with pc }) := by
    change Function.update s'.tasks _ _ = _
    rw [(advance_frame hadvance).tasks]
  have howner : pc.ofAgent = true → ∃ label, task.owner = .agent label := fun hagent =>
    (ofAgent_of_advance hadvance hagent).elim (h.owner id task htask) fun howner => howner
  cases advance_lock hadvance with
  | kept hlock hbefore hafter =>
    refine h.put htasks (fun other now => ?_) hafter howner
    change s'.rebuilding = _ ↔ _
    rw [hlock]
    refine ⟨fun hheld => ⟨hheld, fun heq => ?_⟩, fun hheld => hheld.1⟩
    subst heq
    obtain ⟨holder, hholder, hreading⟩ := h.holder other now hheld
    obtain rfl := Option.some.inj (htask.symm.trans hholder)
    exact hbefore hreading
  | released hheld hlock hbefore hafter =>
    refine h.put htasks (fun other now => ?_) hafter howner
    change s'.rebuilding = _ ↔ _
    rw [hlock]
    refine ⟨fun hnone => (by cases hnone), fun hother => ?_⟩
    obtain ⟨since, hmine⟩ := hheld
    rw [hmine, Option.some.injEq, Prod.mk.injEq, Option.some.injEq] at hother
    exact absurd hother.1.1.symm hother.2
  | taken now hfree hlock hbefore hafter =>
    refine ⟨fun other since hheld => ?_, fun other task' htask' hreading => ?_, h.owner_update htasks howner⟩
    · change s'.rebuilding = _ at hheld
      rw [hlock, Option.some.injEq, Prod.mk.injEq, Option.some.injEq] at hheld
      obtain ⟨rfl, rfl⟩ := hheld
      exact ⟨_, by rw [htasks, Function.update_self], hafter⟩
    · by_cases heq : other = id
      · subst heq
        exact ⟨now, hlock⟩
      · rw [htasks, Function.update_of_ne heq] at htask'
        obtain ⟨since, hheld⟩ := h.reading other task' htask' hreading
        rw [hfree] at hheld
        cases hheld

/-- Somebody else who read the log frees the lock. -/
theorem Locked.freed (h : Locked s) {now : WallTime} (hheld : s.rebuilding = some (none, now))
    (hlock : s'.rebuilding = none) (htasks : s'.tasks = s.tasks) : Locked s' := by
  refine ⟨fun id since hmine => ?_, fun id task htask hreading => ?_, htasks ▸ h.owner⟩
  · rw [hlock] at hmine
    cases hmine
  · rw [htasks] at htask
    obtain ⟨since, hmine⟩ := h.reading id task htask hreading
    rw [hheld] at hmine
    cases hmine

theorem Locked.step (h : Locked s) (hgated : Gated cfg s) {a : Action} (hstep : s.step cfg a = some s') : Locked s' := by
  cases serviceStep_of_step hstep with
  | submit caller receiver submission now =>
    rcases submit_cases cfg s caller receiver submission now with ⟨writes, hs⟩ | ⟨writes, hs⟩ <;> rw [hs]
    · exact h.silent rfl rfl
    · refine h.put (show _ = Function.update s.tasks (s.operations.nextId + 1) (some _) from rfl)
        (fun other now => ⟨fun hheld => ⟨hheld, fun heq => ?_⟩, fun hheld => hheld.1⟩) ?_ ?_
      · obtain ⟨task, htask, -⟩ := h.holder other now hheld
        exact absurd (heq ▸ hgated.task other task htask) (Nat.not_succ_le_self _)
      · cases caller <;> simp [firstTask]
      · cases caller with
        | agent label => exact fun _ => ⟨label, rfl⟩
        | operator => exact fun hagent => by cases hagent
  | advance id w task next pc htask hadvance =>
    have hmoved := h.advance htask hadvance
    split_ifs
    · exact hmoved.silent rfl rfl
    · exact hmoved
  | panic id task freed htask hlives hfreed =>
    refine h.put (show _ = Function.update s.tasks id (some { task with pc := .ended }) from rfl) (fun other now => ?_)
      (by simp) (fun hagent => by cases hagent)
    change freed = _ ↔ _
    rw [hfreed]
    split_ifs with hmine
    · refine ⟨fun hnone => (by cases hnone), fun hother => absurd ?_ hother.2⟩
      rw [hother.1] at hmine
      simpa using hmine
    · refine ⟨fun hheld => ⟨hheld, fun heq => hmine ?_⟩, fun hheld => hheld.1⟩
      rw [hheld, heq]
      simp
  | rebuildElsewhere now hfree hready =>
    refine ⟨fun id since hheld => (by cases hheld), fun id task htask hreading => ?_, h.owner⟩
    obtain ⟨since, hheld⟩ := h.reading id task htask hreading
    rw [hfree] at hheld
    cases hheld
  | takenIn records now hheld => exact h.freed hheld rfl rfl
  | unread now hheld => exact h.freed hheld rfl rfl
  | cancelled | uncancelled | loadPolicy | noteElsewhere | chargeDryRun | shutdown => exact h.silent rfl rfl

theorem locked_of_reachable (h : (gate cfg).Reachable s) : Locked s := by
  refine Machine.Reachable.invariant (fun s hinit => ?_) (fun s a s' hs hi hstep => hi.step (gated_of_reachable hs) hstep) h
  obtain rfl : s = {} := hinit
  exact ⟨fun _ _ hheld => (by cases hheld), fun _ _ htask => (by cases htask), fun _ _ htask => (by cases htask)⟩

end Locked

/-! ### What is left to do -/

namespace Action

/-- A step of the operation's task. -/
def advances (id : OperationId) : Action → Bool
  | .advance other _ => other == id
  | _ => false

/-- A step of a task, or of somebody else who rebuilds the ledger, with what it finds outside the service. -/
def carriesOn : Action → Bool
  | .advance _ _ | .readElsewhere _ => true
  | _ => false

end Action

namespace Service

/-- The most steps that the task of an operation still takes, and `absent` when it has none. -/
def left (s : Service) (absent : ℕ) (id : OperationId) : ℕ := (s.tasks id).elim absent (·.pc.rank)

/-- The operations whose tasks have not ended. -/
def live (s : Service) : Finset OperationId := (Finset.range (s.operations.nextId + 1)).filter fun id => 0 < s.left 0 id

/-- Whether the ledger is rebuilt by somebody else than a task. -/
def elsewhere (s : Service) : Bool := s.rebuilding.any fun rebuilding => rebuilding.1.isNone

/-- The most steps that the tasks and whoever else rebuilds the ledger still take. -/
def work (s : Service) : ℕ := (∑ id ∈ Finset.range (s.operations.nextId + 1), s.left 0 id) + s.elsewhere.toNat

/-- Nothing is under way. -/
structure AtRest (s : Service) : Prop where
  tasks : ∀ id task, s.tasks id = some task → task.pc = .ended
  inFlight : s.inFlight = 0
  rebuilding : s.rebuilding = none
  entries : ∀ id entry, s.operations.entryOf id = some entry → entry.snapshot.status.isTerminal = true

/-- Somebody can take a step whatever is found outside the service. -/
def CanGoOn (cfg : Settings) (s : Service) : Prop :=
  (∃ id, ∀ w, (s.step cfg (.advance id w)).isSome = true) ∨ ∀ log, (s.step cfg (.readElsewhere log)).isSome = true

end Service

/-- What a step does to the tasks. -/
inductive TaskMove (s s' : Service) (a : Action) : Prop
  | kept (quiet : ∀ id, a.advances id = false) (tasks : s'.tasks = s.tasks)
      (nextId : s'.operations.nextId = s.operations.nextId) (inFlight : s'.inFlight = s.inFlight)
  | begun (task : Task) (quiet : ∀ id, a.advances id = false) (lives : task.pc ≠ .ended)
      (tasks : s'.tasks = Function.update s.tasks (s.operations.nextId + 1) (some task))
      (nextId : s'.operations.nextId = s.operations.nextId + 1) (inFlight : s'.inFlight = s.inFlight + 1)
  | moved (id : OperationId) (task : Task) (pc : Pc) (own : ∀ other, a.advances other = true → other = id)
      (before : s.tasks id = some task) (later : pc.rank < task.pc.rank)
      (tasks : s'.tasks = Function.update s.tasks id (some { task with pc }))
      (nextId : s'.operations.nextId = s.operations.nextId)
      (inFlight : s'.inFlight = if pc = .ended then s.inFlight - 1 else s.inFlight)

section Work
variable {cfg : Settings} {s s' : Service} {id : OperationId} {task : Task} {w : World} {pc : Pc} {a : Action}

theorem inFlight_judgeStep (label : AgentLabel) (policy : ActivePolicy) :
    (judgeStep cfg s id task.toJob label policy w).1.inFlight = s.inFlight := by
  unfold judgeStep
  dsimp only
  split <;> rfl

theorem inFlight_of_advance (h : advance cfg s id task w = some (s', pc)) : s'.inFlight = s.inFlight := by
  cases advanceStep_of_advance h with
  | judging policy label hpc howner => exact inFlight_judgeStep label policy
  | _ => rfl

theorem nextId_endTask (s : Service) (id : OperationId) : (s.endTask id).operations.nextId = s.operations.nextId := by
  change ((s.operations.dropTask id).getD s.operations).nextId = _
  cases hdrop : s.operations.dropTask id with
  | none => rfl
  | some dropped => exact Operations.nextId_transition hdrop

theorem taskMove_of_step (hstep : s.step cfg a = some s') : TaskMove s s' a := by
  cases serviceStep_of_step hstep with
  | submit caller receiver submission now =>
    rcases submit_cases cfg s caller receiver submission now with ⟨writes, hs⟩ | ⟨writes, hs⟩ <;> rw [hs]
    · exact .kept (fun _ => rfl) rfl rfl rfl
    · refine .begun (firstTask caller receiver submission.intent) (fun _ => rfl) ?_ rfl ?_ rfl
      · cases caller <;> simp [firstTask]
      · exact congrArg (· + 1) (s.operations.evictFinished_spec cfg.retained).1
  | cancelled viewer id operations snapshot hcancel =>
    obtain ⟨entry, -, -, -, hmoved⟩ := Operations.cancel_eq_ok hcancel
    exact .kept (fun _ => rfl) rfl (Operations.nextId_transition hmoved) rfl
  | advance id w task next pc htask hadvance =>
    have hframe := advance_frame hadvance
    have htasks : (next.setTask id { task with pc }).tasks = Function.update s.tasks id (some { task with pc }) := by
      change Function.update next.tasks _ _ = _
      rw [hframe.tasks]
    have hown : ∀ other, (Action.advance id w).advances other = true → other = id := fun other hother =>
      (beq_iff_eq.mp hother).symm
    refine .moved id task pc hown htask (rank_lt_of_advance hadvance) ?_ ?_ ?_
    · split_ifs <;> exact htasks
    · split_ifs
      · exact (nextId_endTask _ id).trans hframe.nextId
      · exact hframe.nextId
    · rw [← inFlight_of_advance hadvance]
      split_ifs <;> rfl
  | panic id task freed htask hlives hfreed =>
    refine .moved id task .ended (fun _ hother => by cases hother) htask ?_ rfl (nextId_endTask _ id) rfl
    exact Nat.pos_of_ne_zero fun hzero => hlives (Pc.rank_eq_zero.mp hzero)
  | _ => exact .kept (fun _ => rfl) rfl rfl rfl

theorem left_of_task {absent : ℕ} (h : s.tasks id = some task) : s.left absent id = task.pc.rank := by
  rw [Service.left, h]
  rfl

theorem left_of_none {absent : ℕ} (h : s.tasks id = none) : s.left absent id = absent := by
  rw [Service.left, h]
  rfl

/-- No step brings a task back to where it was, and one of its own takes it on. -/
theorem left_of_step (h : (gate cfg).Reachable s) (hstep : s.step cfg a = some s') :
    s'.left Pc.precheck.rank id + (if a.advances id then 1 else 0) ≤ s.left Pc.precheck.rank id := by
  cases taskMove_of_step hstep with
  | kept hquiet htasks =>
    rw [hquiet id]
    simp [Service.left, htasks]
  | begun task hquiet hlives htasks hnextId hinFlight =>
    rw [hquiet id]
    by_cases heq : id = s.operations.nextId + 1
    · have hnone : s.tasks id = none := by
        by_contra hsome
        obtain ⟨old, hold⟩ := Option.ne_none_iff_exists'.mp hsome
        exact absurd (heq ▸ (gated_of_reachable h).task id old hold) (Nat.not_succ_le_self _)
      have hnew : s'.tasks id = some task := by rw [htasks, heq, Function.update_self]
      rw [left_of_none hnone, left_of_task hnew]
      exact task.pc.rank_le
    · simp [Service.left, htasks, Function.update_of_ne heq]
  | moved other task pc hown hbefore hlater htasks hnextId hinFlight =>
    by_cases heq : id = other
    · subst heq
      have hafter : s'.tasks id = some { task with pc } := by rw [htasks, Function.update_self]
      rw [left_of_task hbefore, left_of_task hafter]
      split_ifs <;> dsimp only <;> omega
    · have hother : a.advances id = false := eq_false_of_ne_true fun hmine => heq (hown id hmine)
      rw [hother]
      simp [Service.left, htasks, Function.update_of_ne heq]

/-! ### The tasks that have not ended -/

theorem mem_live (h : (gate cfg).Reachable s) : id ∈ s.live ↔ ∃ task, s.tasks id = some task ∧ task.pc ≠ .ended := by
  rw [Service.live, Finset.mem_filter, Finset.mem_range, Nat.lt_succ_iff]
  constructor
  · rintro ⟨-, hleft⟩
    cases htask : s.tasks id with
    | none =>
      rw [left_of_none htask] at hleft
      exact absurd hleft (Nat.lt_irrefl 0)
    | some task =>
      rw [left_of_task htask, Nat.pos_iff_ne_zero, ne_eq, Pc.rank_eq_zero] at hleft
      exact ⟨task, rfl, hleft⟩
  · rintro ⟨task, htask, hlives⟩
    refine ⟨(gated_of_reachable h).task id task htask, ?_⟩
    rw [left_of_task htask, Nat.pos_iff_ne_zero, ne_eq, Pc.rank_eq_zero]
    exact hlives

theorem inFlight_eq (h : (gate cfg).Reachable s) : s.inFlight = s.live.card := by
  refine (Machine.Reachable.invariant (I := fun s => (gate cfg).Reachable s ∧ s.inFlight = s.live.card) (fun s hinit => ?_)
    (fun s a s' hs hi hstep => ⟨.step hs trivial hstep, ?_⟩) h).2
  · refine ⟨.init hinit, ?_⟩
    obtain rfl : s = {} := hinit
    rfl
  · have hs' : (gate cfg).Reachable s' := .step hs trivial hstep
    cases taskMove_of_step hstep with
    | kept hquiet htasks hnextId hinFlight =>
      have hlive : s'.live = s.live := by
        ext id
        rw [mem_live hs, mem_live hs', htasks]
      rw [hinFlight, hlive, hi.2]
    | begun task hquiet hlives htasks hnextId hinFlight =>
      have hlive : s'.live = insert (s.operations.nextId + 1) s.live := by
        ext id
        rw [Finset.mem_insert, mem_live hs, mem_live hs', htasks]
        by_cases heq : id = s.operations.nextId + 1
        · subst heq
          simp [hlives]
        · simp [heq]
      have hnew : s.operations.nextId + 1 ∉ s.live := by
        rw [mem_live hs]
        rintro ⟨old, hold, -⟩
        exact absurd ((gated_of_reachable hs).task _ old hold) (Nat.not_succ_le_self _)
      rw [hinFlight, hlive, Finset.card_insert_of_notMem hnew, hi.2]
    | moved id task pc hown hbefore hlater htasks hnextId hinFlight =>
      have hmem : id ∈ s.live := (mem_live hs).mpr ⟨task, hbefore, fun hended => by
        rw [hended] at hlater
        cases hlater⟩
      have hlive : s'.live = if pc = .ended then s.live.erase id else s.live := by
        ext other
        rw [mem_live hs', htasks]
        by_cases heq : other = id
        · subst heq
          split_ifs with hended <;> simp [hended, hmem]
        · rw [Function.update_of_ne heq, ← mem_live hs]
          split_ifs <;> simp [heq]
      rw [hinFlight, hlive]
      split_ifs
      · rw [Finset.card_erase_of_mem hmem, hi.2]
      · exact hi.2

/-! ### Running down -/

theorem elsewhere_of_advance (h : advance cfg s id task w = some (s', pc)) : s'.elsewhere = s.elsewhere := by
  unfold Service.elsewhere
  cases advance_lock h with
  | kept hlock => rw [hlock]
  | taken now hfree hlock => simp [hfree, hlock]
  | released hheld hlock =>
    obtain ⟨since, hmine⟩ := hheld
    simp [hmine, hlock]

/-- Every step of work leaves less of it. -/
theorem work_lowers (cfg : Settings) : (gate cfg).Lowers (fun a => a.carriesOn = true) Service.work := by
  intro s a s' hs hwork hstep
  change s.step cfg a = some s' at hstep
  cases a with
  | advance id w =>
    cases serviceStep_of_step hstep with
    | advance _ _ task next pc htask hadvance =>
      have hlater := rank_lt_of_advance hadvance
      generalize hresult : (if pc = .ended then (next.setTask id { task with pc }).endTask id
        else next.setTask id { task with pc }) = result
      have htasks : result.tasks = Function.update s.tasks id (some { task with pc }) := by
        rw [← hresult, ← (advance_frame hadvance).tasks]
        split_ifs <;> rfl
      have hnextId : result.operations.nextId = s.operations.nextId := by
        rw [← hresult, ← (advance_frame hadvance).nextId]
        split_ifs
        · exact nextId_endTask _ id
        · rfl
      have helsewhere : result.elsewhere = s.elsewhere := by
        rw [← hresult, ← elsewhere_of_advance hadvance]
        split_ifs <;> rfl
      have hmine : result.left 0 id < s.left 0 id := by
        rw [left_of_task htask, left_of_task (by rw [htasks, Function.update_self])]
        exact hlater
      have hothers : ∀ other, result.left 0 other ≤ s.left 0 other := by
        intro other
        by_cases heq : other = id
        · subst heq
          exact hmine.le
        · simp [Service.left, htasks, Function.update_of_ne heq]
      have hsum : ∑ other ∈ Finset.range (s.operations.nextId + 1), result.left 0 other <
          ∑ other ∈ Finset.range (s.operations.nextId + 1), s.left 0 other :=
        Finset.sum_lt_sum (fun other _ => hothers other)
          ⟨id, Finset.mem_range.mpr (Nat.lt_succ_of_le ((gated_of_reachable hs).task id task htask)), hmine⟩
      unfold Service.work
      rw [hnextId, helsewhere]
      omega
  | readElsewhere log =>
    cases serviceStep_of_step hstep with
    | takenIn records now hheld =>
      have hbefore : s.elsewhere = true := by simp [Service.elsewhere, hheld]
      unfold Service.work
      rw [hbefore]
      exact Nat.lt_succ_self _
    | unread now hheld =>
      have hbefore : s.elsewhere = true := by simp [Service.elsewhere, hheld]
      unfold Service.work
      rw [hbefore]
      exact Nat.lt_succ_self _
  | _ => cases hwork

/-- What is left to do, by the service's own count of the tasks. -/
theorem work_le (h : (gate cfg).Reachable s) : s.work ≤ 18 * s.inFlight + 1 := by
  have hsum : ∑ id ∈ Finset.range (s.operations.nextId + 1), s.left 0 id = ∑ id ∈ s.live, s.left 0 id := by
    unfold Service.live
    rw [Finset.sum_filter]
    refine Finset.sum_congr rfl fun id _ => ?_
    split_ifs with hleft
    · rfl
    · omega
  have hbound : ∑ id ∈ s.live, s.left 0 id ≤ s.live.card * 18 := by
    refine Finset.sum_le_card_nsmul _ _ _ fun id hmem => ?_
    obtain ⟨task, htask, -⟩ := (mem_live h).mp hmem
    rw [left_of_task htask]
    exact task.pc.rank_le
  have helsewhere : s.elsewhere.toNat ≤ 1 := Bool.toNat_le _
  unfold Service.work
  rw [hsum, inFlight_eq h]
  omega

/-- A task that has not ended takes its next step whatever it finds, unless it waits for the lock of the rebuild. -/
theorem advance_isSome (hlocked : Locked s) (htask : s.tasks id = some task) (hlives : task.pc ≠ .ended)
    (hwaits : task.pc = .rebuilding → s.rebuilding = none) (w : World) : (advance cfg s id task w).isSome = true := by
  have howner : task.pc.ofAgent = true → ∃ label, task.owner = .agent label := hlocked.owner id task htask
  cases hpc : task.pc with
  | ended => exact absurd hpc hlives
  | rebuilding =>
    simp only [advance, hpc, hwaits hpc, Option.isSome_none, Bool.false_eq_true, if_false]
    split_ifs <;> rfl
  | readingLog =>
    obtain ⟨now, hheld⟩ := hlocked.reading id task htask hpc
    simp only [advance, hpc, hheld, if_true]
    split <;> rfl
  | judging policy =>
    obtain ⟨label, hlabel⟩ := howner (by rw [hpc]; rfl)
    simp only [advance, hpc, hlabel]
    rfl
  | _ =>
    simp only [advance, hpc]
    first
      | rfl
      | split <;> rfl

theorem advance_isSome_step (htask : s.tasks id = some task) (h : (advance cfg s id task w).isSome = true) :
    (s.step cfg (.advance id w)).isSome = true := by
  obtain ⟨⟨next, pc⟩, hadvance⟩ := Option.isSome_iff_exists.mp h
  simp [Service.step, htask, hadvance]

/-- Either nothing is under way, or somebody can go on. -/
theorem atRest_or_canGoOn (h : (gate cfg).Reachable s) : s.AtRest ∨ s.CanGoOn cfg := by
  have hlocked := locked_of_reachable h
  by_cases hwaiting : ∃ id task, s.tasks id = some task ∧ task.pc ≠ .ended
  · obtain ⟨id, task, htask, hlives⟩ := hwaiting
    refine .inr ?_
    by_cases hfree : s.rebuilding = none
    · exact .inl ⟨id, fun w => advance_isSome_step htask (advance_isSome hlocked htask hlives (fun _ => hfree) w)⟩
    · obtain ⟨⟨holder, now⟩, hheld⟩ := Option.ne_none_iff_exists'.mp hfree
      cases holder with
      | none => exact .inr fun log => by cases log <;> simp [Service.step, hheld]
      | some reader =>
        -- The task that holds the lock goes on, whatever the others wait for.
        obtain ⟨task, htask, hreading⟩ := hlocked.holder reader now hheld
        refine .inl ⟨reader, fun w => advance_isSome_step htask (advance_isSome hlocked htask ?_ ?_ w)⟩ <;> simp [hreading]
  · push Not at hwaiting
    cases hlock : s.rebuilding with
    | none =>
      refine .inl ⟨hwaiting, ?_, hlock, fun id entry hentry => ?_⟩
      · rw [inFlight_eq h, Finset.card_eq_zero, Finset.eq_empty_iff_forall_notMem]
        intro id hmem
        obtain ⟨task, htask, hlives⟩ := (mem_live h).mp hmem
        exact hlives (hwaiting id task htask)
      · obtain ⟨task, htask, hended⟩ := (gateKept_of_reachable h).ended id entry hentry
        exact hended (hwaiting id task htask)
    | some held =>
      obtain ⟨holder, now⟩ := held
      cases holder with
      | none => exact .inr (.inr fun log => by cases log <;> simp [Service.step, hlock])
      | some reader =>
        obtain ⟨task, htask, hreading⟩ := hlocked.holder reader now hlock
        rw [hwaiting reader task htask] at hreading
        cases hreading

/-- **The service comes to rest.** In every run an operation's task takes at most 18 steps, whatever the other tasks, the
log, the receiver and the clocks do. From every reachable state, as long as something is under way somebody can go on
whatever is found outside the service, and once nothing new comes in a run is over after 18 steps for each task that is
counted as running, and one for a rebuild: then every task has ended and every operation that is kept is over. -/
theorem service_comes_to_rest (cfg : Settings) (s : Service) (h : (gate cfg).Reachable s) :
    (∀ id acts s', (gate cfg).exec s acts = some s' → acts.countP (Action.advances id) ≤ 18) ∧
      (s.AtRest ∨ s.CanGoOn cfg) ∧
      (∀ acts s', (∀ a ∈ acts, a.carriesOn = true) → (gate cfg).exec s acts = some s' →
        acts.length ≤ 18 * s.inFlight + 1) ∧
      ∃ acts s', (∀ a ∈ acts, a.carriesOn = true) ∧ (gate cfg).exec s acts = some s' ∧ s'.AtRest := by
  refine ⟨fun id acts s' hexec => ?_, atRest_or_canGoOn h, fun acts s' hwork hexec => ?_, ?_⟩
  · have hcount : acts.countP (Action.advances id) + s'.left Pc.precheck.rank id ≤ s.left Pc.precheck.rank id :=
      Machine.countP_add_le (fun _ _ _ hs hstep => left_of_step hs hstep) h hexec
    have hleft : s.left Pc.precheck.rank id ≤ 18 := by
      unfold Service.left
      cases s.tasks id with
      | none => exact le_rfl
      | some task => exact task.pc.rank_le
    omega
  · have hlength := (work_lowers cfg).length_add_le h hwork hexec
    have hle := work_le h
    omega
  · obtain ⟨acts, s', hwork, hexec, hidle⟩ := (work_lowers cfg).exists_idle h
    refine ⟨acts, s', hwork, hexec, (atRest_or_canGoOn (h.exec hexec)).resolve_right ?_⟩
    rintro (⟨id, hgoes⟩ | hgoes)
    · have hnone : s'.step cfg (.advance id quietWorld) = none := hidle (.advance id quietWorld) rfl
      simpa [hnone] using hgoes quietWorld
    · have hnone : s'.step cfg (.readElsewhere none) = none := hidle (.readElsewhere none) rfl
      simpa [hnone] using hgoes none

/-- With one write under way. -/
theorem service_comes_to_rest_quietWrite : (quietWrite.AtRest ∨ quietWrite.CanGoOn gateSettings) ∧
    ∃ acts s', (∀ a ∈ acts, a.carriesOn = true) ∧ (gate gateSettings).exec quietWrite acts = some s' ∧ s'.AtRest := by
  obtain ⟨-, hgoes, -, hrests⟩ := service_comes_to_rest gateSettings quietWrite
    (reachable_afterWrite (Option.some_get _).symm)
  exact ⟨hgoes, hrests⟩

end Work

end DenonAvr.Application
