import DenonAvr.Application.Lifecycle
import DenonAvr.Application.WriteGate

/-!
# The end of an operation

What holds of an operation from its admission to its end, whoever changes it: the table's part, for every order of
its calls, and the gate's, where the calls are those of the tasks (`lifecycle_kept`). The gate changes the table by
the table's own calls (`gate_simulates_table`), so that what holds of every run of the table holds of the gate's.

`Visit` is what a step of the service may do to one operation and `Course` what a step of its task does, by the place
of the task. `Standing` is what is known of the status of an operation by the stage its task is at.
-/

namespace DenonAvr.Application

open Domain Library Policy Session

/-! ### Runs of the table -/

section Table
variable {limits : AgentLimits} {retained : ℕ} {operations operations' later : Operations} {id : OperationId}
  {entry entry' : Entry} {acts : List TableAction}

/-- A snapshot that is terminal stays as it is. -/
theorem ended_stays (h : (table limits retained).Reachable operations) (hentry : operations.entryOf id = some entry)
    (hended : entry.snapshot.status.isTerminal = true)
    (hexec : (table limits retained).exec operations acts = some later) (hlater : later.entryOf id = some entry') :
    entry' = entry := by
  have htidy := tidy_of_reachable h
  obtain ⟨old, hold, -, hsame⟩ := remains_of_exec htidy (htidy.ordered id entry hentry).1 hexec entry' hlater
  obtain rfl := Option.some.inj (hentry.symm.trans hold)
  exact hsame hended

/-- An operation that is running is where the lifecycle says. -/
def Operations.Running (operations : Operations) : Prop :=
  ∀ id entry, operations.entryOf id = some entry → entry.snapshot.status.isTerminal = false →
    entry.snapshot.status = .submitted ∧ entry.owner ≠ .operator ∨ entry.snapshot.status = .allowed ∨
      entry.snapshot.status = .inSession

theorem Operations.Running.step (h : operations.Running) (hordered : operations.Ordered) {a : TableAction}
    (hstep : operations.step limits retained a = some operations') : operations'.Running := by
  intro id entry' hentry' hrunning
  cases turn_of_step hordered hstep id with
  | same hsame => exact h id entry' (hsame ▸ hentry') hrunning
  | changed entry snapshot hbefore hafter hchange =>
    obtain rfl := Option.some.inj (hafter.symm.trans hentry')
    have hlifecycle := hchange.lifecycle
    dsimp only at hrunning ⊢
    generalize entry.snapshot.status = before, snapshot.status = after at hlifecycle hrunning
    cases hlifecycle with
    | allowed => exact .inr (.inl rfl)
    | inSession => exact .inr (.inr rfl)
    | ended _ hterminal =>
      rw [hterminal] at hrunning
      cases hrunning
  | evicted entry hbefore hafter hended =>
    rw [hafter] at hentry'
    cases hentry'
  | new entry hid hnext hbefore hafter hentry hstatus hdispatch =>
    obtain rfl := Option.some.inj (hafter.symm.trans hentry')
    cases howner : entry.owner with
    | operator => exact .inr (.inl (by rw [hstatus, howner]; rfl))
    | agent label => exact .inl ⟨by rw [hstatus, howner]; rfl, by simp⟩

theorem running_of_reachable (h : (table limits retained).Reachable operations) : operations.Running := by
  refine Machine.Reachable.invariant (I := Operations.Running) (fun operations hinit => ?_)
    (fun _ _ _ hreached hi hstep => hi.step (tidy_of_reachable hreached).ordered hstep) h
  obtain rfl : operations = {} := hinit
  exact fun id entry hentry => by cases hentry

theorem step_cancel {viewer : Principal} {snapshot : OperationSnapshot}
    (h : operations.cancel viewer id = .ok (operations', snapshot)) :
    operations.step limits retained (.cancel viewer id) = some operations' := by
  simp only [Operations.step, h]

/-- What a withdrawal that succeeds leaves. -/
theorem entryOf_of_cancel {viewer : Principal} {snapshot : OperationSnapshot}
    (h : operations.cancel viewer id = .ok (operations', snapshot)) :
    ∃ entry, operations.entryOf id = some entry ∧ entry.snapshot.status.isCancellable = true ∧
      snapshot = { entry.snapshot with status := .cancelled } ∧
      operations'.entryOf id = some { entry with snapshot } := by
  obtain ⟨entry, hentry, hcancellable, rfl, hmoved⟩ := Operations.cancel_eq_ok h
  obtain ⟨current, snapshot, hcurrent, hchange, rfl⟩ := Operations.transition_eq_some hmoved
  obtain rfl := Option.some.inj (hentry.symm.trans hcurrent)
  rw [if_pos hcancellable] at hchange
  obtain rfl := Option.some.inj hchange
  exact ⟨entry, hentry, hcancellable, rfl, AList.lookup_insert _⟩

theorem OperationStatus.running_of_isCancellable {status : OperationStatus} (h : status.isCancellable = true) :
    status.isTerminal = false := by
  cases status <;> first | rfl | cases h

/-- Once an operation can no longer be withdrawn, it cannot be later. -/
theorem pastCancel_of_exec (htidy : operations.Tidy) (hid : id ≤ operations.nextId) (h : operations.PastCancel id)
    (hexec : (table limits retained).exec operations acts = some later) : later.PastCancel id := by
  have hrun := Machine.exec_induction (table limits retained)
    (P := fun _ reached => reached.PastCancel id ∧ reached.Tidy ∧ id ≤ reached.nextId) ⟨h, htidy, hid⟩
    (fun acts reached a next _ ⟨hpast, htidy, hle⟩ hstep => ⟨?_, htidy.step hstep, hle.trans (nextId_le_of_step hstep)⟩)
    hexec
  · exact hrun.1
  · intro status hstatus
    obtain ⟨entry', hentry', rfl⟩ := Operations.statusOf_eq_some.mp hstatus
    cases turn_of_step htidy.ordered hstep id with
    | same hsame => exact hpast _ (Operations.statusOf_eq_some.mpr ⟨entry', hsame ▸ hentry', rfl⟩)
    | changed entry snapshot hbefore hafter hchange =>
      obtain rfl := Option.some.inj (hafter.symm.trans hentry')
      have hold := hpast _ (Operations.statusOf_eq_some.mpr ⟨entry, hbefore, rfl⟩)
      have hlifecycle := hchange.lifecycle
      dsimp only
      generalize entry.snapshot.status = before, snapshot.status = after at hlifecycle hold
      cases hlifecycle with
      | allowed => cases hold
      | inSession => rfl
      | ended _ hterminal => exact OperationStatus.isCancellable_of_isTerminal hterminal
    | evicted entry hbefore hafter hended =>
      rw [hafter] at hentry'
      cases hentry'
    | new entry hnew hnext hbefore hafter hentry hstatus hdispatch =>
      subst hnew
      exact absurd hle (Nat.not_succ_le_self _)

/-- What holds of a table from now on. -/
structure TableKept (limits : AgentLimits) (retained : ℕ) (operations : Operations) : Prop where
  /-- A terminal snapshot never changes again. -/
  ended : ∀ id entry acts later entry', operations.entryOf id = some entry →
    entry.snapshot.status.isTerminal = true → (table limits retained).exec operations acts = some later →
      later.entryOf id = some entry' → entry' = entry
  /-- Every change of a status follows the lifecycle, from the status a new operation has. -/
  lifecycle : ∀ a operations', operations.step limits retained a = some operations' → ∀ id,
    Turn operations operations' id
  running : operations.Running
  /-- An operation that was withdrawn does not enter the session, and nothing was dispatched for it. -/
  cancelled : ∀ viewer id operations' snapshot, operations.cancel viewer id = .ok (operations', snapshot) →
    snapshot.status = .cancelled ∧ snapshot.dispatch = .notDispatched ∧
      ∀ acts later, (table limits retained).exec operations' acts = some later → later.beginSession id = none ∧
        ∀ entry, later.entryOf id = some entry → entry.snapshot = snapshot
  /-- An operation that has entered the session is not withdrawn. -/
  begun : ∀ id operations', operations.beginSession id = some operations' →
    ∀ acts later, (table limits retained).exec operations' acts = some later → ∀ viewer answer,
      later.cancel viewer id ≠ .ok answer
  /-- An operation whose task is dropped is over. -/
  dropped : ∀ id entry, ((operations.dropTask id).getD operations).entryOf id = some entry →
    entry.snapshot.status.isTerminal = true

theorem isTerminal_of_dropTask (hentry : ((operations.dropTask id).getD operations).entryOf id = some entry) :
    entry.snapshot.status.isTerminal = true := by
  cases hdrop : operations.dropTask id with
  | some dropped =>
    rw [hdrop, Option.getD_some] at hentry
    obtain ⟨after, hafter, hterminal⟩ := Operations.dropTask_spec hdrop
    obtain ⟨other, hother, rfl⟩ := Operations.statusOf_eq_some.mp hafter
    obtain rfl := Option.some.inj (hother.symm.trans hentry)
    exact hterminal
  | none =>
    rw [hdrop, Option.getD_none] at hentry
    unfold Operations.dropTask Operations.transition at hdrop
    rw [hentry] at hdrop
    by_contra hrunning
    simp [hrunning] at hdrop

theorem tableKept_of_reachable (h : (table limits retained).Reachable operations) :
    TableKept limits retained operations := by
  have htidy := tidy_of_reachable h
  refine ⟨fun id entry acts later entry' hentry hended hexec hlater => ended_stays h hentry hended hexec hlater,
    fun a operations' hstep id => turn_of_step htidy.ordered hstep id, running_of_reachable h,
    fun viewer id operations' snapshot hcancel => ?_, fun id operations' hbegin acts later hexec viewer answer hanswer => ?_,
    fun id entry hentry => isTerminal_of_dropTask hentry⟩
  · obtain ⟨entry, hentry, hcancellable, rfl, hafter⟩ := entryOf_of_cancel hcancel
    have hstep : operations.step limits retained (.cancel viewer id) = some operations' := step_cancel hcancel
    have hreached : (table limits retained).Reachable operations' :=
      .step (a := .cancel viewer id) h trivial hstep
    refine ⟨rfl, htidy.fresh id entry hentry (OperationStatus.running_of_isCancellable hcancellable),
      fun acts later hexec => ⟨?_, fun entry' hlater => ?_⟩⟩
    · cases hbegin : later.beginSession id with
      | none => rfl
      | some begun =>
        have hallowed := (Operations.moveFrom_spec hbegin).1
        obtain ⟨entry', hlater, hstatus⟩ := Operations.statusOf_eq_some.mp hallowed
        rw [ended_stays hreached hafter rfl hexec hlater] at hstatus
        cases hstatus
    · rw [ended_stays hreached hafter rfl hexec hlater]
  · obtain ⟨hbefore, hafter⟩ := Operations.moveFrom_spec hbegin
    have hstep : operations.step limits retained (.beginSession id) = some operations' := by
      simp only [Operations.step, hbegin, Option.getD_some]
    have hreached : (table limits retained).Reachable operations' :=
      .step (a := .beginSession id) h trivial hstep
    obtain ⟨entry', hentry', -⟩ := Operations.statusOf_eq_some.mp hafter
    have htidy' := tidy_of_reachable hreached
    have hpast := pastCancel_of_exec htidy' (htidy'.ordered id entry' hentry').1
      (Operations.pastCancel_of_statusOf hafter rfl) hexec
    obtain ⟨snapshotTable, snapshot⟩ := answer
    obtain ⟨current, hcurrent, hcancellable, -⟩ := entryOf_of_cancel hanswer
    rw [hpast _ (Operations.statusOf_eq_some.mpr ⟨current, hcurrent, rfl⟩)] at hcancellable
    cases hcancellable

end Table

/-! ### The gate changes the table by the table's calls -/

section Simulation
variable {cfg : Settings} {s s' : Service} {id : OperationId} {task : Task}

/-- What a request does to the table. -/
theorem submit_operations (cfg : Settings) (s : Service) (caller : Principal) (receiver : ReceiverId)
    (submission : OperationSubmission) (now : Instant) :
    (s.submit cfg caller receiver submission now).1.operations = s.operations ∨
      (s.submit cfg caller receiver submission now).1.operations =
        (s.operations.submit cfg.limits cfg.retained caller receiver submission s.writes now).1 := by
  unfold Service.submit
  split_ifs
  · exact .inl rfl
  · refine .inr ?_
    unfold Operations.submit
    rcases admitRequest cfg.limits cfg.retained s.operations s.writes caller receiver submission now with
      ⟨operations, writes, error | snapshot | snapshot⟩ <;> rfl

/-- A step of a task is a call of the table, or none. -/
theorem exec_of_frame (h : Frame cfg id task s s')
    (hterminal : ∀ resolution, task.pc.resolution? = some resolution → resolution.status.isTerminal = true) :
    ∃ acts, (table cfg.limits cfg.retained).exec s.operations acts = some s'.operations := by
  cases h.table with
  | same hoperations _ => exact ⟨[], congrArg some hoperations.symm⟩
  | allowed hmove _ =>
    refine ⟨[.allow id], ?_⟩
    rw [Machine.exec_singleton]
    show s.operations.step cfg.limits cfg.retained (.allow id) = _
    simp only [Operations.step, hmove, Option.getD_some]
  | begun hbegin _ =>
    refine ⟨[.beginSession id], ?_⟩
    rw [Machine.exec_singleton]
    show s.operations.step cfg.limits cfg.retained (.beginSession id) = _
    simp only [Operations.step, hbegin, Option.getD_some]
  | finished resolution hplace hfinish _ =>
    obtain ⟨planned, hplanned, hstatus⟩ := Option.map_eq_some_iff.mp hplace
    refine ⟨[.finish id resolution], ?_⟩
    rw [Machine.exec_singleton]
    show s.operations.step cfg.limits cfg.retained (.finish id resolution) = _
    simp only [Operations.step, ← hstatus, hterminal planned hplanned, if_true, hfinish, Option.getD_some]

/-- A step of the gate is a run of the table's. -/
theorem exec_of_step (h : (gate cfg).Reachable s) {a : Action} (hstep : s.step cfg a = some s') :
    ∃ acts, (table cfg.limits cfg.retained).exec s.operations acts = some s'.operations := by
  have hdrop : ∀ (operations : Operations) id, (table cfg.limits cfg.retained).exec operations [.dropTask id] =
      some ((operations.dropTask id).getD operations) := fun _ _ => rfl
  cases serviceStep_of_step hstep with
  | submit caller receiver submission now =>
    rcases submit_operations cfg s caller receiver submission now with hsame | hsubmit
    · exact ⟨[], congrArg some hsame.symm⟩
    · exact ⟨[.submit caller receiver submission s.writes now], congrArg some hsubmit.symm⟩
  | cancelled viewer id operations snapshot hcancel =>
    refine ⟨[.cancel viewer id], ?_⟩
    rw [Machine.exec_singleton]
    have hcall : s.operations.step cfg.limits cfg.retained (.cancel viewer id) = some operations := step_cancel hcancel
    exact hcall
  | advance id w task next pc htask hadvance =>
    obtain ⟨acts, hexec⟩ := exec_of_frame (advance_frame hadvance) ((gated_of_reachable h).proper id task htask).terminal
    split_ifs
    · refine ⟨acts ++ [.dropTask id], ?_⟩
      rw [Machine.exec_append, hexec]
      exact hdrop _ id
    · exact ⟨acts, hexec⟩
  | panic id => exact ⟨[.dropTask id], hdrop _ id⟩
  | shutdown => exact ⟨[.close], rfl⟩
  | uncancelled | loadPolicy | noteElsewhere | chargeDryRun | rebuildElsewhere | takenIn | unread => exact ⟨[], rfl⟩

/-- The gate's operations are the table's. -/
theorem gate_simulates_table (cfg : Settings) :
    Machine.Simulates (gate cfg) (table cfg.limits cfg.retained) fun s operations => operations = s.operations := by
  refine ⟨fun s hinit => ⟨{}, rfl, by rw [show s = {} from hinit]⟩, ?_⟩
  rintro s a s' _ hs - rfl hstep
  obtain ⟨acts, hexec⟩ := exec_of_step hs hstep
  exact ⟨acts, _, hexec, rfl⟩

theorem table_of_gate (h : (gate cfg).Reachable s) : (table cfg.limits cfg.retained).Reachable s.operations := by
  obtain ⟨operations, hreached, rfl⟩ := (gate_simulates_table cfg).reachable h
  exact hreached

end Simulation

/-! ### What a step does to one operation -/

/-- The event is about the operation: its task made it, or a cancellation of it won. -/
def Event.About (event : Event) (id : OperationId) : Prop := event.task? = some id ∨ event = .withdrawn id

/-- What a step of the service does to one operation and its task. -/
inductive Visit (cfg : Settings) (a : Action) (s s' : Service) (id : OperationId) : Prop
  | untouched (tasks : s'.tasks id = s.tasks id)
      (entry : s'.operations.entryOf id = s.operations.entryOf id ∨
        s'.operations.entryOf id = none ∧ s.operations.finished id = true)
      (keeps : ∀ event ∈ s.trace, event ∈ s'.trace)
      (adds : ∀ event ∈ s'.trace, event.About id → event ∈ s.trace)
  | new (caller : Principal) (receiver : ReceiverId) (intent : ReceiverIntent) (entry : Entry)
      (hid : id = s.operations.nextId + 1) (tasks : s'.tasks id = some (firstTask caller receiver intent))
      (hentry : s'.operations.entryOf id = some entry)
      (hstatus : entry.snapshot.status = Operations.firstStatus caller) (trace : s'.trace = s.trace)
  | cancelled (viewer : Principal) (snapshot : OperationSnapshot)
      (hcancel : s.operations.cancel viewer id = .ok (s'.operations, snapshot)) (tasks : s'.tasks id = s.tasks id)
      (trace : s'.trace = s.trace ++ [.withdrawn id])
  | advanced (task : Task) (w : World) (next : Service) (pc : Pc) (haction : a = .advance id w)
      (htask : s.tasks id = some task) (hadvance : advance cfg s id task w = some (next, pc))
      (tasks : s'.tasks id = some { task with pc }) (trace : s'.trace = next.trace)
      (operations : s'.operations =
        if pc = .ended then (next.operations.dropTask id).getD next.operations else next.operations)
  | panicked (task : Task) (htask : s.tasks id = some task) (hrunning : task.pc ≠ .ended)
      (tasks : s'.tasks id = some { task with pc := .ended }) (trace : s'.trace = s.trace)
      (operations : s'.operations = (s.operations.dropTask id).getD s.operations)

section Visit
variable {cfg : Settings} {s s' : Service} {id : OperationId} {task : Task} {a : Action}

theorem entryOf_dropTask_getD_of_ne {operations : Operations} {other : OperationId} (hne : id ≠ other) :
    ((operations.dropTask other).getD operations).entryOf id = operations.entryOf id := by
  cases hdrop : operations.dropTask other with
  | none => rfl
  | some dropped => exact Operations.entryOf_transition_of_ne hdrop hne

theorem Visit.elsewhere (htasks : s'.tasks = s.tasks) (hentries : s'.operations.entries = s.operations.entries)
    (htrace : s'.trace = s.trace ∨ ∃ event, s'.trace = s.trace ++ [event] ∧ ∀ id, ¬ event.About id) :
    Visit cfg a s s' id := by
  refine .untouched (congrFun htasks id) (.inl ?_) (fun event hmem => ?_) fun event hmem habout => ?_
  · unfold Operations.entryOf
    rw [hentries]
  · rcases htrace with hsame | ⟨added, hadded, -⟩
    · exact hsame ▸ hmem
    · rw [hadded]
      exact List.mem_append_left _ hmem
  · rcases htrace with hsame | ⟨added, hadded, hnot⟩
    · exact hsame ▸ hmem
    · rw [hadded, List.mem_append, List.mem_singleton] at hmem
      exact hmem.resolve_right fun heq => hnot id (heq ▸ habout)

theorem visit_submit (caller : Principal) (receiver : ReceiverId) (submission : OperationSubmission) (now : Instant) :
    Visit cfg a s (s.submit cfg caller receiver submission now).1 id := by
  rcases submit_cases cfg s caller receiver submission now with ⟨writes, hs⟩ | ⟨writes, hs⟩
  · rw [hs]
    exact .elsewhere rfl rfl (.inl rfl)
  rw [hs]
  by_cases heq : id = s.operations.nextId + 1
  · subst heq
    exact .new caller receiver submission.intent _ rfl (Function.update_self _ _ _)
      (entryOf_addEvicted _ _ _ _ _ _) rfl rfl
  · exact .untouched (Function.update_of_ne heq _ _) (entryOf_addEvicted_of_ne _ _ _ _ heq) (fun _ hmem => hmem)
      fun _ hmem _ => hmem

theorem visit_cancel {viewer : Principal} {other : OperationId} {operations : Operations}
    {snapshot : OperationSnapshot} (hcancel : s.operations.cancel viewer other = .ok (operations, snapshot)) :
    Visit cfg a s ({ s with operations }.note (.withdrawn other)) id := by
  by_cases heq : id = other
  · subst heq
    exact .cancelled viewer snapshot hcancel rfl rfl
  · obtain ⟨-, -, -, -, hmoved⟩ := Operations.cancel_eq_ok hcancel
    refine .untouched rfl (.inl (Operations.entryOf_transition_of_ne hmoved heq))
      (fun event hmem => List.mem_append_left _ hmem) fun event hmem habout => ?_
    rcases List.mem_append.mp hmem with hmem | hmem
    · exact hmem
    · obtain rfl := List.mem_singleton.mp hmem
      rcases habout with htask | hwithdrawn
      · cases htask
      · exact absurd (Event.withdrawn.inj hwithdrawn).symm heq

theorem visit_advance {other : OperationId} {w : World} {next : Service} {pc : Pc} (htask : s.tasks other = some task)
    (hadvance : advance cfg s other task w = some (next, pc)) :
    let moved := next.setTask other { task with pc }
    Visit cfg (.advance other w) s (if pc = .ended then moved.endTask other else moved) id := by
  have hframe := advance_frame hadvance
  by_cases heq : id = other
  · subst heq
    have htasks : (next.setTask id { task with pc }).tasks id = some { task with pc } := Function.update_self _ _ _
    refine .advanced task w next pc rfl htask hadvance ?_ ?_ ?_ <;> split_ifs <;>
      first | rfl | exact htasks
  · have htasks : (next.setTask other { task with pc }).tasks id = s.tasks id := by
      rw [← hframe.tasks]
      exact Function.update_of_ne heq _ _
    have hentry : (if pc = .ended then (next.setTask other { task with pc }).endTask other
        else next.setTask other { task with pc }).operations.entryOf id = s.operations.entryOf id := by
      split_ifs
      · exact (entryOf_dropTask_getD_of_ne heq).trans (hframe.entryOf heq)
      · exact hframe.entryOf heq
    have htrace : (if pc = .ended then (next.setTask other { task with pc }).endTask other
        else next.setTask other { task with pc }).trace = next.trace := by
      split_ifs <;> rfl
    refine .untouched ?_ (.inl hentry) (fun event hmem => ?_) fun event hmem habout => ?_
    · split_ifs <;> exact htasks
    · rw [htrace]
      rcases hframe.trace with hsame | ⟨added, hadded, -⟩
      · exact hsame ▸ hmem
      · rw [hadded]
        exact List.mem_append_left _ hmem
    · rw [htrace] at hmem
      rcases hframe.trace with hsame | ⟨added, hadded, hby⟩
      · exact hsame ▸ hmem
      · rw [hadded, List.mem_append, List.mem_singleton] at hmem
        refine hmem.resolve_right fun hnew => ?_
        rcases habout with hmade | hwithdrawn
        · rw [hnew, hby.task?] at hmade
          exact heq (Option.some.inj hmade).symm
        · have hmade := hby.task?
          rw [← hnew, hwithdrawn] at hmade
          cases hmade

/-- The step, as one operation sees it. -/
theorem visit_of_step (hstep : s.step cfg a = some s') (id : OperationId) : Visit cfg a s s' id := by
  cases serviceStep_of_step hstep with
  | submit caller receiver submission now => exact visit_submit caller receiver submission now
  | cancelled viewer other operations snapshot hcancel => exact visit_cancel hcancel
  | advance other w task next pc htask hadvance => exact visit_advance htask hadvance
  | panic other task freed htask hlives =>
    by_cases heq : id = other
    · subst heq
      exact .panicked task htask hlives (Function.update_self _ _ _) rfl rfl
    · exact .untouched (Function.update_of_ne heq _ _) (.inl (entryOf_dropTask_getD_of_ne heq)) (fun _ hmem => hmem)
        fun _ hmem _ => hmem
  | loadPolicy => exact .elsewhere rfl rfl (.inr ⟨_, rfl, by simp [Event.About, Event.task?]⟩)
  | noteElsewhere => exact .elsewhere rfl rfl (.inr ⟨_, rfl, by simp [Event.About, Event.task?]⟩)
  | uncancelled | rebuildElsewhere | takenIn | unread | chargeDryRun | shutdown => exact .elsewhere rfl rfl (.inl rfl)

end Visit

/-! ### Stages -/

/-- How far an operation has come, by the place of its task. -/
inductive Stage
  /-- It has the status it was made with, unless it was withdrawn. -/
  | waiting
  /-- It is allowed, unless it was withdrawn. -/
  | cleared
  | called
  /-- It is about to be ended. -/
  | stopping
  | withdrawing
  | over
deriving DecidableEq

def Pc.stage : Pc → Stage
  | .precheck | .ledger | .rebuilding | .readingLog | .refusing _ | .leasing | .deciding | .judging _
  | .recordingRefusal _ _ _ | .allowing _ | .closing _ => .waiting
  | .recordingDecided _ | .checking _ | .recordingDispatching _ | .reserving | .notingDecided _ _
  | .notingDispatching _ _ | .beginning _ _ => .cleared
  | .calling _ _ | .inSession _ | .settling _ _ _ => .called
  | .releasing _ _ | .finishing _ _ => .stopping
  | .withdrawing _ => .withdrawing
  | .recordingRefused _ | .reviewing _ | .recording _ | .ended => .over

/-- The stages that a step which leaves the table alone may lead to. -/
inductive Stage.Leads (owner : Principal) : Stage → Stage → Prop
  | refl (stage : Stage) : Leads owner stage stage
  | cleared (_ : owner = .operator) : Leads owner .waiting .cleared
  | stopping (stage : Stage) (hstage : stage = .waiting ∨ stage = .cleared ∨ stage = .called) :
      Leads owner stage .stopping

/-- The record says how an operation ended. -/
def AuditEvent.isFinished : AuditEvent → Bool
  | .finished _ _ _ _ => true
  | _ => false

/-- The record of an operation's end. -/
def Event.Ends (event : Event) : Prop := ∃ record ok, event = .appended record ok ∧ record.event.isFinished = true

/-- What a step of a task does, by its place. -/
inductive Course (cfg : Settings) (s : Service) (id : OperationId) (task : Task) (w : World) (next : Service)
    (pc : Pc) : Prop
  | along (stage : Stage) (hstage : task.pc.stage = stage) (hover : stage ≠ .over)
      (leads : stage.Leads task.owner pc.stage) (operations : next.operations = s.operations)
      (trace : next.trace = s.trace ∨ ∃ event, next.trace = s.trace ++ [event] ∧ ¬ event.Ends ∧
        ∀ owner request, event = .called id owner request → stage = .called)
  | allowed (operations : s.operations.moveFrom id .submitted .allowed = some next.operations)
      (hstage : task.pc.stage = .waiting) (hnext : pc.stage = .cleared) (trace : next.trace = s.trace)
  | begun (operations : s.operations.beginSession id = some next.operations) (hstage : task.pc.stage = .cleared)
      (hnext : pc.stage = .called) (trace : next.trace = s.trace ++ [.begun id])
  | barred (operations : next.operations = s.operations) (hbegin : s.operations.beginSession id = none)
      (hstage : task.pc.stage = .cleared) (hnext : pc.stage = .withdrawing) (trace : next.trace = s.trace)
  | refused (resolution : Resolution) (hpc : task.pc = .refusing resolution) (hnext : pc = .recordingRefused resolution)
      (operations : next.operations = (s.operations.finish id resolution).getD s.operations) (trace : next.trace = s.trace)
  | closed (resolution : Resolution) (hpc : task.pc = .closing resolution) (hnext : pc = .ended)
      (operations : next.operations = (s.operations.finish id resolution).getD s.operations) (trace : next.trace = s.trace)
  | finished (resolution visible : Resolution) (shown : Option String) (hpc : task.pc = .finishing resolution shown)
      (hnext : pc = .recording resolution) (hstatus : visible.status = resolution.status)
      (hdispatch : visible.dispatch = resolution.dispatch)
      (operations : s.operations.finish id visible = some next.operations) (trace : next.trace = s.trace)
  | late (resolution visible : Resolution) (shown : Option String) (hpc : task.pc = .finishing resolution shown)
      (hnext : pc = .reviewing resolution) (hfinish : s.operations.finish id visible = none)
      (operations : next.operations = s.operations) (trace : next.trace = s.trace)
  | reviewed (resolution : Resolution) (hpc : task.pc = .reviewing resolution)
      (hnext : pc = .recording ((s.operations.endedAs id).getD resolution))
      (operations : next.operations = s.operations) (trace : next.trace = s.trace)
  | withdrawn (settlement : Settlement) (hpc : task.pc = .withdrawing settlement)
      (hnext : pc = .recording cancelledResolution)
      (operations : next.operations = s.operations) (trace : next.trace = s.trace)
  /-- A refusal made before any decision is recorded when a record of one is due. -/
  | due (resolution written : Resolution) (hpc : task.pc = .recordingRefused resolution) (hnext : pc = .recording written)
      (hdue : s.refusals.1.all (fun last => decide (refusalLogEvery ≤ w.instant - last)) = true)
      (hstatus : written.status = resolution.status) (hdispatch : written.dispatch = resolution.dispatch)
      (operations : next.operations = s.operations) (trace : next.trace = s.trace)
  | skipped (resolution : Resolution) (hpc : task.pc = .recordingRefused resolution) (hnext : pc = .ended)
      (operations : next.operations = s.operations) (trace : next.trace = s.trace)
  | recorded (resolution : Resolution) (ok : Bool) (hpc : task.pc = .recording resolution) (hnext : pc = .ended)
      (operations : next.operations = s.operations)
      (trace : next.trace = s.trace ++ [.appended (task.record cfg id w.now resolution.finishedEvent) ok])

section Course
variable {cfg : Settings} {s s' next : Service} {id : OperationId} {task : Task} {w : World} {pc : Pc}

theorem Course.silent (stage : Stage) (hstage : task.pc.stage = stage) (hover : stage ≠ .over)
    (leads : stage.Leads task.owner pc.stage) (operations : next.operations = s.operations)
    (trace : next.trace = s.trace) : Course cfg s id task w next pc :=
  .along stage hstage hover leads operations (.inl trace)

theorem not_ends_appended {record : AuditRecord} {ok : Bool} (h : record.event.isFinished = false) :
    ¬ (Event.appended record ok).Ends := by
  rintro ⟨other, ok', heq, hfinished⟩
  rw [← (Event.appended.inj heq).1, h] at hfinished
  cases hfinished

/-- A step that appends a record of something other than the operation's end. -/
theorem Course.append (stage : Stage) {record : AuditRecord} {ok : Bool} (hstage : task.pc.stage = stage)
    (hover : stage ≠ .over) (leads : stage.Leads task.owner pc.stage) (operations : next.operations = s.operations)
    (trace : next.trace = s.trace ++ [.appended record ok]) (hrecord : record.event.isFinished = false) :
    Course cfg s id task w next pc :=
  .along stage hstage hover leads operations (.inr ⟨_, trace, not_ends_appended hrecord, by simp⟩)

theorem dispatchingEvent_isFinished (intent : ReceiverIntent) (state : ReceiverState) (fields : List CoreField) :
    (dispatchingEvent intent state fields).isFinished = false := by
  unfold dispatchingEvent
  cases targetOf intent <;> rfl

theorem Course.judge {label : AgentLabel} {policy : ActivePolicy} (hstage : task.pc.stage = .waiting) :
    Course cfg s id task w (judgeStep cfg s id task.toJob label policy w).1
      (judgeStep cfg s id task.toJob label policy w).2 := by
  have hnot : ∀ policy input judged, ¬ (Event.judged id policy input judged).Ends := by
    rintro policy input judged ⟨record, ok, heq, -⟩
    cases heq
  unfold judgeStep
  dsimp only
  split <;> exact .along .waiting hstage (by decide) (.refl _) rfl (.inr ⟨_, rfl, hnot _ _ _, by simp⟩)

/-- The inversion lemma of `advance`. -/
theorem advance_course (h : advance cfg s id task w = some (next, pc)) : Course cfg s id task w next pc := by
  cases advanceStep_of_advance h with
  | precheck hpc | ledger hpc =>
    refine .silent .waiting (congrArg Pc.stage hpc) (by decide) ?_ rfl rfl
    split_ifs <;> exact .refl _
  | caughtUp hpc | rebuilding hpc => exact .silent .waiting (congrArg Pc.stage hpc) (by decide) (.refl _) rfl rfl
  | takenIn records now hpc => exact .silent .waiting (congrArg Pc.stage hpc) (by decide) (.refl _) rfl rfl
  | unread now hpc => exact .silent .waiting (congrArg Pc.stage hpc) (by decide) (.refl _) rfl rfl
  | refusing resolution hpc => exact .refused resolution hpc rfl rfl rfl
  | closing resolution hpc => exact .closed resolution hpc rfl rfl rfl
  | due resolution hpc hdue =>
    refine .due resolution _ hpc rfl hdue ?_ ?_ rfl rfl <;>
      · unfold Resolution.withSkipped
        split_ifs <;> rfl
  | skipped resolution hpc => exact .skipped resolution hpc rfl rfl rfl
  | leased label hpc => exact .silent .waiting (congrArg Pc.stage hpc) (by decide) (.refl _) rfl rfl
  | leasedOperator hpc hlease howner =>
    exact .silent .waiting (congrArg Pc.stage hpc) (by decide) (.cleared howner) rfl rfl
  | unreached label error hpc =>
    exact .silent .waiting (congrArg Pc.stage hpc) (by decide) (.stopping _ (.inl rfl)) rfl rfl
  | unreachedOperator error hpc => exact .silent .waiting (congrArg Pc.stage hpc) (by decide) (.refl _) rfl rfl
  | deciding policy hpc =>
    refine .along .waiting (congrArg Pc.stage hpc) (by decide) (.refl _) rfl (.inr ⟨_, rfl, ?_, by simp⟩)
    rintro ⟨record, ok, heq, -⟩
    cases heq
  | undecided error hpc => exact .silent .waiting (congrArg Pc.stage hpc) (by decide) (.stopping _ (.inl rfl)) rfl rfl
  | judging policy label hpc => exact .judge (congrArg Pc.stage hpc)
  | recordingRefusal decision digest resolution hpc =>
    exact .append .waiting (congrArg Pc.stage hpc) (by decide) (.stopping _ (.inl rfl)) rfl rfl rfl
  | recordingDecided grant hpc =>
    refine .append .cleared (congrArg Pc.stage hpc) (by decide) ?_ rfl rfl rfl
    split_ifs
    · exact .refl _
    · exact .stopping _ (.inr (.inl rfl))
  | recordingDispatching grant hpc =>
    refine .append .cleared (congrArg Pc.stage hpc) (by decide) ?_ rfl rfl (dispatchingEvent_isFinished _ _ _)
    split_ifs
    · exact .refl _
    · exact .stopping _ (.inr (.inl rfl))
  | notingDispatching state settlement hpc =>
    exact .append .cleared (congrArg Pc.stage hpc) (by decide) (.refl _) rfl rfl (dispatchingEvent_isFinished _ _ _)
  | recording resolution hpc => exact .recorded resolution w.appended hpc rfl rfl rfl
  | allowed grant operations hpc hmove => exact .allowed hmove (congrArg Pc.stage hpc) rfl rfl
  | overtaken grant hpc => exact .silent .waiting (congrArg Pc.stage hpc) (by decide) (.stopping _ (.inl rfl)) rfl rfl
  | checking grant hpc =>
    refine .silent .cleared (congrArg Pc.stage hpc) (by decide) ?_ rfl rfl
    split_ifs
    · exact .refl _
    · exact .stopping _ (.inr (.inl rfl))
  | releasing settlement resolution hpc =>
    exact .silent .stopping (congrArg Pc.stage hpc) (by decide) (.refl _) rfl rfl
  | settling settlement resolution shown hpc =>
    exact .silent .called (congrArg Pc.stage hpc) (by decide) (.stopping _ (.inr (.inr rfl))) rfl rfl
  | reserving hpc => exact .silent .cleared (congrArg Pc.stage hpc) (by decide) (.refl _) rfl rfl
  | notingDecided state settlement hpc =>
    refine .append .cleared (congrArg Pc.stage hpc) (by decide) ?_ rfl rfl rfl
    split_ifs <;> exact .refl _
  | unnoted state settlement hpc => exact .silent .cleared (congrArg Pc.stage hpc) (by decide) (.refl _) rfl rfl
  | begun precondition settlement operations hpc hbegin => exact .begun hbegin (congrArg Pc.stage hpc) rfl rfl
  | barred precondition settlement hpc hbegin => exact .barred rfl hbegin (congrArg Pc.stage hpc) rfl rfl
  | withdrawing settlement hpc => exact .withdrawn settlement hpc rfl rfl rfl
  | calling precondition settlement hpc =>
    refine .along .called (congrArg Pc.stage hpc) (by decide) (.refl _) rfl (.inr ⟨_, rfl, ?_, fun _ _ _ => rfl⟩)
    rintro ⟨record, ok, heq, -⟩
    cases heq
  | inSession settlement shown hpc =>
    refine .along .called (congrArg Pc.stage hpc) (by decide) (.refl _) rfl (.inr ⟨_, rfl, ?_, fun _ _ _ => rfl⟩)
    rintro ⟨record, ok, heq, -⟩
    cases heq
  | finished resolution shown operations hpc hfinish =>
    exact .finished resolution { resolution with reason := shown <|> resolution.reason } shown hpc rfl rfl rfl hfinish rfl
  | late resolution shown hpc hfinish => exact .late resolution _ shown hpc rfl hfinish rfl rfl
  | reviewing resolution hpc => exact .reviewed resolution hpc rfl rfl rfl

end Course

/-! ### What is known of an operation -/

/-- A cancellation won, and that is how the operation ended. -/
structure Service.Withdrew (s : Service) (id : OperationId) (snapshot : OperationSnapshot) : Prop where
  event : .withdrawn id ∈ s.trace
  status : snapshot.status = .cancelled
  dispatch : snapshot.dispatch = .notDispatched

/-- The status of an operation that was not withdrawn. -/
def Stage.Expects (owner : Principal) (status : OperationStatus) : Stage → Prop
  | .waiting => status = Operations.firstStatus owner
  | .cleared => status = .allowed
  | .called => status = .inSession
  | .stopping => status.isTerminal = false
  | .withdrawing => False
  | .over => status.isTerminal = true

/-- What is known of an operation that is retained, by the stage its task is at. -/
def Standing (s : Service) (id : OperationId) (owner : Principal) (stage : Stage) : Prop :=
  ∀ entry, s.operations.entryOf id = some entry →
    stage.Expects owner entry.snapshot.status ∨ stage ≠ .called ∧ s.Withdrew id entry.snapshot

/-- What holds of one operation in every run. -/
structure Lives (s : Service) (id : OperationId) : Prop where
  standing : ∀ task, s.tasks id = some task → Standing s id task.owner task.pc.stage
  begun : ∀ task, s.tasks id = some task → task.pc.stage = .called → .begun id ∈ s.trace
  called : ∀ owner request, .called id owner request ∈ s.trace → .begun id ∈ s.trace
  /-- The record of an operation's end is the last thing its task does. -/
  ends : ∀ event ∈ s.trace, event.Ends → event.task? = some id → ∀ task, s.tasks id = some task → task.pc = .ended
  withdrawn : .withdrawn id ∈ s.trace → ∀ entry, s.operations.entryOf id = some entry → s.Withdrew id entry.snapshot
  task : ∀ entry, s.operations.entryOf id = some entry → ∃ task, s.tasks id = some task

section Lives
variable {cfg : Settings} {s s' next : Service} {id : OperationId} {task : Task} {a : Action} {w : World} {pc : Pc}
  {entry entry' : Entry}

theorem Service.Withdrew.isTerminal {snapshot : OperationSnapshot} (h : s.Withdrew id snapshot) :
    snapshot.status.isTerminal = true := by
  rw [h.status]
  rfl

theorem Service.Withdrew.mono {snapshot : OperationSnapshot} (h : s.Withdrew id snapshot)
    (hkeeps : ∀ event ∈ s.trace, event ∈ s'.trace) : s'.Withdrew id snapshot :=
  ⟨hkeeps _ h.event, h.status, h.dispatch⟩

/-- An operation that was there already, and is there, was there before the step. -/
theorem entryOf_before_step (h : (gate cfg).Reachable s) (hstep : s.step cfg a = some s')
    (hid : id ≤ s.operations.nextId) (hafter : s'.operations.entryOf id = some entry') :
    ∃ entry, s.operations.entryOf id = some entry ∧ (entry.snapshot.status.isTerminal = true → entry' = entry) := by
  obtain ⟨acts, hexec⟩ := exec_of_step h hstep
  obtain ⟨entry, hentry, -, hsame⟩ := remains_of_exec (tidy_of_reachable (table_of_gate h)) hid hexec entry' hafter
  exact ⟨entry, hentry, hsame⟩

theorem isTerminal_of_finish {operations : Operations} {resolution : Resolution}
    (hterminal : resolution.status.isTerminal = true)
    (hentry : ((operations.finish id resolution).getD operations).entryOf id = some entry) :
    entry.snapshot.status.isTerminal = true := by
  cases hfinish : operations.finish id resolution with
  | some finished =>
    rw [hfinish, Option.getD_some] at hentry
    obtain ⟨-, -, -, hafter⟩ := Operations.finish_spec hfinish
    obtain ⟨other, hother, hstatus⟩ := Operations.statusOf_eq_some.mp hafter
    obtain rfl := Option.some.inj (hother.symm.trans hentry)
    rw [hstatus]
    exact hterminal
  | none =>
    rw [hfinish, Option.getD_none] at hentry
    by_contra hrunning
    have hsome := Operations.finish_isSome resolution (Operations.statusOf_eq_some.mpr ⟨entry, hentry, rfl⟩)
      (by simpa using hrunning)
    rw [hfinish] at hsome
    cases hsome

theorem expects_stopping {owner : Principal} {stage : Stage} {status : OperationStatus}
    (hstage : stage = .waiting ∨ stage = .cleared ∨ stage = .called) (h : stage.Expects owner status) :
    status.isTerminal = false := by
  rcases hstage with rfl | rfl | rfl
  · rw [show status = Operations.firstStatus owner from h]
    cases owner <;> rfl
  · rw [show status = .allowed from h]
    rfl
  · rw [show status = .inSession from h]
    rfl

theorem keeps_of_advance (h : advance cfg s id task w = some (next, pc)) : ∀ event ∈ s.trace, event ∈ next.trace := by
  intro event hmem
  rcases (advance_frame h).trace with hsame | ⟨added, hadded, -⟩
  · exact hsame ▸ hmem
  · rw [hadded]
    exact List.mem_append_left _ hmem

/-- What a step of a task adds to the trace. -/
theorem added_of_advance (h : advance cfg s id task w = some (next, pc)) {event : Event} (hmem : event ∈ next.trace) :
    event ∈ s.trace ∨ event.task? = some id ∧
      (∀ owner request, event = .called id owner request → task.pc.stage = .called) ∧
      (event.Ends → ∃ resolution ok, task.pc = .recording resolution ∧ pc = .ended ∧
        event = .appended (task.record cfg id w.now resolution.finishedEvent) ok) := by
  by_cases hold : event ∈ s.trace
  · exact .inl hold
  refine .inr ⟨?_, ?_⟩
  · rcases (advance_frame h).trace with hsame | ⟨added, hadded, hby⟩
    · exact absurd (hsame ▸ hmem) hold
    · rw [hadded, List.mem_append, List.mem_singleton] at hmem
      rw [hmem.resolve_left hold]
      exact hby.task?
  · cases advance_course h with
    | along stage hstage _ _ _ htrace =>
      rcases htrace with hsame | ⟨added, hadded, hnot, hcalled⟩
      · exact absurd (hsame ▸ hmem) hold
      · rw [hadded, List.mem_append, List.mem_singleton] at hmem
        obtain rfl := hmem.resolve_left hold
        exact ⟨fun owner request heq => hstage.trans (hcalled owner request heq), fun hends => absurd hends hnot⟩
    | begun _ _ _ htrace =>
      rw [htrace, List.mem_append, List.mem_singleton] at hmem
      obtain rfl := hmem.resolve_left hold
      refine ⟨by simp, ?_⟩
      rintro ⟨record, ok, heq, -⟩
      cases heq
    | recorded resolution ok hpc hnext _ htrace =>
      rw [htrace, List.mem_append, List.mem_singleton] at hmem
      obtain rfl := hmem.resolve_left hold
      exact ⟨by simp, fun _ => ⟨resolution, ok, hpc, hnext, rfl⟩⟩
    | allowed _ _ _ htrace | barred _ _ _ _ htrace | refused _ _ _ _ htrace | closed _ _ _ _ htrace
    | finished _ _ _ _ _ _ _ _ htrace | late _ _ _ _ _ _ _ htrace | reviewed _ _ _ _ htrace
    | withdrawn _ _ _ _ htrace | due _ _ _ _ _ _ _ _ htrace | skipped _ _ _ _ htrace =>
      exact absurd (htrace ▸ hmem) hold

/-- The step lemma for the task's own operation. -/
theorem Standing.course (h : Standing s id task.owner task.pc.stage)
    (hterminal : ∀ resolution, task.pc.resolution? = some resolution → resolution.status.isTerminal = true)
    (hcourse : Course cfg s id task w next pc) (hkeeps : ∀ event ∈ s.trace, event ∈ next.trace) :
    Standing next id task.owner pc.stage ∨ pc = .ended := by
  have hover : next.operations = s.operations → task.pc.stage = .over → pc.stage = .over →
      Standing next id task.owner pc.stage := by
    intro hoperations hbefore hafter entry hentry
    rw [hoperations] at hentry
    rw [hbefore] at h
    rw [hafter]
    exact (h entry hentry).imp (fun h => h) fun ⟨hne, hwithdrew⟩ => ⟨by decide, hwithdrew.mono hkeeps⟩
  cases hcourse with
  | along stage hstage _ hleads hoperations _ =>
    refine .inl fun entry hentry => ?_
    rw [hoperations] at hentry
    rw [hstage] at h
    generalize pc.stage = after at hleads
    rcases h entry hentry with hexpects | ⟨hne, hwithdrew⟩
    · refine .inl ?_
      cases hleads with
      | refl => exact hexpects
      | cleared howner =>
        rw [howner] at hexpects
        exact hexpects
      | stopping _ hfrom => exact expects_stopping hfrom hexpects
    · refine .inr ⟨?_, hwithdrew.mono hkeeps⟩
      cases hleads with
      | refl => exact hne
      | cleared | stopping => decide
  | allowed hmove _ hnext _ =>
    refine .inl fun entry hentry => .inl ?_
    obtain ⟨other, hother, hstatus⟩ := Operations.statusOf_eq_some.mp (Operations.moveFrom_spec hmove).2
    obtain rfl := Option.some.inj (hother.symm.trans hentry)
    rw [hnext]
    exact hstatus
  | begun hbegin _ hnext _ =>
    refine .inl fun entry hentry => .inl ?_
    obtain ⟨other, hother, hstatus⟩ := Operations.statusOf_eq_some.mp (Operations.moveFrom_spec hbegin).2
    obtain rfl := Option.some.inj (hother.symm.trans hentry)
    rw [hnext]
    exact hstatus
  | barred hoperations hbegin hstage hnext _ =>
    refine .inl fun entry hentry => ?_
    rw [hoperations] at hentry
    rw [hstage] at h
    rw [hnext]
    refine (h entry hentry).imp (fun hallowed => ?_) fun ⟨_, hwithdrew⟩ => ⟨by decide, hwithdrew.mono hkeeps⟩
    have hstatus : entry.snapshot.status = .allowed := hallowed
    simp [Operations.beginSession, Operations.moveFrom, Operations.transition, hentry, hstatus] at hbegin
  | refused resolution hpc hnext hoperations _ =>
    refine .inl fun entry hentry => .inl ?_
    rw [hoperations] at hentry
    subst hnext
    exact isTerminal_of_finish (hterminal resolution (by rw [hpc]; rfl)) hentry
  | finished resolution visible shown hpc hnext hstatus _ hfinish _ =>
    refine .inl fun entry hentry => .inl ?_
    subst hnext
    have hended : visible.status.isTerminal = true := by
      rw [hstatus]
      exact hterminal resolution (by rw [hpc]; rfl)
    have hfound : ((s.operations.finish id visible).getD s.operations).entryOf id = some entry := by
      rw [hfinish]
      exact hentry
    exact isTerminal_of_finish hended hfound
  | late resolution visible shown hpc hnext hfinish hoperations _ =>
    refine .inl fun entry hentry => .inl ?_
    rw [hoperations] at hentry
    subst hnext
    by_contra hrunning
    have hsome := Operations.finish_isSome visible (Operations.statusOf_eq_some.mpr ⟨entry, hentry, rfl⟩)
      (Bool.eq_false_iff.mpr hrunning)
    rw [hfinish] at hsome
    cases hsome
  | withdrawn settlement hpc hnext hoperations _ =>
    refine .inl fun entry hentry => .inl ?_
    rw [hoperations] at hentry
    rw [hpc] at h
    subst hnext
    rcases h entry hentry with hnever | ⟨-, hwithdrew⟩
    · exact hnever.elim
    · exact hwithdrew.isTerminal
  | reviewed resolution hpc hnext hoperations _ =>
    exact .inl (hover hoperations (by rw [hpc]; rfl) (by rw [hnext]; rfl))
  | due resolution written hpc hnext _ _ _ hoperations _ =>
    exact .inl (hover hoperations (by rw [hpc]; rfl) (by rw [hnext]; rfl))
  | closed _ _ hnext _ _ | skipped _ _ hnext _ _ | recorded _ _ _ hnext _ _ => exact .inr hnext

/-- The trace only grows. -/
theorem Visit.keeps (h : Visit cfg a s s' id) : ∀ event ∈ s.trace, event ∈ s'.trace := by
  intro event hmem
  cases h with
  | untouched _ _ hkeeps _ => exact hkeeps event hmem
  | new _ _ _ _ _ _ _ _ htrace | panicked _ _ _ _ htrace _ => exact htrace ▸ hmem
  | cancelled _ _ _ _ htrace =>
    rw [htrace]
    exact List.mem_append_left _ hmem
  | advanced task w next pc _ _ hadvance _ htrace _ =>
    rw [htrace]
    exact keeps_of_advance hadvance event hmem

theorem Lives.step (h : Lives s id) (hreached : (gate cfg).Reachable s) (hstep : s.step cfg a = some s') :
    Lives s' id := by
  have hgated := gated_of_reachable hreached
  have hvisit := visit_of_step hstep id
  have hkeeps := hvisit.keeps
  -- What was withdrawn before stays as it was.
  have hwithdrawn : .withdrawn id ∈ s.trace → ∀ entry', s'.operations.entryOf id = some entry' →
      s'.Withdrew id entry'.snapshot := by
    intro hmem entry' hentry'
    obtain ⟨entry, hentry, hsame⟩ := entryOf_before_step hreached hstep (hgated.withdrawn id hmem) hentry'
    have hwithdrew := h.withdrawn hmem entry hentry
    rw [hsame hwithdrew.isTerminal]
    exact hwithdrew.mono hkeeps
  cases hvisit with
  | untouched htasks hentries _ hadds =>
    have hold : ∀ entry, s'.operations.entryOf id = some entry → s.operations.entryOf id = some entry := by
      intro entry hentry
      rcases hentries with hsame | ⟨hgone, -⟩
      · exact hsame ▸ hentry
      · rw [hgone] at hentry
        cases hentry
    refine ⟨fun task htask entry hentry => ?_, fun task htask hstage => hkeeps _ (h.begun task (htasks ▸ htask) hstage),
      fun owner request hmem => hkeeps _ (h.called owner request (hadds _ hmem (.inl rfl))),
      fun event hmem hends htask task hat => h.ends event (hadds event hmem (.inl htask)) hends htask task (htasks ▸ hat),
      fun hmem => hwithdrawn (hadds _ hmem (.inr rfl)), fun entry hentry => ?_⟩
    · exact (h.standing task (htasks ▸ htask) entry (hold entry hentry)).imp (fun h => h)
        fun ⟨hne, hwithdrew⟩ => ⟨hne, hwithdrew.mono hkeeps⟩
    · rw [htasks]
      exact h.task entry (hold entry hentry)
  | new caller receiver intent entry hid htasks hentry hstatus htrace =>
    have hnone : ∀ event ∈ s'.trace, ¬ event.About id := by
      intro event hmem habout
      rw [htrace] at hmem
      have hle : id ≤ s.operations.nextId := by
        rcases habout with htask | rfl
        · obtain ⟨task, hmade, -⟩ := hgated.maker event hmem id htask
          exact hgated.task id task hmade
        · exact hgated.withdrawn id hmem
      rw [hid] at hle
      exact Nat.not_succ_le_self _ hle
    refine ⟨fun task htask entry' hentry' => ?_, fun task htask hstage => ?_,
      fun owner request hmem => absurd (.inl rfl) (hnone _ hmem), fun event hmem _ htask => absurd (.inl htask) (hnone _ hmem),
      fun hmem => absurd (.inr rfl) (hnone _ hmem), fun _ _ => ⟨_, htasks⟩⟩
    · obtain rfl := Option.some.inj (htasks.symm.trans htask)
      obtain rfl := Option.some.inj (hentry.symm.trans hentry')
      refine .inl ?_
      cases caller <;> exact hstatus
    · obtain rfl := Option.some.inj (htasks.symm.trans htask)
      cases caller <;> cases hstage
  | cancelled viewer snapshot hcancel htasks htrace =>
    obtain ⟨entry, hentry, hcancellable, rfl, hafter⟩ := entryOf_of_cancel hcancel
    have hwithdrew : ∀ entry', s'.operations.entryOf id = some entry' → s'.Withdrew id entry'.snapshot := by
      intro entry' hentry'
      obtain rfl := Option.some.inj (hafter.symm.trans hentry')
      refine ⟨by rw [htrace]; simp, rfl, ?_⟩
      exact (tidy_of_reachable (table_of_gate hreached)).fresh id entry hentry
        (OperationStatus.running_of_isCancellable hcancellable)
    have hadds : ∀ event ∈ s'.trace, event.task? = some id → event ∈ s.trace := by
      intro event hmem htask
      rw [htrace, List.mem_append, List.mem_singleton] at hmem
      refine hmem.resolve_right fun heq => ?_
      rw [heq] at htask
      cases htask
    refine ⟨fun task htask entry' hentry' => .inr ⟨fun hcalled => ?_, hwithdrew entry' hentry'⟩,
      fun task htask hstage => hkeeps _ (h.begun task (htasks ▸ htask) hstage),
      fun owner request hmem => hkeeps _ (h.called owner request (hadds _ hmem rfl)),
      fun event hmem hends htask task hat => h.ends event (hadds event hmem htask) hends htask task (htasks ▸ hat),
      fun _ => hwithdrew, fun _ _ => ?_⟩
    · rcases h.standing task (htasks ▸ htask) entry hentry with hexpects | ⟨hne, -⟩
      · rw [hcalled] at hexpects
        rw [show entry.snapshot.status = .inSession from hexpects] at hcancellable
        cases hcancellable
      · exact hne hcalled
    · rw [htasks]
      exact h.task entry hentry
  | advanced task w next pc haction htask hadvance htasks htrace hoperations =>
    have hadded : ∀ event ∈ s'.trace, _ := fun event hmem => added_of_advance hadvance (htrace ▸ hmem)
    have hcourse := advance_course hadvance
    refine ⟨fun task' htask' => ?_, fun task' htask' hstage => ?_, fun owner request hmem => ?_,
      fun event hmem hends hmade task' htask' => ?_, fun hmem => ?_, fun _ _ => ⟨_, htasks⟩⟩
    · obtain rfl := Option.some.inj (htasks.symm.trans htask')
      by_cases hended : pc = .ended
      · intro entry hentry
        rw [hoperations, if_pos hended] at hentry
        dsimp only
        rw [hended]
        exact .inl (isTerminal_of_dropTask hentry)
      · have hstanding := ((h.standing task htask).course (hgated.proper id task htask).terminal hcourse
          (keeps_of_advance hadvance)).resolve_right hended
        intro entry hentry
        rw [hoperations, if_neg hended] at hentry
        exact (hstanding entry hentry).imp (fun h => h) fun ⟨hne, hwithdrew⟩ =>
          ⟨hne, hwithdrew.mono fun event hmem => htrace ▸ hmem⟩
    · obtain rfl := Option.some.inj (htasks.symm.trans htask')
      dsimp only at hstage
      cases hcourse with
      | along stage hat _ hleads _ _ =>
        rw [hstage] at hleads
        cases hleads
        exact hkeeps _ (h.begun task htask hat)
      | begun _ _ _ hconcat =>
        rw [htrace, hconcat]
        simp
      | allowed _ _ hnext _ | barred _ _ _ hnext _ =>
        rw [hnext] at hstage
        cases hstage
      | refused _ _ hnext _ _ | closed _ _ hnext _ _ | finished _ _ _ _ hnext _ _ _ _ | late _ _ _ _ hnext _ _ _
      | reviewed _ _ hnext _ _ | withdrawn _ _ hnext _ _ | due _ _ _ hnext _ _ _ _ _ | skipped _ _ hnext _ _
      | recorded _ _ _ hnext _ _ =>
        rw [hnext] at hstage
        cases hstage
    · rcases hadded _ hmem with hold | ⟨-, hcalled, -⟩
      · exact hkeeps _ (h.called owner request hold)
      · exact hkeeps _ (h.begun task htask (hcalled owner request rfl))
    · obtain rfl := Option.some.inj (htasks.symm.trans htask')
      rcases hadded event hmem with hold | ⟨-, -, hnew⟩
      · -- A task that has ended takes no step.
        unfold advance at hadvance
        rw [h.ends event hold hends hmade task htask] at hadvance
        cases hadvance
      · obtain ⟨-, -, -, hended, -⟩ := hnew hends
        exact hended
    · refine hwithdrawn ((hadded _ hmem).resolve_right fun hnew => ?_)
      cases hnew.1
  | panicked task htask hrunning htasks htrace hoperations =>
    have hended : ∀ task', s'.tasks id = some task' → task' = { task with pc := .ended } :=
      fun task' htask' => (Option.some.inj (htasks.symm.trans htask')).symm
    refine ⟨fun task' htask' entry hentry => ?_, fun task' htask' hstage => ?_,
      fun owner request hmem => hkeeps _ (h.called owner request (htrace ▸ hmem)),
      fun event _ _ _ task' htask' => ?_, fun hmem => hwithdrawn (htrace ▸ hmem), fun _ _ => ⟨_, htasks⟩⟩
    · rw [hoperations] at hentry
      rw [hended task' htask']
      exact .inl (isTerminal_of_dropTask hentry)
    · rw [hended task' htask'] at hstage
      cases hstage
    · rw [hended task' htask']

/-- The run lemma. -/
theorem lives_of_reachable (h : (gate cfg).Reachable s) (id : OperationId) : Lives s id := by
  refine Machine.Reachable.invariant (I := fun s => Lives s id) (fun s hinit => ?_)
    (fun s a s' hreached hi hstep => hi.step hreached hstep) h
  obtain rfl : s = {} := hinit
  exact ⟨fun task htask => (by cases htask), fun task htask => (by cases htask), fun owner request hmem => (by cases hmem),
    fun event hmem => (by cases hmem), fun hmem => (by cases hmem), fun entry hentry => (by cases hentry)⟩

end Lives

/-- What holds of the operations of a service. -/
structure GateKept (s : Service) : Prop where
  /-- An operation that was withdrawn is not called, and nothing was dispatched for it. -/
  withdrawn : ∀ id, .withdrawn id ∈ s.trace → .begun id ∉ s.trace ∧ (∀ owner request, .called id owner request ∉ s.trace) ∧
    ∀ entry, s.operations.entryOf id = some entry →
      entry.snapshot.status = .cancelled ∧ entry.snapshot.dispatch = .notDispatched
  /-- Every operation has a task, and is over when its task has ended. -/
  ended : ∀ id entry, s.operations.entryOf id = some entry → ∃ task, s.tasks id = some task ∧
    (task.pc = .ended → entry.snapshot.status.isTerminal = true)

theorem gateKept_of_reachable {cfg : Settings} {s : Service} (h : (gate cfg).Reachable s) : GateKept s := by
  refine ⟨fun id hwithdrawn => ?_, fun id entry hentry => ?_⟩
  · have hlives := lives_of_reachable h id
    have hbegun : .begun id ∉ s.trace := fun hbegun => (gated_of_reachable h).either id hbegun hwithdrawn
    refine ⟨hbegun, fun owner request hcalled => hbegun (hlives.called owner request hcalled), fun entry hentry => ?_⟩
    have hwithdrew := hlives.withdrawn hwithdrawn entry hentry
    exact ⟨hwithdrew.status, hwithdrew.dispatch⟩
  · have hlives := lives_of_reachable h id
    obtain ⟨task, htask⟩ := hlives.task entry hentry
    refine ⟨task, htask, fun hended => ?_⟩
    have hstanding := hlives.standing task htask entry hentry
    rw [hended] at hstanding
    exact hstanding.elim (fun hover => hover) fun ⟨_, hwithdrew⟩ => hwithdrew.isTerminal

/-- **The lifecycle of an operation.** It holds of every run of the table, and the gate's runs are runs of the
table's in which a withdrawn operation is never called and no operation outlives its task. -/
theorem lifecycle_kept (cfg : Settings) :
    (∀ operations, (table cfg.limits cfg.retained).Reachable operations →
        TableKept cfg.limits cfg.retained operations) ∧
      ∀ s, (gate cfg).Reachable s → (table cfg.limits cfg.retained).Reachable s.operations ∧ GateKept s :=
  ⟨fun _ h => tableKept_of_reachable h, fun _ h => ⟨table_of_gate h, gateKept_of_reachable h⟩⟩

/-- The Operator withdraws a request before its session is called. -/
def withdrawnRise : Service :=
  ((gate gateSettings).exec {} ([.submit .operator den { intent := smallRise } 0, .advance 1 quietWorld,
    .cancel .operator 1] ++ List.replicate 6 (.advance 1 quietWorld))).get (by decide)

theorem lifecycle_kept_withdrawnRise : withdrawnRise.operations.statusOf 1 = some .cancelled ∧
    (∀ owner request, .called 1 owner request ∉ withdrawnRise.trace) ∧
      TableKept gateSettings.limits gateSettings.retained withdrawnRise.operations := by
  obtain ⟨htable, hgate⟩ := lifecycle_kept gateSettings
  obtain ⟨hreached, hkept⟩ := hgate withdrawnRise
    (Machine.reachable_of_exec ({} : Service) _ (gate_init _) (Option.some_get _).symm)
  exact ⟨by decide, (hkept.withdrawn 1 (by decide)).2.1, htable _ hreached⟩

end DenonAvr.Application
