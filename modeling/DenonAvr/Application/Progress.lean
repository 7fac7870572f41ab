import DenonAvr.Application.Steps

/-!
# The progress of an operation

What is known of an operation from the place of its task. `history` is the part of the trace that its task made,
and `Fits` says, for each place, what an agent's task has made by then. A step of one task leaves the others'
histories and statuses alone (`Frame`), so `Fits` is a matter of one task at a time (`Fits.advance`) and holds in
every run (`Gated`).
-/

namespace DenonAvr.Application

open Domain Library Policy Session

/-! ### The history of an operation -/

/-- The events that the operation's task made. -/
def Service.history (s : Service) (id : OperationId) : List Event :=
  s.trace.filter fun event => decide (event.task? = some id)

section History
variable {s s' : Service} {id other : OperationId} {event : Event}

theorem mem_history : event ∈ s.history id ↔ event ∈ s.trace ∧ event.task? = some id := by
  simp [Service.history]

theorem history_concat (h : s'.trace = s.trace ++ [event]) (htask : event.task? = some id) :
    s'.history id = s.history id ++ [event] := by
  unfold Service.history
  rw [h, List.filter_append]
  simp [htask]

/-- A record about the operation is the last of its history. -/
theorem history_append (s : Service) (record : AuditRecord) (ok : Bool) (hid : record.operation = some id) :
    (s.append record ok).history id = s.history id ++ [.appended record ok] :=
  history_concat rfl hid

theorem history_concat_of_ne (h : s'.trace = s.trace ++ [event]) (htask : event.task? ≠ some id) :
    s'.history id = s.history id := by
  unfold Service.history
  rw [h, List.filter_append]
  simp [htask]

end History

/-! ### Places -/

/-- What the operation is about to be ended with. -/
def Pc.resolution? : Pc → Option Resolution
  | .refusing resolution | .recordingRefused resolution | .recordingRefusal _ _ resolution
  | .releasing _ resolution | .settling _ resolution _ | .finishing resolution _ | .reviewing resolution
  | .recording resolution | .closing resolution => some resolution
  | _ => none

/-- The place in the ledger that is not settled yet. -/
def Pc.unsettled? : Pc → Option Settlement
  | .allowing grant | .recordingDecided grant | .checking grant | .recordingDispatching grant =>
    some grant.settlement
  | .releasing settlement _ | .notingDecided _ settlement | .notingDispatching _ settlement
  | .beginning _ settlement | .withdrawing settlement | .calling _ settlement | .inSession settlement
  | .settling settlement _ _ => some settlement
  | _ => none

/-! ### What a step does -/

/-- An event that a step of the operation's task makes in `s`. -/
structure Event.By (event : Event) (cfg : Settings) (id : OperationId) (task : Task) (s : Service) : Prop where
  task? : event.task? = some id
  read : ∀ policy, event = .policyRead id policy → s.policy = .ok policy
  caller : ∀ owner request, event = .called id owner request → owner = task.owner
  run : ∀ record ok, event = .appended record ok → record.run = cfg.run

/-- What a step of an operation's task does to the table of operations and to the trace. -/
inductive TableStep (cfg : Settings) (id : OperationId) (task : Task) (s s' : Service) : Prop
  | same (operations : s'.operations = s.operations)
      (trace : s'.trace = s.trace ∨
        ∃ event, s'.trace = s.trace ++ [event] ∧ event.By cfg id task s ∧ event ≠ .begun id)
  | allowed (operations : s.operations.moveFrom id .submitted .allowed = some s'.operations)
      (trace : s'.trace = s.trace)
  | begun (operations : s.operations.beginSession id = some s'.operations)
      (trace : s'.trace = s.trace ++ [.begun id])
  | finished (resolution : Resolution)
      (place : task.pc.resolution?.map Resolution.status = some resolution.status)
      (operations : s.operations.finish id resolution = some s'.operations) (trace : s'.trace = s.trace)

/-- What a step leaves of the rest of the service. -/
structure Frame (cfg : Settings) (id : OperationId) (task : Task) (s s' : Service) : Prop where
  tasks : s'.tasks = s.tasks
  policy : s'.policy = s.policy
  table : TableStep cfg id task s s'

section Frame
variable {cfg : Settings} {s s' : Service} {id other : OperationId} {job : Job} {task : Task} {w : World} {pc : Pc}

theorem Frame.silent (htasks : s'.tasks = s.tasks) (hpolicy : s'.policy = s.policy)
    (hoperations : s'.operations = s.operations) (htrace : s'.trace = s.trace) : Frame cfg id task s s' :=
  ⟨htasks, hpolicy, .same hoperations (.inl htrace)⟩

theorem Frame.refl (cfg : Settings) (id : OperationId) (task : Task) (s : Service) : Frame cfg id task s s := .silent rfl rfl rfl rfl

theorem Frame.event {event : Event} (htasks : s'.tasks = s.tasks) (hpolicy : s'.policy = s.policy)
    (hoperations : s'.operations = s.operations) (htrace : s'.trace = s.trace ++ [event])
    (hby : event.By cfg id task s) (hevent : event ≠ .begun id) : Frame cfg id task s s' :=
  ⟨htasks, hpolicy, .same hoperations (.inr ⟨event, htrace, hby, hevent⟩)⟩

theorem Frame.append (id : OperationId) (task : Task) (s : Service) (cfg : Settings) (now : WallTime)
    (event : AuditEvent) (ok : Bool) : Frame cfg id task s (s.append (task.record cfg id now event) ok) :=
  .event rfl rfl rfl rfl ⟨rfl, by simp, by simp, fun _ _ heq => (Event.appended.inj heq).1 ▸ rfl⟩ (by simp)

theorem Frame.finish_getD {resolution : Resolution}
    (hplace : task.pc.resolution?.map Resolution.status = some resolution.status) :
    Frame cfg id task s { s with operations := (s.operations.finish id resolution).getD s.operations } := by
  cases h : s.operations.finish id resolution with
  | none => exact .silent rfl rfl rfl rfl
  | some operations => exact ⟨rfl, rfl, .finished resolution hplace h rfl⟩

theorem Frame.judge (label : AgentLabel) (policy : ActivePolicy) :
    Frame cfg id task s (judgeStep cfg s id task.toJob label policy w).1 := by
  unfold judgeStep
  dsimp only
  split <;> exact .event rfl rfl rfl rfl ⟨rfl, by simp, by simp, by simp⟩ (by simp)

/-- The frame lemma. -/
theorem advance_frame (h : advance cfg s id task w = some (s', pc)) : Frame cfg id task s s' := by
  cases advanceStep_of_advance h with
  | precheck | ledger | caughtUp | leased | leasedOperator | unreached | unreachedOperator | undecided | overtaken
  | checking | unnoted | barred | late | reviewing => exact .refl cfg id _ _
  | rebuilding | takenIn | unread | due | skipped | releasing | reserving | withdrawing | settling =>
    exact .silent rfl rfl rfl rfl
  | refusing resolution hpc => exact .finish_getD (by rw [hpc]; rfl)
  | closing resolution hpc => exact .finish_getD (by rw [hpc]; rfl)
  | deciding policy hpc hpolicy =>
    refine .event rfl rfl rfl rfl ⟨rfl, fun read heq => ?_, by simp, by simp⟩ (by simp)
    rw [hpolicy, (Event.policyRead.inj heq).2]
  | judging policy label => exact .judge label policy
  | recordingRefusal | recordingDecided | recordingDispatching | notingDecided | notingDispatching | recording =>
    exact .append id task s cfg _ _ _
  | allowed grant operations hpc hmove => exact ⟨rfl, rfl, .allowed hmove rfl⟩
  | begun precondition settlement operations hpc hbegin => exact ⟨rfl, rfl, .begun hbegin rfl⟩
  | calling =>
    exact .event rfl rfl rfl rfl ⟨rfl, by simp, fun _ _ heq => (Event.called.inj heq).2.1.symm, by simp⟩ (by simp)
  | inSession => exact .event rfl rfl rfl rfl ⟨rfl, by simp, by simp, by simp⟩ (by simp)
  | finished resolution shown operations hpc hfinish =>
    exact ⟨rfl, rfl, .finished { resolution with reason := shown <|> resolution.reason } (by rw [hpc]; rfl) hfinish rfl⟩

theorem Frame.nextId (h : Frame cfg id task s s') : s'.operations.nextId = s.operations.nextId := by
  cases h.table with
  | same hoperations _ => rw [hoperations]
  | allowed hmove _ => exact Operations.nextId_transition hmove
  | begun hbegin _ =>
    have hmove : s.operations.moveFrom id .allowed .inSession = some s'.operations := hbegin
    exact Operations.nextId_transition hmove
  | finished _ _ hfinish _ => exact Operations.nextId_transition hfinish

/-- The other operations are left alone. -/
theorem Frame.entryOf (h : Frame cfg id task s s') (hne : other ≠ id) :
    s'.operations.entryOf other = s.operations.entryOf other := by
  cases h.table with
  | same hoperations _ => rw [hoperations]
  | allowed hmove _ => exact Operations.entryOf_transition_of_ne hmove hne
  | begun hbegin _ =>
    have hmove : s.operations.moveFrom id .allowed .inSession = some s'.operations := hbegin
    exact Operations.entryOf_transition_of_ne hmove hne
  | finished _ _ hfinish _ => exact Operations.entryOf_transition_of_ne hfinish hne

/-- At most one event is made, and it is one of the operation's. -/
theorem Frame.trace (h : Frame cfg id task s s') :
    s'.trace = s.trace ∨ ∃ event, s'.trace = s.trace ++ [event] ∧ event.By cfg id task s := by
  cases h.table with
  | same _ htrace => exact htrace.imp (fun h => h) fun ⟨event, hevent, hby, _⟩ => ⟨event, hevent, hby⟩
  | begun _ htrace => exact .inr ⟨_, htrace, rfl, by simp, by simp, by simp⟩
  | allowed _ htrace | finished _ _ _ htrace => exact .inl htrace

theorem Frame.history_of_ne (h : Frame cfg id task s s') (hne : other ≠ id) : s'.history other = s.history other := by
  rcases h.trace with hsame | ⟨event, htrace, hby⟩
  · unfold Service.history
    rw [hsame]
  · exact history_concat_of_ne htrace (by rw [hby.task?]; exact fun heq => hne (Option.some.inj heq).symm)

/-- An operation that cannot be withdrawn stays so when it is ended with a terminal status. -/
theorem Frame.pastCancel (h : Frame cfg id task s s')
    (hterminal : ∀ resolution, task.pc.resolution? = some resolution → resolution.status.isTerminal = true)
    (hpast : s.operations.PastCancel id) : s'.operations.PastCancel id := by
  cases h.table with
  | same hoperations _ => rw [hoperations]; exact hpast
  | allowed hmove _ => exact absurd (hpast _ (Operations.moveFrom_spec hmove).1) (by decide)
  | begun hbegin _ => exact Operations.pastCancel_of_statusOf (Operations.moveFrom_spec hbegin).2 rfl
  | finished resolution hplace hfinish _ =>
    obtain ⟨-, -, -, hafter⟩ := Operations.finish_spec hfinish
    obtain ⟨planned, hplanned, hstatus⟩ := Option.map_eq_some_iff.mp hplace
    refine Operations.pastCancel_of_statusOf hafter (OperationStatus.isCancellable_of_isTerminal ?_)
    rw [← hstatus]
    exact hterminal planned hplanned

theorem dropTask_pastCancel {operations : Operations} (hpast : operations.PastCancel id) :
    ((operations.dropTask id).getD operations).PastCancel id := by
  cases h : operations.dropTask id with
  | none => exact hpast
  | some dropped =>
    obtain ⟨after, hafter, hterminal⟩ := Operations.dropTask_spec h
    exact Operations.pastCancel_of_statusOf hafter (OperationStatus.isCancellable_of_isTerminal hterminal)

end Frame

/-! ### What an agent's task has made -/

/-- A grant as the judgement made it. -/
structure Grant.Holds (cfg : Settings) (id : OperationId) (job : Job) (label : AgentLabel) (grant : Grant) :
    Prop where
  agent : grant.input.agent = label.value
  receiver : grant.input.receiver = job.receiver
  intent : grant.input.intent = job.intent
  allowed : ∃ baseline, grant.decision = .allow baseline ∧
    evaluate grant.input grant.policy.config = .allow baseline ∧
      Precondition.capture grant.input.state (baselineFields baseline) = some grant.precondition

/-- The policy was read and the request judged by it. -/
def Grant.asked (grant : Grant) (id : OperationId) : List Event :=
  [.policyRead id grant.policy,
    .judged id grant.policy grant.input (.allowed grant.decision grant.precondition grant.settlement)]

/-- The record of the decision, and the record that the write may happen. -/
def Grant.decidedRecord (grant : Grant) (cfg : Settings) (id : OperationId) (job : Job) (now : WallTime) :
    AuditRecord :=
  job.record cfg id now (decidedEvent job.intent grant.decision grant.policy.digest)

def Grant.dispatchingRecord (grant : Grant) (cfg : Settings) (id : OperationId) (job : Job) (now : WallTime) :
    AuditRecord :=
  job.record cfg id now (dispatchingEvent job.intent grant.input.state grant.precondition.fields)

/-- What has happened when the session may be called with `precondition`: the request was allowed, and both of its
records are in the log. -/
def Cleared (cfg : Settings) (id : OperationId) (job : Job) (label : AgentLabel)
    (precondition : Option Precondition) (history : List Event) : Prop :=
  ∃ (grant : Grant) (decidedAt dispatchingAt : WallTime), grant.Holds cfg id job label ∧ precondition = some grant.precondition ∧
    history = grant.asked id ++ [.appended (grant.decidedRecord cfg id job decidedAt) true,
      .appended (grant.dispatchingRecord cfg id job dispatchingAt) true]

/-- The session was called once, after that, and `since` is what has happened since. -/
def Called (cfg : Settings) (id : OperationId) (job : Job) (label : AgentLabel) (since : List Event)
    (history : List Event) : Prop :=
  ∃ precondition cleared, Cleared cfg id job label precondition cleared ∧
    history = cleared ++ .begun id :: .called id job.owner ⟨id, job.intent, precondition⟩ :: since

/-- A call of the session, or its answer. -/
def Event.ofSession : Event → Bool
  | .called _ _ _ | .answered _ _ => true
  | _ => false

def Uncalled (history : List Event) : Prop := ∀ event ∈ history, event.ofSession = false

/-- The session was not called, or it answered and `resolution` is what it answered. -/
def Resolved (cfg : Settings) (id : OperationId) (job : Job) (label : AgentLabel) (resolution : Resolution)
    (history : List Event) : Prop :=
  ∃ outcome, resolution = resolve outcome ∧ Called cfg id job label [.answered id outcome] history

/-- What may have happened since the call. -/
inductive Aftermath (cfg : Settings) (id : OperationId) (job : Job) : List Event → Prop
  | unanswered : Aftermath cfg id job []
  | answered (outcome : OperationOutcome) : Aftermath cfg id job [.answered id outcome]
  | finished (outcome : OperationOutcome) (now : WallTime) (ok : Bool) :
      Aftermath cfg id job
        [.answered id outcome, .appended (job.record cfg id now (resolve outcome).finishedEvent) ok]

/-- What an agent's task has made by the time it is at `pc`, and the status of its operation where that is known. -/
def Fits (cfg : Settings) (id : OperationId) (job : Job) (label : AgentLabel) (status : Option OperationStatus)
    (history : List Event) : Pc → Prop
  | .precheck | .ledger | .rebuilding | .readingLog | .refusing _ | .recordingRefused _ | .leasing | .deciding =>
    history = []
  | .judging policy => history = [.policyRead id policy]
  | .allowing grant | .recordingDecided grant => grant.Holds cfg id job label ∧ history = grant.asked id
  | .checking grant | .recordingDispatching grant => grant.Holds cfg id job label ∧
    ∃ now, history = grant.asked id ++ [.appended (grant.decidedRecord cfg id job now) true]
  | .recordingRefusal _ _ _ | .releasing _ _ | .withdrawing _ | .reviewing _ => Uncalled history
  | .beginning precondition _ => Cleared cfg id job label precondition history
  | .calling precondition _ => status = some .inSession ∧
    ∃ cleared, Cleared cfg id job label precondition cleared ∧ history = cleared ++ [.begun id]
  | .inSession _ => status = some .inSession ∧ Called cfg id job label [] history
  | .settling _ resolution _ => status = some .inSession ∧ Resolved cfg id job label resolution history
  | .finishing resolution _ => Uncalled history ∨
    status = some .inSession ∧ Resolved cfg id job label resolution history
  | .recording resolution => Uncalled history ∨ Resolved cfg id job label resolution history
  | .ended => Uncalled history ∨ ∃ since, Aftermath cfg id job since ∧ Called cfg id job label since history
  | .reserving | .notingDecided _ _ | .notingDispatching _ _ | .closing _ => False

section Fits
variable {cfg : Settings} {s s' : Service} {id : OperationId} {job : Job} {task : Task} {label : AgentLabel}
  {w : World} {pc : Pc} {history : List Event} {precondition : Option Precondition}

theorem uncalled_nil : Uncalled [] := fun _ hmem => by cases hmem

theorem Uncalled.concat {event : Event} (h : Uncalled history) (hevent : event.ofSession = false) :
    Uncalled (history ++ [event]) := by
  intro other hmem
  rcases List.mem_append.mp hmem with hmem | hmem
  · exact h other hmem
  · exact List.mem_singleton.mp hmem ▸ hevent

theorem uncalled_asked (grant : Grant) (id : OperationId) : Uncalled (grant.asked id) := by
  intro event hmem
  rcases List.mem_pair.mp hmem with rfl | rfl <;> rfl

theorem Cleared.uncalled (h : Cleared cfg id job label precondition history) : Uncalled history := by
  obtain ⟨grant, decidedAt, dispatchingAt, -, -, rfl⟩ := h
  intro event hmem
  rcases List.mem_append.mp hmem with hmem | hmem
  · exact uncalled_asked grant id event hmem
  · rcases List.mem_pair.mp hmem with rfl | rfl <;> rfl

/-- The judgement of an agent's request leads to a grant that holds, or to a refusal. -/
theorem Fits.judge {policy : ActivePolicy} (h : s.history id = [.policyRead id policy]) :
    Fits cfg id job label ((judgeStep cfg s id job label policy w).1.operations.statusOf id)
      ((judgeStep cfg s id job label policy w).1.history id) (judgeStep cfg s id job label policy w).2 := by
  unfold judgeStep
  dsimp only
  have hhistory : ∀ judged, (s.note (.judged id policy (s.books.inputIn w.now policy.config label.value
      job.receiver job.intent w.state) judged)).history id = [.policyRead id policy, .judged id policy
        (s.books.inputIn w.now policy.config label.value job.receiver job.intent w.state) judged] := by
    intro judged
    rw [history_concat rfl rfl, h]
    rfl
  have hread : Uncalled [.policyRead id policy] := uncalled_nil.concat rfl
  split
  · show Uncalled _
    rw [hhistory]
    exact hread.concat rfl
  · show Uncalled _
    rw [hhistory]
    exact hread.concat rfl
  · rename_i decision precondition settlement hjudged
    obtain ⟨baseline, hdecision, hallow, hcapture, -⟩ := judge_allowed_iff.mp hjudged
    refine ⟨⟨rfl, rfl, rfl, baseline, hdecision, hallow, hcapture⟩, ?_⟩
    exact (hhistory _).trans (by rw [hjudged]; rfl)

theorem Fits.advance (howner : task.owner = .agent label)
    (h : Fits cfg id task.toJob label (s.operations.statusOf id) (s.history id) task.pc)
    (hstep : advance cfg s id task w = some (s', pc)) :
    Fits cfg id task.toJob label (s'.operations.statusOf id) (s'.history id) pc := by
  cases advanceStep_of_advance hstep with
  | precheck hpc | ledger hpc =>
    rw [hpc] at h
    split_ifs <;> exact h
  | caughtUp hpc | rebuilding hpc =>
    rw [hpc] at h
    exact h
  | takenIn records now hpc =>
    rw [hpc] at h
    exact h
  | unread now hpc =>
    rw [hpc] at h
    exact h
  | refusing resolution hpc =>
    rw [hpc] at h
    exact h
  | due resolution hpc | skipped resolution hpc =>
    rw [hpc] at h
    have hnone : Uncalled (s.history id) := h ▸ uncalled_nil
    exact .inl hnone
  | leased label hpc =>
    rw [hpc] at h
    exact h
  | unreached label error hpc =>
    rw [hpc] at h
    exact .inl (h ▸ uncalled_nil)
  | leasedOperator hpc hlease hoperator => cases howner.symm.trans hoperator
  | unreachedOperator error hpc hlease hoperator => cases howner.symm.trans hoperator
  | deciding policy hpc =>
    rw [hpc] at h
    exact (history_concat rfl rfl).trans (by rw [h]; rfl)
  | undecided error hpc =>
    rw [hpc] at h
    exact .inl (h ▸ uncalled_nil)
  | judging policy other hpc hother =>
    obtain rfl := Principal.agent.inj (howner.symm.trans hother)
    rw [hpc] at h
    exact Fits.judge h
  | recordingRefusal decision digest resolution hpc =>
    rw [hpc] at h
    refine .inl ?_
    rw [history_concat rfl rfl]
    exact Uncalled.concat h rfl
  | allowed grant operations hpc =>
    rw [hpc] at h
    exact h
  | overtaken grant hpc =>
    rw [hpc] at h
    show Uncalled (s.history id)
    rw [h.2]
    exact uncalled_asked grant id
  | recordingDecided grant hpc =>
    rw [hpc] at h
    have hhistory := history_append s (grant.decidedRecord cfg id task.toJob w.now) w.appended rfl
    split_ifs with hok
    · refine ⟨h.1, w.now, hhistory.trans ?_⟩
      rw [h.2, hok]
    · refine Eq.mpr (congrArg Uncalled hhistory) ?_
      rw [h.2]
      exact (uncalled_asked grant id).concat rfl
  | checking grant hpc =>
    rw [hpc] at h
    split_ifs
    · exact h
    · obtain ⟨-, now, hhistory⟩ := h
      show Uncalled (s.history id)
      rw [hhistory]
      exact (uncalled_asked grant id).concat rfl
  | recordingDispatching grant hpc =>
    rw [hpc] at h
    obtain ⟨hholds, now, hbefore⟩ := h
    have hhistory := history_append s (grant.dispatchingRecord cfg id task.toJob w.now) w.appended rfl
    rw [hbefore] at hhistory
    split_ifs with hok
    · refine ⟨grant, now, w.now, hholds, rfl, hhistory.trans ?_⟩
      rw [hok, List.append_assoc]
      rfl
    · refine Eq.mpr (congrArg Uncalled hhistory) ?_
      exact ((uncalled_asked grant id).concat rfl).concat rfl
  | releasing settlement resolution hpc =>
    rw [hpc] at h
    exact .inl h
  | reserving hpc =>
    rw [hpc] at h
    exact h.elim
  | notingDecided state settlement hpc | unnoted state settlement hpc | notingDispatching state settlement hpc =>
    rw [hpc] at h
    exact h.elim
  | closing resolution hpc =>
    rw [hpc] at h
    exact h.elim
  | begun precondition settlement operations hpc hbegin =>
    rw [hpc] at h
    exact ⟨(Operations.moveFrom_spec hbegin).2, _, h, history_concat rfl rfl⟩
  | barred precondition settlement hpc =>
    rw [hpc] at h
    exact Cleared.uncalled h
  | withdrawing settlement hpc =>
    rw [hpc] at h
    exact .inl h
  | calling precondition settlement hpc =>
    rw [hpc] at h
    obtain ⟨hstatus, cleared, hcleared, hbefore⟩ := h
    refine ⟨hstatus, precondition, cleared, hcleared, ?_⟩
    rw [history_concat rfl rfl, hbefore, List.append_assoc]
    rfl
  | inSession settlement shown hpc =>
    rw [hpc] at h
    obtain ⟨hstatus, precondition, cleared, hcleared, hbefore⟩ := h
    refine ⟨hstatus, w.outcome, rfl, precondition, cleared, hcleared, ?_⟩
    rw [history_concat rfl rfl, hbefore, List.append_assoc]
    rfl
  | settling settlement resolution shown hpc =>
    rw [hpc] at h
    exact .inr h
  | finished resolution shown operations hpc =>
    rw [hpc] at h
    exact h.imp (fun h => h) And.right
  | late resolution shown hpc hrefused =>
    rw [hpc] at h
    -- An operation in its session is still running, so this ends it.
    rcases h with huncalled | ⟨hstatus, -⟩
    · exact huncalled
    · have hsome := Operations.finish_isSome { resolution with reason := shown <|> resolution.reason } hstatus rfl
      rw [hrefused] at hsome
      cases hsome
  | reviewing resolution hpc =>
    rw [hpc] at h
    exact .inl h
  | recording resolution hpc =>
    rw [hpc] at h
    have hhistory := history_append s (task.record cfg id w.now resolution.finishedEvent) w.appended rfl
    rcases h with huncalled | ⟨outcome, rfl, precondition, cleared, hcleared, hbefore⟩
    · refine .inl (Eq.mpr (congrArg Uncalled hhistory) ?_)
      exact huncalled.concat rfl
    · refine .inr ⟨_, .finished outcome w.now w.appended, precondition, cleared, hcleared, hhistory.trans ?_⟩
      rw [hbefore, List.append_assoc]
      rfl

theorem Fits.mono {status status' : Option OperationStatus} (h : Fits cfg id job label status history pc)
    (hstatus : status = some .inSession → status' = some .inSession) :
    Fits cfg id job label status' history pc := by
  cases pc with
  | calling _ _ | inSession _ | settling _ _ _ => exact ⟨hstatus h.1, h.2⟩
  | finishing _ _ => exact h.imp (fun h => h) fun h => ⟨hstatus h.1, h.2⟩
  | _ => exact h

end Fits

/-! ### What every task keeps -/

/-- The place of the operation: a volume change has a key. -/
def Job.place (job : Job) (cfg : Settings) (id : OperationId) : Settlement :=
  ⟨job.receiver, (targetOf job.intent).map fun _ => ⟨cfg.run, id⟩⟩

/-- An operation ends with a terminal status, and its place is its own. -/
structure Proper (cfg : Settings) (id : OperationId) (job : Job) (pc : Pc) : Prop where
  terminal : ∀ resolution, pc.resolution? = some resolution → resolution.status.isTerminal = true
  place : ∀ settlement, pc.unsettled? = some settlement → settlement = job.place cfg id

section Proper
variable {cfg : Settings} {s s' : Service} {id : OperationId} {job : Job} {task : Task} {w : World} {pc : Pc}

theorem reserve_place (books : Books) (now : WallTime) (state : ReceiverState) :
    (books.reserve cfg.run now job.receiver job.intent state id).2 = job.place cfg id := by
  unfold Books.reserve Books.changeOf Job.place
  cases targetOf job.intent <;> rfl

theorem Proper.of_resolution {resolution : Resolution} (hterminal : resolution.status.isTerminal = true)
    (hresolution : pc.resolution? = some resolution) (hplace : pc.unsettled? = none) : Proper cfg id job pc :=
  ⟨fun _ h => Option.some.inj (hresolution.symm.trans h) ▸ hterminal, fun _ h => by rw [hplace] at h; cases h⟩

theorem Proper.of_place (hresolution : pc.resolution? = none) (hplace : pc.unsettled? = some (job.place cfg id)) :
    Proper cfg id job pc :=
  ⟨fun _ h => (by rw [hresolution] at h; cases h), fun _ h => (Option.some.inj (hplace.symm.trans h)).symm⟩

theorem Proper.of_none (hresolution : pc.resolution? = none) (hplace : pc.unsettled? = none) :
    Proper cfg id job pc :=
  ⟨fun _ h => (by rw [hresolution] at h; cases h), fun _ h => by rw [hplace] at h; cases h⟩

theorem Proper.of_both {resolution : Resolution} (hterminal : resolution.status.isTerminal = true)
    (hresolution : pc.resolution? = some resolution)
    (hplace : pc.unsettled? = some (job.place cfg id)) : Proper cfg id job pc :=
  ⟨fun _ h => Option.some.inj (hresolution.symm.trans h) ▸ hterminal,
    fun _ h => (Option.some.inj (hplace.symm.trans h)).symm⟩

theorem refusedResolution_isTerminal (decision : Decision) :
    (refusedResolution decision).status.isTerminal = true := by
  unfold refusedResolution Resolution.notDispatched
  dsimp only
  split_ifs <;> rfl

theorem endedAs_isTerminal {operations : Operations} {resolution : Resolution}
    (h : operations.endedAs id = some resolution) : resolution.status.isTerminal = true := by
  obtain ⟨entry, -, h⟩ := Option.bind_eq_some_iff.mp h
  dsimp only at h
  split_ifs at h with hterminal
  obtain rfl := Option.some.inj h
  exact hterminal

theorem Proper.judge (label : AgentLabel) (policy : ActivePolicy) :
    Proper cfg id job (judgeStep cfg s id job label policy w).2 := by
  unfold judgeStep
  dsimp only
  split
  · exact .of_resolution (refusedResolution_isTerminal _) rfl rfl
  · exact .of_resolution rfl rfl rfl
  · rename_i decision precondition settlement hjudged
    obtain ⟨-, -, -, -, hsettlement⟩ := judge_allowed_iff.mp hjudged
    exact .of_place rfl (congrArg some (hsettlement.trans (reserve_place s.books w.now w.state)))

theorem Proper.advance (h : Proper cfg id task.toJob task.pc) (hstep : advance cfg s id task w = some (s', pc)) :
    Proper cfg id task.toJob pc := by
  cases advanceStep_of_advance hstep with
  | precheck =>
    split_ifs
    · exact .of_none rfl rfl
    · exact .of_resolution rfl rfl rfl
  | ledger => split_ifs <;> exact .of_none rfl rfl
  | caughtUp | rebuilding | takenIn | skipped | leased | leasedOperator | deciding | recording | closing =>
    exact .of_none rfl rfl
  | unread | unreached | unreachedOperator | undecided | withdrawing => exact .of_resolution rfl rfl rfl
  | refusing resolution hpc => exact .of_resolution (h.terminal resolution (by rw [hpc]; rfl)) rfl rfl
  | due resolution hpc =>
    have hterminal := h.terminal resolution (by rw [hpc]; rfl)
    refine .of_resolution ?_ rfl rfl
    unfold Resolution.withSkipped
    split_ifs <;> exact hterminal
  | judging policy label => exact .judge label policy
  | recordingRefusal decision digest resolution hpc =>
    exact .of_resolution (h.terminal resolution (by rw [hpc]; rfl)) rfl rfl
  | allowed grant operations hpc => exact .of_place rfl (congrArg some (h.place grant.settlement (by rw [hpc]; rfl)))
  | overtaken grant hpc => exact .of_both rfl rfl (congrArg some (h.place grant.settlement (by rw [hpc]; rfl)))
  | recordingDecided grant hpc | checking grant hpc | recordingDispatching grant hpc =>
    have hplace := h.place grant.settlement (by rw [hpc]; rfl)
    split_ifs
    · exact .of_place rfl (congrArg some hplace)
    · exact .of_both rfl rfl (congrArg some hplace)
  | releasing settlement resolution hpc =>
    exact .of_resolution (h.terminal resolution (by rw [hpc]; rfl)) rfl rfl
  | reserving => exact .of_place rfl (congrArg some (reserve_place s.books w.now w.state))
  | notingDecided state settlement hpc =>
    have hplace := h.place settlement (by rw [hpc]; rfl)
    split_ifs <;> exact .of_place rfl (congrArg some hplace)
  | unnoted state settlement hpc | notingDispatching state settlement hpc =>
    exact .of_place rfl (congrArg some (h.place settlement (by rw [hpc]; rfl)))
  | begun precondition settlement operations hpc =>
    exact .of_place rfl (congrArg some (h.place settlement (by rw [hpc]; rfl)))
  | barred precondition settlement hpc | calling precondition settlement hpc =>
    exact .of_place rfl (congrArg some (h.place settlement (by rw [hpc]; rfl)))
  | inSession settlement shown hpc =>
    exact .of_both (resolve_isTerminal w.outcome) rfl (congrArg some (h.place settlement (by rw [hpc]; rfl)))
  | settling settlement resolution shown hpc =>
    exact .of_resolution (h.terminal resolution (by rw [hpc]; rfl)) rfl rfl
  | finished resolution shown operations hpc =>
    exact .of_resolution (h.terminal resolution (by rw [hpc]; rfl)) rfl rfl
  | late resolution shown hpc => exact .of_resolution (h.terminal resolution (by rw [hpc]; rfl)) rfl rfl
  | reviewing resolution hpc =>
    refine .of_resolution ?_ rfl rfl
    cases hended : s.operations.endedAs id with
    | none => exact h.terminal resolution (by rw [hpc]; rfl)
    | some earlier => exact endedAs_isTerminal hended

end Proper

/-! ### Every run -/

/-- What holds of all operations in every run. -/
structure Gated (cfg : Settings) (s : Service) : Prop where
  fits : ∀ id task label, s.tasks id = some task → task.owner = .agent label →
    Fits cfg id task.toJob label (s.operations.statusOf id) (s.history id) task.pc
  proper : ∀ id task, s.tasks id = some task → Proper cfg id task.toJob task.pc
  /-- Ids are given out in order. -/
  task : ∀ id task, s.tasks id = some task → id ≤ s.operations.nextId
  entry : ∀ id entry, s.operations.entryOf id = some entry → id ≤ s.operations.nextId
  /-- An event is made by the task it names, and a call by its operation's owner. -/
  maker : ∀ event ∈ s.trace, ∀ id, event.task? = some id → ∃ task, s.tasks id = some task ∧
    ∀ owner request, event = .called id owner request → owner = task.owner
  withdrawn : ∀ id, .withdrawn id ∈ s.trace → id ≤ s.operations.nextId
  /-- A cancellation and the session exclude each other. -/
  pastCancel : ∀ id, .begun id ∈ s.trace ∨ .withdrawn id ∈ s.trace → s.operations.PastCancel id
  either : ∀ id, .begun id ∈ s.trace → .withdrawn id ∉ s.trace

section Gated
variable {cfg : Settings} {s s' : Service} {id : OperationId} {task : Task} {w : World}

/-- What the service's other work leaves alone: the tasks, the operations, and what the tasks made. -/
theorem Gated.elsewhere (h : Gated cfg s) (htasks : s'.tasks = s.tasks)
    (hentries : s'.operations.entries = s.operations.entries)
    (hnextId : s'.operations.nextId = s.operations.nextId)
    (htrace : s'.trace = s.trace ∨ ∃ event, s'.trace = s.trace ++ [event] ∧ event.task? = none ∧
      ∀ id, event ≠ .withdrawn id) : Gated cfg s' := by
  have hentry : s'.operations.entryOf = s.operations.entryOf := by
    funext id
    unfold Operations.entryOf
    rw [hentries]
  have hstatus : s'.operations.statusOf = s.operations.statusOf := by
    funext id
    unfold Operations.statusOf
    rw [hentry]
  have hpast : s'.operations.PastCancel = s.operations.PastCancel := by
    funext id
    unfold Operations.PastCancel
    rw [hstatus]
  have hhistory : s'.history = s.history := by
    funext id
    rcases htrace with hsame | ⟨event, hevent, htask, -⟩
    · unfold Service.history
      rw [hsame]
    · exact history_concat_of_ne hevent (by rw [htask]; simp)
  have hold : ∀ event ∈ s'.trace, ∀ id, event.task? = some id ∨ event = .withdrawn id → event ∈ s.trace := by
    intro event hmem id hid
    rcases htrace with hsame | ⟨added, hadded, htask, hwithdrawn⟩
    · rwa [hsame] at hmem
    · rw [hadded, List.mem_append, List.mem_singleton] at hmem
      rcases hmem with hmem | rfl
      · exact hmem
      · rcases hid with hid | hid
        · rw [htask] at hid
          cases hid
        · exact absurd hid (hwithdrawn id)
  refine ⟨fun id task label htask howner => ?_, fun id task htask => ?_, fun id task htask => ?_,
    fun id entry hmem => ?_, fun event hmem id hid => ?_, fun id hmem => ?_, fun id hmem => ?_,
    fun id hbegun hwithdrawn => ?_⟩
  · rw [hstatus, hhistory]
    exact h.fits id task label (htasks ▸ htask) howner
  · exact h.proper id task (htasks ▸ htask)
  · rw [hnextId]
    exact h.task id task (htasks ▸ htask)
  · rw [hnextId]
    exact h.entry id entry (hentry ▸ hmem)
  · rw [htasks]
    exact h.maker event (hold event hmem id (.inl hid)) id hid
  · rw [hnextId]
    exact h.withdrawn id (hold _ hmem id (.inr rfl))
  · rw [hpast]
    exact h.pastCancel id (hmem.imp (fun hmem => hold _ hmem id (.inl rfl)) fun hmem => hold _ hmem id (.inr rfl))
  · exact h.either id (hold _ hbegun id (.inl rfl)) (hold _ hwithdrawn id (.inr rfl))

/-- A submission changes the caps alone, or adds an operation with its task under the next id. -/
theorem submit_cases (cfg : Settings) (s : Service) (caller : Principal) (receiver : ReceiverId)
    (submission : OperationSubmission) (now : Instant) :
    (∃ writes, (s.submit cfg caller receiver submission now).1 = { s with writes }) ∨
      ∃ writes, (s.submit cfg caller receiver submission now).1 = { s with
        operations := ((s.operations.evictFinished cfg.retained).add caller receiver submission
          (Operations.firstStatus caller)).1
        writes
        tasks := Function.update s.tasks (s.operations.nextId + 1) (some (firstTask caller receiver submission.intent))
        inFlight := s.inFlight + 1 } := by
  unfold Service.submit
  split_ifs
  · exact .inl ⟨_, rfl⟩
  · unfold admitRequest
    cases s.operations.retried caller receiver submission with
    | error error => exact .inl ⟨_, rfl⟩
    | ok existing =>
      cases existing with
      | some existing => exact .inl ⟨_, rfl⟩
      | none =>
        dsimp only
        obtain ⟨writes, answer⟩ := countNew cfg.limits s.operations s.writes caller now
        cases answer with
        | error error => exact .inl ⟨writes, rfl⟩
        | ok admitted =>
          refine .inr ⟨writes, ?_⟩
          dsimp only [Operations.add]
          rw [(s.operations.evictFinished_spec cfg.retained).1]

theorem Gated.submit (h : Gated cfg s) (caller : Principal) (receiver : ReceiverId)
    (submission : OperationSubmission) (now : Instant) :
    Gated cfg (s.submit cfg caller receiver submission now).1 := by
  rcases submit_cases cfg s caller receiver submission now with ⟨writes, hs⟩ | ⟨writes, hs⟩
  · rw [hs]
    exact h.elsewhere rfl rfl rfl (.inl rfl)
  rw [hs]
  have hnextId : ((s.operations.evictFinished cfg.retained).add caller receiver submission
      (Operations.firstStatus caller)).1.nextId = s.operations.nextId + 1 :=
    congrArg (· + 1) (s.operations.evictFinished_spec cfg.retained).1
  have hkeeps : ∀ id ≤ s.operations.nextId, s.operations.Keeps ((s.operations.evictFinished cfg.retained).add caller
      receiver submission (Operations.firstStatus caller)).1 id :=
    fun id hid => .addEvicted caller receiver submission _ cfg.retained hid
  have hnew : s.history (s.operations.nextId + 1) = [] := by
    refine List.filter_eq_nil_iff.mpr fun event hmem htask => ?_
    obtain ⟨task, hmade, -⟩ := h.maker event hmem _ (of_decide_eq_true htask)
    exact absurd (h.task _ task hmade) (Nat.not_succ_le_self _)
  refine ⟨fun id task label htask howner => ?_, fun id task htask => ?_, fun id task htask => ?_,
    fun id entry hmem => ?_, fun event hmem id hid => ?_, fun id hmem => ?_, fun id hmem => ?_, h.either⟩
  · dsimp only at htask
    by_cases heq : id = s.operations.nextId + 1
    · subst heq
      rw [Function.update_self] at htask
      obtain rfl := Option.some.inj htask
      change caller = .agent label at howner
      subst howner
      exact hnew
    · rw [Function.update_of_ne heq] at htask
      exact (h.fits id task label htask howner).mono (hkeeps id (h.task id task htask)).inSession
  · dsimp only at htask
    by_cases heq : id = s.operations.nextId + 1
    · subst heq
      rw [Function.update_self] at htask
      obtain rfl := Option.some.inj htask
      cases caller <;> exact .of_none rfl rfl
    · rw [Function.update_of_ne heq] at htask
      exact h.proper id task htask
  · dsimp only at htask ⊢
    rw [hnextId]
    by_cases heq : id = s.operations.nextId + 1
    · exact heq.le
    · rw [Function.update_of_ne heq] at htask
      exact (h.task id task htask).trans (Nat.le_succ _)
  · dsimp only at hmem ⊢
    rw [hnextId]
    by_cases heq : id = s.operations.nextId + 1
    · exact heq.le
    · obtain ⟨hnext, hentries⟩ := s.operations.evictFinished_spec cfg.retained
      rw [Operations.entryOf_add_of_ne (by rw [hnext]; exact heq)] at hmem
      rcases hentries id with hsame | ⟨hgone, -⟩
      · exact (h.entry id entry (hsame ▸ hmem)).trans (Nat.le_succ _)
      · rw [hgone] at hmem
        cases hmem
  · obtain ⟨task, htask, hcaller⟩ := h.maker event hmem id hid
    refine ⟨task, ?_, hcaller⟩
    dsimp only
    rw [Function.update_of_ne (Nat.lt_succ_of_le (h.task id task htask)).ne]
    exact htask
  · dsimp only
    rw [hnextId]
    exact (h.withdrawn id hmem).trans (Nat.le_succ _)
  · have hid : id ≤ s.operations.nextId := by
      rcases hmem with hmem | hmem
      · obtain ⟨task, htask, -⟩ := h.maker _ hmem id rfl
        exact h.task id task htask
      · exact h.withdrawn id hmem
    exact (hkeeps id hid).pastCancel (h.pastCancel id hmem)

theorem Gated.cancel (h : Gated cfg s) {viewer : Principal} {operations : Operations}
    {snapshot : OperationSnapshot} (hcancel : s.operations.cancel viewer id = .ok (operations, snapshot)) :
    Gated cfg ({ s with operations }.note (.withdrawn id)) := by
  obtain ⟨change, status, htransition, hstatus, hcancellable, hafter⟩ := Operations.cancel_spec hcancel
  have hnextId := Operations.nextId_transition htransition
  have hentry : id ≤ s.operations.nextId := by
    obtain ⟨entry, hmem, -⟩ := Operations.statusOf_eq_some.mp hstatus
    exact h.entry id entry hmem
  have hnotPast : ¬ s.operations.PastCancel id := fun hpast => by
    rw [hpast status hstatus] at hcancellable
    cases hcancellable
  have hkeeps := fun other => Operations.Keeps.cancel other hcancel
  have hhistory : ∀ other, ({ s with operations }.note (.withdrawn id)).history other = s.history other :=
    fun other => history_concat_of_ne rfl (by simp [Event.task?])
  have hmemTrace : ∀ event, event ∈ ({ s with operations }.note (.withdrawn id)).trace ↔
      event ∈ s.trace ∨ event = .withdrawn id := by simp [Service.note]
  refine ⟨fun other task label htask howner => ?_, h.proper, fun other task htask => ?_, fun other entry hmem => ?_,
    fun event hmem other hid => ?_, fun other hmem => ?_, fun other hmem => ?_, fun other hbegun hwithdrawn => ?_⟩
  · rw [hhistory]
    exact (h.fits other task label htask howner).mono (hkeeps other).inSession
  · exact (h.task other task htask).trans_eq hnextId.symm
  · by_cases heq : other = id
    · exact heq ▸ hentry.trans_eq hnextId.symm
    · have hsame := Operations.entryOf_transition_of_ne htransition heq
      exact (h.entry other entry (hsame ▸ hmem)).trans_eq hnextId.symm
  · rcases (hmemTrace event).mp hmem with hmem | rfl
    · exact h.maker event hmem other hid
    · cases hid
  · refine le_of_le_of_eq ?_ hnextId.symm
    rcases (hmemTrace _).mp hmem with hmem | hmem
    · exact h.withdrawn other hmem
    · exact Event.withdrawn.inj hmem ▸ hentry
  · rcases hmem with hmem | hmem
    · rcases (hmemTrace _).mp hmem with hmem | hmem
      · exact (hkeeps other).pastCancel (h.pastCancel other (.inl hmem))
      · cases hmem
    · rcases (hmemTrace _).mp hmem with hmem | hmem
      · exact (hkeeps other).pastCancel (h.pastCancel other (.inr hmem))
      · obtain rfl := Event.withdrawn.inj hmem
        exact Operations.pastCancel_of_statusOf hafter rfl
  · replace hbegun : .begun other ∈ s.trace := ((hmemTrace _).mp hbegun).resolve_right (by simp)
    rcases (hmemTrace _).mp hwithdrawn with hwithdrawn | hwithdrawn
    · exact h.either other hbegun hwithdrawn
    · obtain rfl := Event.withdrawn.inj hwithdrawn
      exact hnotPast (h.pastCancel other (.inl hbegun))

/-- Ending the task leaves everything but its operation's status alone. -/
theorem Gated.endTask (h : Gated cfg s) (hended : ∀ task, s.tasks id = some task → task.pc = .ended) :
    Gated cfg (s.endTask id) := by
  have hentry : ∀ other ≠ id, (s.endTask id).operations.entryOf other = s.operations.entryOf other := by
    intro other hne
    unfold Service.endTask
    cases hdrop : s.operations.dropTask id with
    | none => rfl
    | some dropped => exact Operations.entryOf_transition_of_ne hdrop hne
  have hnextId : (s.endTask id).operations.nextId = s.operations.nextId := by
    unfold Service.endTask
    cases hdrop : s.operations.dropTask id with
    | none => rfl
    | some dropped => exact Operations.nextId_transition hdrop
  refine ⟨fun other task label htask howner => ?_, h.proper, fun other task htask => ?_, fun other entry hmem => ?_,
    h.maker, fun other hmem => ?_, fun other hmem => ?_, h.either⟩
  · by_cases heq : other = id
    · subst heq
      have hfits := h.fits other task label htask howner
      rw [hended task htask] at hfits ⊢
      exact hfits
    · exact (h.fits other task label htask howner).mono (Operations.Keeps.of_entryOf (hentry other heq)).inSession
  · rw [hnextId]
    exact h.task other task htask
  · rw [hnextId]
    by_cases heq : other = id
    · subst heq
      -- An entry that is there after the drop was there before it.
      cases hold : s.operations.entryOf other with
      | some old => exact h.entry other old hold
      | none =>
        have hnone : s.operations.dropTask other = none := by
          unfold Operations.dropTask Operations.transition
          rw [hold]
          rfl
        unfold Service.endTask at hmem
        rw [hnone, Option.getD_none, hold] at hmem
        cases hmem
    · exact h.entry other entry (hentry other heq ▸ hmem)
  · rw [hnextId]
    exact h.withdrawn other hmem
  · by_cases heq : other = id
    · subst heq
      exact dropTask_pastCancel (h.pastCancel other hmem)
    · exact (Operations.Keeps.of_entryOf (hentry other heq)).pastCancel (h.pastCancel other hmem)

/-- The tasks after one of them has gone on. -/
theorem setTask_cases {next task' : Task} {other : OperationId} (htasks : s'.tasks = s.tasks)
    (h : (s'.setTask id next).tasks other = some task') :
    other = id ∧ task' = next ∨ other ≠ id ∧ s.tasks other = some task' := by
  unfold Service.setTask at h
  dsimp only at h
  by_cases heq : other = id
  · subst heq
    rw [Function.update_self] at h
    exact .inl ⟨rfl, (Option.some.inj h).symm⟩
  · rw [Function.update_of_ne heq, htasks] at h
    exact .inr ⟨heq, h⟩

theorem Gated.advance (h : Gated cfg s) (htask : s.tasks id = some task) {pc : Pc}
    (hstep : advance cfg s id task w = some (s', pc)) : Gated cfg (s'.setTask id { task with pc }) := by
  have hframe := advance_frame hstep
  have hmem' : ∀ event ∈ s'.trace, event ∈ s.trace ∨ event.By cfg id task s := by
    intro event hmem
    rcases hframe.trace with hsame | ⟨added, hadded, hby⟩
    · exact .inl (hsame ▸ hmem)
    · rw [hadded, List.mem_append, List.mem_singleton] at hmem
      refine hmem.imp (fun h => h) fun heq => ?_
      rw [heq]
      exact hby
  have hwithdrawn : ∀ other, .withdrawn other ∈ s'.trace → .withdrawn other ∈ s.trace :=
    fun other hmem => (hmem' _ hmem).resolve_right fun hby => by cases hby.task?
  have hpast : ∀ other, s.operations.PastCancel other → s'.operations.PastCancel other := by
    intro other hpast
    by_cases heq : other = id
    · subst heq
      exact hframe.pastCancel (h.proper other task htask).terminal hpast
    · exact (Operations.Keeps.of_entryOf (hframe.entryOf heq)).pastCancel hpast
  -- Who enters the session now could still be withdrawn.
  have hbegun : ∀ other, .begun other ∈ s'.trace → .begun other ∈ s.trace ∨
      s'.operations.PastCancel other ∧ ¬ s.operations.PastCancel other := by
    intro other hmem
    cases hframe.table with
    | same hoperations htrace =>
      rcases htrace with hsame | ⟨added, hadded, hby, hne⟩
      · exact .inl (hsame ▸ hmem)
      · rw [hadded, List.mem_append, List.mem_singleton] at hmem
        refine hmem.imp (fun h => h) fun heq => ?_
        subst heq
        obtain rfl := Option.some.inj hby.task?
        exact absurd rfl hne
    | allowed _ htrace | finished _ _ _ htrace => exact .inl (htrace ▸ hmem)
    | begun hbegin htrace =>
      rw [htrace, List.mem_append, List.mem_singleton] at hmem
      refine hmem.imp (fun h => h) fun heq => ?_
      obtain rfl := Event.begun.inj heq
      obtain ⟨hbefore, hafter⟩ := Operations.moveFrom_spec hbegin
      exact ⟨Operations.pastCancel_of_statusOf hafter rfl, fun hpast => absurd (hpast _ hbefore) (by decide)⟩
  refine ⟨fun other task' label htask' howner => ?_, fun other task' htask' => ?_, fun other task' htask' => ?_,
    fun other entry hmem => ?_, fun event hmem other hid => ?_, fun other hmem => ?_, fun other hmem => ?_,
    fun other hmem hwith => ?_⟩
  · rcases setTask_cases hframe.tasks htask' with ⟨rfl, rfl⟩ | ⟨heq, htask'⟩
    · have hfits : Fits cfg other task.toJob label (s'.operations.statusOf other) (s'.history other) pc :=
        Fits.advance howner (h.fits other task label htask howner) hstep
      exact hfits
    · have hfits := (h.fits other task' label htask' howner).mono
        (Operations.Keeps.of_entryOf (hframe.entryOf heq)).inSession
      rw [← hframe.history_of_ne heq] at hfits
      exact hfits
  · rcases setTask_cases hframe.tasks htask' with ⟨rfl, rfl⟩ | ⟨-, htask'⟩
    · have hproper : Proper cfg other task.toJob pc := Proper.advance (h.proper other task htask) hstep
      exact hproper
    · exact h.proper other task' htask'
  · refine le_of_le_of_eq ?_ hframe.nextId.symm
    rcases setTask_cases hframe.tasks htask' with ⟨rfl, -⟩ | ⟨-, htask'⟩
    · exact h.task other task htask
    · exact h.task other task' htask'
  · refine le_of_le_of_eq ?_ hframe.nextId.symm
    by_cases heq : other = id
    · exact heq ▸ h.task id task htask
    · have hsame := hframe.entryOf heq
      exact h.entry other entry (hsame ▸ hmem)
  · have hmade : ∃ task', s.tasks other = some task' ∧
        ∀ owner request, event = .called other owner request → owner = task'.owner := by
      rcases hmem' event hmem with hmem | hby
      · exact h.maker event hmem other hid
      · obtain rfl := Option.some.inj (hid.symm.trans hby.task?)
        exact ⟨task, htask, hby.caller⟩
    obtain ⟨task', htask', hcaller⟩ := hmade
    unfold Service.setTask
    dsimp only
    by_cases heq : other = id
    · subst heq
      obtain rfl := Option.some.inj (htask'.symm.trans htask)
      exact ⟨_, Function.update_self _ _ _, hcaller⟩
    · exact ⟨task', by rw [Function.update_of_ne heq, hframe.tasks]; exact htask', hcaller⟩
  · exact (h.withdrawn other (hwithdrawn other hmem)).trans_eq hframe.nextId.symm
  · rcases hmem with hmem | hmem
    · rcases hbegun other hmem with hold | ⟨hnew, -⟩
      · exact hpast other (h.pastCancel other (.inl hold))
      · exact hnew
    · exact hpast other (h.pastCancel other (.inr (hwithdrawn other hmem)))
  · rcases hbegun other hmem with hold | ⟨-, hcould⟩
    · exact h.either other hold (hwithdrawn other hwith)
    · exact hcould (h.pastCancel other (.inr (hwithdrawn other hwith)))

/-- A task that is no more has made what it had made. -/
theorem Fits.ended {cfg : Settings} {id : OperationId} {job : Job} {label : AgentLabel}
    {status : Option OperationStatus} {history : List Event} {pc : Pc}
    (h : Fits cfg id job label status history pc) : Fits cfg id job label status history .ended := by
  cases pc with
  | precheck | ledger | rebuilding | readingLog | refusing _ | recordingRefused _ | leasing | deciding =>
    obtain rfl : history = [] := h
    exact .inl (uncalled_nil)
  | judging policy =>
    obtain rfl : history = [.policyRead id policy] := h
    exact .inl (Uncalled.concat (uncalled_nil) rfl)
  | allowing grant | recordingDecided grant => exact .inl (h.2 ▸ uncalled_asked grant id)
  | checking grant | recordingDispatching grant =>
    obtain ⟨-, now, rfl⟩ := h
    exact .inl ((uncalled_asked grant id).concat rfl)
  | recordingRefusal _ _ _ | releasing _ _ | withdrawing _ | reviewing _ => exact .inl h
  | beginning _ _ => exact .inl (Cleared.uncalled h)
  | calling _ _ =>
    obtain ⟨-, cleared, hcleared, rfl⟩ := h
    exact .inl (hcleared.uncalled.concat rfl)
  | inSession _ => exact .inr ⟨[], .unanswered, h.2⟩
  | settling _ _ _ =>
    obtain ⟨-, outcome, -, hcalled⟩ := h
    exact .inr ⟨_, .answered outcome, hcalled⟩
  | finishing _ _ =>
    refine h.imp (fun h => h) fun ⟨_, outcome, _, hcalled⟩ => ⟨_, .answered outcome, hcalled⟩
  | recording _ => exact h.imp (fun h => h) fun ⟨outcome, _, hcalled⟩ => ⟨_, .answered outcome, hcalled⟩
  | ended => exact h
  | reserving | notingDecided _ _ | notingDispatching _ _ | closing _ => exact h.elim

theorem Gated.panic (h : Gated cfg s) (htask : s.tasks id = some task) :
    Gated cfg (s.setTask id { task with pc := .ended }) := by
  have hcases : ∀ other task', (s.setTask id { task with pc := .ended }).tasks other = some task' →
      other = id ∧ task' = { task with pc := .ended } ∨ s.tasks other = some task' :=
    fun other task' htask' => (setTask_cases rfl htask').imp_right And.right
  refine ⟨fun other task' label htask' howner => ?_, fun other task' htask' => ?_, fun other task' htask' => ?_,
    h.entry, fun event hmem other hid => ?_, h.withdrawn, h.pastCancel, h.either⟩
  · rcases hcases other task' htask' with ⟨rfl, rfl⟩ | hold
    · exact Fits.ended (h.fits other task label htask howner)
    · exact h.fits other task' label hold howner
  · rcases hcases other task' htask' with ⟨rfl, rfl⟩ | hold
    · exact .of_none rfl rfl
    · exact h.proper other task' hold
  · rcases hcases other task' htask' with ⟨rfl, rfl⟩ | hold
    · exact h.task other task htask
    · exact h.task other task' hold
  · obtain ⟨task', htask', hcaller⟩ := h.maker event hmem other hid
    unfold Service.setTask
    dsimp only
    by_cases heq : other = id
    · subst heq
      obtain rfl := Option.some.inj (htask'.symm.trans htask)
      exact ⟨_, Function.update_self _ _ _, hcaller⟩
    · exact ⟨task', by rw [Function.update_of_ne heq]; exact htask', hcaller⟩

theorem Gated.step (h : Gated cfg s) {a : Action} (hstep : s.step cfg a = some s') : Gated cfg s' := by
  cases serviceStep_of_step hstep with
  | submit caller receiver submission now => exact h.submit caller receiver submission now
  | cancelled viewer id operations snapshot hcancel => exact h.cancel hcancel
  | uncancelled => exact h
  | advance id w task next pc htask hadvance =>
    have hnext := h.advance htask hadvance
    split_ifs with hended
    · refine hnext.endTask fun task' htask' => ?_
      unfold Service.setTask at htask'
      dsimp only at htask'
      rw [Function.update_self] at htask'
      rw [← Option.some.inj htask']
      exact hended
    · exact hnext
  | panic id task freed htask =>
    have hfree : Gated cfg { s with rebuilding := freed } := h.elsewhere rfl rfl rfl (.inl rfl)
    refine (hfree.panic htask).endTask fun task' htask' => ?_
    unfold Service.setTask at htask'
    dsimp only at htask'
    rw [Function.update_self] at htask'
    rw [← Option.some.inj htask']
  | loadPolicy => exact h.elsewhere rfl rfl rfl (.inr ⟨_, rfl, rfl, by simp⟩)
  | noteElsewhere => exact h.elsewhere rfl rfl rfl (.inr ⟨_, rfl, rfl, by simp⟩)
  | rebuildElsewhere | takenIn | unread | chargeDryRun | shutdown => exact h.elsewhere rfl rfl rfl (.inl rfl)

/-- The run lemma. -/
theorem gated_of_reachable (h : (gate cfg).Reachable s) : Gated cfg s := by
  refine Machine.Reachable.invariant (I := Gated cfg) (fun s hinit => ?_) (fun s a s' _ hi hstep => hi.step hstep) h
  obtain rfl : s = {} := hinit
  exact ⟨fun _ _ _ htask => (by cases htask), fun _ _ htask => (by cases htask), fun _ _ htask => (by cases htask),
    fun id entry hmem => (by cases hmem), fun _ hmem => (by cases hmem), fun _ hmem => (by cases hmem),
    fun _ hmem => (by rcases hmem with hmem | hmem <;> cases hmem), fun _ hmem => (by cases hmem)⟩

end Gated

end DenonAvr.Application
