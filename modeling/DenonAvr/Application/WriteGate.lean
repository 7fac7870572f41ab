import DenonAvr.Application.Lifecycle
import DenonAvr.Application.Progress

/-!
# The gate for agents' writes

The session's `operate` is called for an agent's operation at most once, and only when the request was allowed,
both of its records are in the log, no cancellation has won, and the precondition is what the request was judged
on (`agentWrite_gated`).

The policy is the one that was in force when the decision read it. A reload may come between that and the
judgement, which takes no lock of the policy's; the request is then judged by a policy that is no longer in force
(`not_judgedInForce`).
-/

namespace DenonAvr.Application

open Domain Library Policy Session

/-! ### The policy in force -/

/-- The policy that the last load left. -/
def inForce (trace : List Event) : Except String ActivePolicy :=
  trace.foldl (fun policy event => match event with
    | .loaded loaded => loaded
    | _ => policy) (.error "the policy has not been loaded")

theorem inForce_concat (trace : List Event) (event : Event) :
    inForce (trace ++ [event]) = match event with
      | .loaded loaded => loaded
      | _ => inForce trace := by
  unfold inForce
  rw [List.foldl_append]
  rfl

theorem inForce_concat_task {trace : List Event} {event : Event} {id : OperationId}
    (h : event.task? = some id) : inForce (trace ++ [event]) = inForce trace := by
  rw [inForce_concat]
  cases event <;> first | rfl | cases h

/-- The service's policy is the one in force, and so was each policy that a task read. -/
structure PolicyKept (s : Service) : Prop where
  current : s.policy = inForce s.trace
  read : ∀ before id policy after, s.trace = before ++ .policyRead id policy :: after → inForce before = .ok policy

section PolicyKept
variable {cfg : Settings} {s s' : Service}

theorem PolicyKept.same (h : PolicyKept s) (hpolicy : s'.policy = s.policy) (htrace : s'.trace = s.trace) :
    PolicyKept s' :=
  ⟨by rw [hpolicy, htrace]; exact h.current, by rw [htrace]; exact h.read⟩

/-- One more event, which is a load of the policy or leaves the policy as it is. -/
theorem PolicyKept.concat (h : PolicyKept s) {event : Event} (htrace : s'.trace = s.trace ++ [event])
    (hpolicy : s'.policy = inForce (s.trace ++ [event]))
    (hread : ∀ id policy, event = .policyRead id policy → s.policy = .ok policy) : PolicyKept s' := by
  refine ⟨hpolicy.trans (by rw [htrace]), fun before id policy after hsplit => ?_⟩
  rw [htrace] at hsplit
  rcases List.eq_nil_or_concat' after with rfl | ⟨rest, last, rfl⟩
  · obtain ⟨hbefore, hevent⟩ := List.append_inj' hsplit rfl
    rw [← hbefore, ← h.current]
    exact hread id policy (List.singleton_inj.mp hevent)
  · have hsplit' : s.trace ++ [event] = (before ++ .policyRead id policy :: rest) ++ [last] := by
      rw [hsplit, List.append_assoc]
      rfl
    exact h.read before id policy rest (List.append_inj' hsplit' rfl).1

theorem PolicyKept.frame {id : OperationId} {task : Task} (h : PolicyKept s) (hframe : Frame cfg id task s s') :
    PolicyKept s' := by
  have hcurrent : ∀ event, event.task? = some id → s'.policy = inForce (s.trace ++ [event]) := by
    intro event htask
    rw [inForce_concat_task htask, hframe.policy]
    exact h.current
  cases hframe.table with
  | same _ htrace =>
    rcases htrace with hsame | ⟨event, hevent, hby, -⟩
    · exact h.same hframe.policy hsame
    · refine h.concat hevent (hcurrent event hby.task?) fun other policy heq => ?_
      subst heq
      obtain rfl := Option.some.inj hby.task?
      exact hby.read policy rfl
  | allowed _ htrace | finished _ _ _ htrace => exact h.same hframe.policy htrace
  | begun _ htrace => exact h.concat htrace (hcurrent _ rfl) (by simp)

theorem PolicyKept.step (h : PolicyKept s) {a : Action} (hstep : s.step cfg a = some s') : PolicyKept s' := by
  cases serviceStep_of_step hstep with
  | submit caller receiver submission now =>
    rcases submit_cases cfg s caller receiver submission now with ⟨writes, hs⟩ | ⟨writes, hs⟩ <;>
      · rw [hs]
        exact h.same rfl rfl
  | cancelled =>
    refine h.concat rfl ?_ (by simp)
    rw [inForce_concat]
    exact h.current
  | uncancelled => exact h
  | advance id w task next pc htask hadvance =>
    have hnext := h.frame (advance_frame hadvance)
    split_ifs <;> exact hnext.same rfl rfl
  | loadPolicy => exact h.concat rfl (by rw [inForce_concat]; rfl) (by simp)
  | noteElsewhere => exact h.concat rfl (by rw [inForce_concat]; exact h.current) (by simp)
  | panic | rebuildElsewhere | takenIn | unread | chargeDryRun | shutdown => exact h.same rfl rfl

theorem policyKept_of_reachable (h : (gate cfg).Reachable s) : PolicyKept s := by
  refine Machine.Reachable.invariant (I := PolicyKept) (fun s hinit => ?_) (fun s a s' _ hi hstep => hi.step hstep) h
  obtain rfl : s = {} := hinit
  exact ⟨rfl, fun before id policy after hsplit => by simp at hsplit⟩

end PolicyKept

/-! ### The operation of a task -/

/-- What the task of the operation is given. -/
def Entry.job (entry : Entry) : Job := ⟨entry.owner, entry.snapshot.receiver, entry.snapshot.intent⟩

/-- An operation in the table is the one that its task was given. -/
def Service.Assigned (s : Service) : Prop :=
  ∀ id task entry, s.tasks id = some task → s.operations.entryOf id = some entry → entry.job = task.toJob

section Assigned
variable {cfg : Settings} {s s' : Service} {operations operations' : Operations} {id other : OperationId} {entry' : Entry}
  {change : OperationSnapshot → Option OperationSnapshot}

/-- A step leaves every task and every operation with its job. -/
theorem Service.Assigned.kept (h : s.Assigned)
    (htasks : ∀ id task', s'.tasks id = some task' → ∃ task, s.tasks id = some task ∧ task.toJob = task'.toJob)
    (hentries : ∀ id entry', s'.operations.entryOf id = some entry' →
      ∃ entry, s.operations.entryOf id = some entry ∧ entry.job = entry'.job) : s'.Assigned := by
  intro id task' entry' htask' hentry'
  obtain ⟨task, htask, hjob⟩ := htasks id task' htask'
  obtain ⟨entry, hentry, hsame⟩ := hentries id entry' hentry'
  exact (hsame.symm.trans (h id task entry htask hentry)).trans hjob

theorem job_of_transition (h : operations.transition other change = some operations')
    (hchange : ∀ before after, change before = some after → after.receiver = before.receiver ∧ after.intent = before.intent)
    (hentry' : operations'.entryOf id = some entry') :
    ∃ entry, operations.entryOf id = some entry ∧ entry.job = entry'.job := by
  by_cases heq : id = other
  · subst heq
    obtain ⟨entry, snapshot, hentry, hsnapshot, rfl⟩ := Operations.transition_eq_some h
    rw [Operations.entryOf, AList.lookup_insert] at hentry'
    obtain rfl := Option.some.inj hentry'
    obtain ⟨hreceiver, hintent⟩ := hchange _ _ hsnapshot
    refine ⟨entry, hentry, ?_⟩
    unfold Entry.job
    rw [hreceiver, hintent]
  · rw [Operations.entryOf_transition_of_ne h heq] at hentry'
    exact ⟨entry', hentry', rfl⟩

theorem job_of_moveFrom {start next : OperationStatus} (h : operations.moveFrom other start next = some operations')
    (hentry' : operations'.entryOf id = some entry') :
    ∃ entry, operations.entryOf id = some entry ∧ entry.job = entry'.job := by
  refine job_of_transition h (fun before after hchange => ?_) hentry'
  split_ifs at hchange
  obtain rfl := Option.some.inj hchange
  exact ⟨rfl, rfl⟩

theorem job_of_finish {resolution : Resolution} (h : operations.finish other resolution = some operations')
    (hentry' : operations'.entryOf id = some entry') :
    ∃ entry, operations.entryOf id = some entry ∧ entry.job = entry'.job := by
  refine job_of_transition h (fun before after hchange => ?_) hentry'
  split_ifs at hchange
  obtain rfl := Option.some.inj hchange
  exact ⟨rfl, rfl⟩

theorem job_of_cancel {viewer : Principal} {snapshot : OperationSnapshot}
    (h : operations.cancel viewer other = .ok (operations', snapshot)) (hentry' : operations'.entryOf id = some entry') :
    ∃ entry, operations.entryOf id = some entry ∧ entry.job = entry'.job := by
  obtain ⟨-, -, -, -, hmoved⟩ := Operations.cancel_eq_ok h
  refine job_of_transition hmoved (fun before after hchange => ?_) hentry'
  split_ifs at hchange
  obtain rfl := Option.some.inj hchange
  exact ⟨rfl, rfl⟩

theorem job_of_dropTask (hentry' : ((operations.dropTask other).getD operations).entryOf id = some entry') :
    ∃ entry, operations.entryOf id = some entry ∧ entry.job = entry'.job := by
  cases hmoved : operations.dropTask other with
  | none =>
    rw [hmoved] at hentry'
    exact ⟨entry', hentry', rfl⟩
  | some moved =>
    rw [hmoved] at hentry'
    refine job_of_transition hmoved (fun before after hchange => ?_) hentry'
    split_ifs at hchange
    obtain rfl := Option.some.inj hchange
    exact ⟨rfl, rfl⟩

theorem job_of_frame {task : Task} (h : Frame cfg other task s s') (hentry' : s'.operations.entryOf id = some entry') :
    ∃ entry, s.operations.entryOf id = some entry ∧ entry.job = entry'.job := by
  cases h.table with
  | same hoperations _ =>
    rw [hoperations] at hentry'
    exact ⟨entry', hentry', rfl⟩
  | allowed hmove _ => exact job_of_moveFrom hmove hentry'
  | begun hbegin _ => exact job_of_moveFrom hbegin hentry'
  | finished resolution _ hfinish _ => exact job_of_finish hfinish hentry'

theorem job_of_update {task task' : Task} {pc : Pc} (htask : s.tasks other = some task)
    (htask' : Function.update s.tasks other (some { task with pc }) id = some task') :
    ∃ task, s.tasks id = some task ∧ task.toJob = task'.toJob := by
  by_cases heq : id = other
  · subst heq
    rw [Function.update_self] at htask'
    obtain rfl := Option.some.inj htask'
    exact ⟨task, htask, rfl⟩
  · rw [Function.update_of_ne heq] at htask'
    exact ⟨task', htask', rfl⟩

theorem Service.Assigned.step (h : s.Assigned) {a : Action} (hstep : s.step cfg a = some s') : s'.Assigned := by
  cases serviceStep_of_step hstep with
  | submit caller receiver submission now =>
    rcases submit_cases cfg s caller receiver submission now with ⟨writes, hs⟩ | ⟨writes, hs⟩ <;> rw [hs]
    · exact h
    · intro id task entry htask hentry
      dsimp only at htask hentry
      by_cases heq : id = s.operations.nextId + 1
      · subst heq
        rw [entryOf_addEvicted] at hentry
        rw [Function.update_self] at htask
        obtain rfl := Option.some.inj hentry
        obtain rfl := Option.some.inj htask
        rfl
      · rw [Function.update_of_ne heq] at htask
        refine (entryOf_addEvicted_of_ne caller receiver submission _ heq).elim
          (fun hsame => h id task entry htask (hsame.symm.trans hentry)) fun ⟨hgone, _⟩ => ?_
        cases hgone.symm.trans hentry
  | cancelled viewer other operations snapshot hcancel =>
    exact h.kept (fun id task' htask' => ⟨task', htask', rfl⟩) fun id entry' => job_of_cancel hcancel
  | advance other w task next pc htask hadvance =>
    have hframe := advance_frame hadvance
    have htasks : ∀ id task', Function.update next.tasks other (some { task with pc }) id = some task' →
        ∃ task, s.tasks id = some task ∧ task.toJob = task'.toJob := by
      rw [hframe.tasks]
      exact fun id task' => job_of_update htask
    split_ifs
    · refine h.kept htasks fun id entry' hentry' => ?_
      obtain ⟨entry, hentry, hjob⟩ := job_of_dropTask hentry'
      obtain ⟨first, hfirst, hsame⟩ := job_of_frame hframe hentry
      exact ⟨first, hfirst, hsame.trans hjob⟩
    · exact h.kept htasks fun id entry' hentry' => job_of_frame hframe hentry'
  | panic other task freed htask =>
    exact h.kept (fun id task' htask' => job_of_update htask htask') fun id entry' hentry' => job_of_dropTask hentry'
  | uncancelled | loadPolicy | noteElsewhere | chargeDryRun | shutdown | rebuildElsewhere | takenIn | unread => exact h

theorem assigned_of_reachable (h : (gate cfg).Reachable s) : s.Assigned := by
  refine Machine.Reachable.invariant ?_ ?_ h
  · rintro _ rfl id task entry htask
    cases htask
  · intro s a s' _ h hstep
    exact h.step hstep

end Assigned

/-! ### What a call rests on -/

section
variable {cfg : Settings} {s : Service} {id : OperationId} {job : Job} {label : AgentLabel}
  {request : OperationRequest} {before after history since : List Event}

/-- No call of the operation's session. -/
def NoCall (id : OperationId) (events : List Event) : Prop := ∀ owner request, .called id owner request ∉ events

theorem Uncalled.noCall {events : List Event} (h : Uncalled events) : NoCall id events := fun owner request hmem => by
  cases h _ hmem

theorem Aftermath.noCall (h : Aftermath cfg id job since) : NoCall id since := by
  intro owner request hmem
  cases h <;> simp at hmem

/-- A call in the history of an operation that was called: there is no other, and it is the one that was cleared. -/
theorem Called.split (h : Called cfg id job label since history) (hsince : NoCall id since) {owner : Principal}
    (hsplit : history = before ++ .called id owner request :: after) :
    ∃ precondition cleared, Cleared cfg id job label precondition cleared ∧ before = cleared ++ [.begun id] ∧
      request = ⟨id, job.intent, precondition⟩ ∧ NoCall id before ∧ NoCall id after := by
  obtain ⟨precondition, cleared, hcleared, hhistory⟩ := h
  have hbefore : NoCall id (cleared ++ [.begun id]) := (hcleared.uncalled.concat rfl).noCall
  have heq : (cleared ++ [.begun id]) ++ .called id job.owner ⟨id, job.intent, precondition⟩ :: since =
      before ++ .called id owner request :: after := by
    rw [← hsplit, hhistory, List.append_assoc]
    rfl
  rcases List.append_eq_append_iff.mp heq with ⟨rest, hrest, htail⟩ | ⟨rest, hrest, htail⟩
  · cases rest with
    | nil =>
      obtain ⟨hcall, hafter⟩ := List.cons.inj htail
      obtain ⟨-, -, hrequest⟩ := Event.called.inj hcall
      rw [List.append_nil] at hrest
      exact ⟨precondition, cleared, hcleared, hrest, hrequest.symm, hrest ▸ hbefore, hafter ▸ hsince⟩
    | cons first rest =>
      obtain ⟨-, hlater⟩ := List.cons.inj htail
      exact absurd (hlater ▸ List.mem_append_right _ List.mem_cons_self) (hsince owner request)
  · cases rest with
    | nil =>
      obtain ⟨hcall, hafter⟩ := List.cons.inj htail
      obtain ⟨-, -, hrequest⟩ := Event.called.inj hcall
      rw [List.append_nil] at hrest
      exact ⟨precondition, cleared, hcleared, hrest.symm, hrequest, hrest ▸ hbefore, hafter.symm ▸ hsince⟩
    | cons first rest =>
      obtain ⟨hfirst, -⟩ := List.cons.inj htail
      refine absurd ?_ (hbefore owner request)
      rw [hrest, ← hfirst]
      exact List.mem_append_right _ List.mem_cons_self

/-- A call for an agent's operation was made by a task of the agent's, which has called the session once. -/
theorem Gated.called (h : Gated cfg s) (hcall : .called id (.agent label) request ∈ s.trace) :
    ∃ task since, s.tasks id = some task ∧ task.owner = .agent label ∧ Aftermath cfg id task.toJob since ∧
      Called cfg id task.toJob label since (s.history id) := by
  obtain ⟨task, htask, hcaller⟩ := h.maker _ hcall id rfl
  have howner : task.owner = .agent label := (hcaller _ _ rfl).symm
  rcases (h.fits id task label htask howner).ended with huncalled | ⟨since, haftermath, hcalled⟩
  · exact absurd (mem_history.mpr ⟨hcall, rfl⟩) (huncalled.noCall _ _)
  · exact ⟨task, since, htask, howner, haftermath, hcalled⟩

end

/-- **The gate.** A session is called for an agent's operation at most once. By then a policy that was in force when
the decision read it has allowed this very operation (its agent, receiver and intent), the record that it may be written
is in the log, the operation has entered the session with no cancellation before or after, and the request carries the
precondition captured from the state and the fields that were judged. -/
theorem agentWrite_gated (cfg : Settings) (s : Service) (h : (gate cfg).Reachable s) (id : OperationId)
    (label : AgentLabel) (request : OperationRequest) (before after : List Event)
    (htrace : s.trace = before ++ .called id (.agent label) request :: after) :
    (∀ owner request', .called id owner request' ∉ before ∧ .called id owner request' ∉ after) ∧
      .begun id ∈ before ∧ .withdrawn id ∉ s.trace ∧
      ∃ task policy input baseline precondition settlement start middle,
        s.tasks id = some task ∧ task.owner = .agent label ∧
        (∀ entry, s.operations.entryOf id = some entry → entry.job = task.toJob) ∧
        before = start ++ .policyRead id policy :: middle ∧ inForce start = .ok policy ∧
        .judged id policy input (.allowed (.allow baseline) precondition settlement) ∈ middle ∧
        input.agent = label.value ∧ input.receiver = task.receiver ∧ input.intent = task.intent ∧
        evaluate input policy.config = .allow baseline ∧
        (∃ record, .appended record true ∈ middle ∧ record.run = cfg.run ∧ record.operation = some id ∧
          record.principal = some (.agent label) ∧ record.receiver = some task.receiver ∧
          record.event = dispatchingEvent input.intent input.state precondition.fields) ∧
        Precondition.capture input.state (baselineFields baseline) = some precondition ∧
        request = ⟨id, input.intent, some precondition⟩ := by
  have hgated := gated_of_reachable h
  have hcall : .called id (.agent label) request ∈ s.trace := by
    rw [htrace]
    exact List.mem_append_right _ List.mem_cons_self
  obtain ⟨task, since, htask, howner, haftermath, hcalled⟩ := hgated.called hcall
  have hhistory : s.history id = before.filter (fun event => decide (event.task? = some id)) ++
      .called id (.agent label) request :: after.filter fun event => decide (event.task? = some id) := by
    unfold Service.history
    rw [htrace, List.filter_append, List.filter_cons_of_pos (by simp [Event.task?])]
  obtain ⟨precondition, cleared, hcleared, hbefore, hrequest, hnone, hnoneAfter⟩ :=
    hcalled.split haftermath.noCall hhistory
  obtain ⟨grant, decidedAt, dispatchingAt, hholds, rfl, rfl⟩ := hcleared
  obtain ⟨baseline, hdecision, hallow, hcapture⟩ := hholds.allowed
  -- The policy was read first; the rest of the history comes after that.
  obtain ⟨start, middle, rfl, -, -, hmiddle⟩ := List.filter_eq_cons_iff.mp hbefore
  have hmem : ∀ event ∈ middle.filter fun event => decide (event.task? = some id), event ∈ middle :=
    fun event hmem => List.mem_of_mem_filter hmem
  have hbegun : .begun id ∈ start ++ .policyRead id grant.policy :: middle :=
    List.mem_append_right _ (List.mem_cons_of_mem _ (hmem _ (by rw [hmiddle]; simp)))
  refine ⟨fun owner request' => ⟨fun hother => ?_, fun hother => ?_⟩, hbegun, ?_, task, grant.policy, grant.input,
    baseline, grant.precondition, grant.settlement, start, middle, htask, howner,
    fun entry hentry => assigned_of_reachable h id task entry htask hentry, rfl, ?_, ?_, hholds.agent, hholds.receiver,
    hholds.intent, hallow, ⟨grant.dispatchingRecord cfg id task.toJob dispatchingAt, hmem _ (by rw [hmiddle]; simp), rfl,
      rfl, congrArg some howner, rfl, ?_⟩, hcapture, ?_⟩
  · exact hnone owner request' (List.mem_filter.mpr ⟨hother, by simp [Event.task?]⟩)
  · exact hnoneAfter owner request' (List.mem_filter.mpr ⟨hother, by simp [Event.task?]⟩)
  · exact hgated.either id (by rw [htrace]; exact List.mem_append_left _ hbegun)
  · refine (policyKept_of_reachable h).read start id grant.policy
      (middle ++ .called id (.agent label) request :: after) ?_
    rw [htrace, List.append_assoc]
    rfl
  · rw [← hdecision]
    exact hmem _ (by rw [hmiddle]; simp)
  · rw [hholds.intent]
    rfl
  · rw [hrequest, hholds.intent]

/-! ### Two runs -/

def gateSettings : Settings := { run := 3600000, retained := 100 }

def kitchen : AgentLabel := ⟨"kitchen", rfl⟩

def zeroDigest : PolicyDigest := ⟨List.replicate 32 0, by decide⟩

/-- A rise from -40 dB by 3 dB, and the world in which it is made. -/
def smallRise : ReceiverIntent := .volume (.dbHalfSteps minus37)

def quietWorld : World :=
  { now := 3600000, instant := 0, state := showing minus40, lease := .ok (), appended := true
    log := some [], outcome := .observedRequestedValue 1 .completeWrite "-37.0 dB" }

/-- The rise as an agent asks for it, up to the call of the session, with `between` before it is judged. -/
def oneWrite (between : List Action) : List Action :=
  [.loadPolicy (.ok (budgetedPolicy, zeroDigest)) 3600000, .rebuildElsewhere 3600000, .readElsewhere (some []),
    .submit (.agent kitchen) den { intent := smallRise } 0] ++
    List.replicate 4 (.advance 1 quietWorld) ++ between ++ List.replicate 7 (.advance 1 quietWorld)

def afterWrite (between : List Action) : Option Service := (gate gateSettings).exec {} (oneWrite between)

def quietWrite : Service := (afterWrite []).get (by decide)

/-- The policy file becomes unreadable while the request is on its way to being judged. -/
def reloadedWrite : Service := (afterWrite [.loadPolicy (.error "bad") 3600000]).get (by decide)

/-- What the session is called with. -/
def boundRise : OperationRequest := ⟨1, smallRise, Precondition.capture (showing minus40) [.volume]⟩

theorem gate_init (cfg : Settings) : (gate cfg).init {} := rfl

theorem reachable_afterWrite {between : List Action} {s : Service} (h : afterWrite between = some s) :
    (gate gateSettings).Reachable s :=
  Machine.reachable_of_exec ({} : Service) (oneWrite between) (gate_init _) h

theorem quietWrite_trace :
    quietWrite.trace = quietWrite.trace.take 6 ++ .called 1 (.agent kitchen) boundRise :: [] := by
  decide

/-- The gate in a run with one write. -/
theorem agentWrite_gated_quietWrite :
    (∀ owner request', .called 1 owner request' ∉ quietWrite.trace.take 6 ∧ .called 1 owner request' ∉ ([] : List Event)) ∧
      .begun 1 ∈ quietWrite.trace.take 6 ∧ .withdrawn 1 ∉ quietWrite.trace ∧
      ∃ task policy input baseline precondition settlement start middle,
        quietWrite.tasks 1 = some task ∧ task.owner = .agent kitchen ∧
        (∀ entry, quietWrite.operations.entryOf 1 = some entry → entry.job = task.toJob) ∧
        quietWrite.trace.take 6 = start ++ .policyRead 1 policy :: middle ∧ inForce start = .ok policy ∧
        .judged 1 policy input (.allowed (.allow baseline) precondition settlement) ∈ middle ∧
        input.agent = kitchen.value ∧ input.receiver = task.receiver ∧ input.intent = task.intent ∧
        evaluate input policy.config = .allow baseline ∧
        (∃ record, .appended record true ∈ middle ∧ record.run = 3600000 ∧ record.operation = some 1 ∧
          record.principal = some (.agent kitchen) ∧ record.receiver = some task.receiver ∧
          record.event = dispatchingEvent input.intent input.state precondition.fields) ∧
        Precondition.capture input.state (baselineFields baseline) = some precondition ∧
        boundRise = ⟨1, input.intent, some precondition⟩ :=
  agentWrite_gated gateSettings quietWrite (reachable_afterWrite (Option.some_get _).symm) 1 kitchen boundRise _ []
    quietWrite_trace

def Event.isJudged : Event → Bool
  | .judged _ _ _ _ => true
  | _ => false

/-- The policy that a called operation was judged by need not be in force at the judgement. -/
theorem not_judgedInForce : ∃ cfg s id label request before after, (gate cfg).Reachable s ∧
    s.trace = before ++ .called id (.agent label) request :: after ∧
      ∀ start middle policy input judged, before = start ++ .judged id policy input judged :: middle →
        inForce start ≠ .ok policy := by
  have htrace : reloadedWrite.trace = reloadedWrite.trace.take 7 ++ .called 1 (.agent kitchen) boundRise :: [] := by
    decide
  have hnone : ∀ k < 7, ((reloadedWrite.trace.take 7)[k]?).any Event.isJudged = true →
      (inForce ((reloadedWrite.trace.take 7).take k)).isOk = false := by
    decide
  refine ⟨gateSettings, reloadedWrite, 1, kitchen, boundRise, _, [],
    reachable_afterWrite (Option.some_get _).symm, htrace, ?_⟩
  intro start middle policy input judged hsplit hforce
  have hat : (reloadedWrite.trace.take 7)[start.length]? = some (.judged 1 policy input judged) := by
    rw [hsplit, List.getElem?_append_right le_rfl, Nat.sub_self]
    rfl
  have hlt : start.length < 7 := by
    have hlength := congrArg List.length hsplit
    rw [List.length_append, List.length_cons, List.length_take] at hlength
    omega
  have hnot := hnone start.length hlt (by rw [hat]; rfl)
  rw [hsplit, List.take_left, hforce] at hnot
  cases hnot

end DenonAvr.Application
