import DenonAvr.Application.WriteGate

/-!
# Restarts

What a run leaves in the audit log, and what the next one counts when it reads the log back. A run may end in any
state that its service reaches. An append that was under way then is one that failed: the log may hold its record
or not.

A session is called only after the record that announces the write was appended with success, so the next ledger
counts the write (`SentTo.mem_rebuild`) unless the log says that it was not dispatched, which it says of no write
that may have been (`TrueLedger.unreleased`). It counts it at the time of the record, which is no earlier than the
judgement: the ledger that is rebuilt covers the true one, and its judgements are at least as severe
(`restart_remembers`).
-/

namespace DenonAvr.Application

open Domain Library Policy Session

/-! ### Records name their run -/

/-- Every record that the run appended, or tried to, is under the run's own time. -/
def OwnRecords (cfg : Settings) (s : Service) : Prop :=
  ∀ record ok, .appended record ok ∈ s.trace → record.run = cfg.run

section OwnRecords
variable {cfg : Settings} {s s' : Service}

/-- What a step adds to the trace: an event at most, and if it is a record, one of the run's. -/
theorem step_trace {a : Action} (hstep : s.step cfg a = some s') :
    s'.trace = s.trace ∨ ∃ event, s'.trace = s.trace ++ [event] ∧
      ∀ record ok, event = .appended record ok → record.run = cfg.run := by
  cases serviceStep_of_step hstep with
  | submit caller receiver submission now =>
    rcases submit_cases cfg s caller receiver submission now with ⟨writes, hs⟩ | ⟨writes, hs⟩ <;>
      · rw [hs]
        exact .inl rfl
  | cancelled => exact .inr ⟨_, rfl, by simp⟩
  | advance id w task next pc htask hadvance =>
    have htrace : (if pc = .ended then (next.setTask id { task with pc }).endTask id
        else next.setTask id { task with pc }).trace = next.trace := by
      split_ifs <;> rfl
    rw [htrace]
    rcases (advance_frame hadvance).trace with hsame | ⟨event, hevent, hby⟩
    · exact .inl hsame
    · exact .inr ⟨event, hevent, hby.run⟩
  | loadPolicy => exact .inr ⟨_, rfl, by simp⟩
  | noteElsewhere => exact .inr ⟨_, rfl, fun _ _ heq => (Event.appended.inj heq).1 ▸ rfl⟩
  | uncancelled | panic | rebuildElsewhere | takenIn | unread | chargeDryRun | shutdown => exact .inl rfl

theorem ownRecords_of_reachable (h : (gate cfg).Reachable s) : OwnRecords cfg s := by
  refine Machine.Reachable.invariant (I := OwnRecords cfg) (fun s hinit => ?_) (fun s a s' _ hi hstep => ?_) h
  · obtain rfl : s = {} := hinit
    intro record ok hmem
    cases hmem
  · intro record ok hmem
    rcases step_trace hstep with hsame | ⟨event, hevent, hrun⟩
    · exact hi record ok (hsame ▸ hmem)
    · rw [hevent, List.mem_append, List.mem_singleton] at hmem
      rcases hmem with hmem | hmem
      · exact hi record ok hmem
      · exact hrun record ok hmem.symm

end OwnRecords

/-! ### What a called operation has left -/

def AuditEvent.isDispatching : AuditEvent → Bool
  | .dispatching _ _ _ _ => true
  | _ => false

theorem dispatchingEvent_isDispatching (intent : ReceiverIntent) (state : ReceiverState) (fields : List CoreField) :
    (dispatchingEvent intent state fields).isDispatching = true := by
  unfold dispatchingEvent
  cases targetOf intent <;> rfl

/-- What the run has made of an agent's operation whose session was called: the request was judged once, the record
announcing the write, of the time `dispatchingAt`, is in the log, and a record that it was not dispatched was made
only after the session said so. -/
structure SentBy (cfg : Settings) (s : Service) (id : OperationId) (label : AgentLabel) (job : Job) (grant : Grant)
    (dispatchingAt : WallTime) : Prop where
  holds : grant.Holds cfg id job label
  judged : .judged id grant.policy grant.input (.allowed grant.decision grant.precondition grant.settlement) ∈ s.trace
  only : ∀ policy input judged, .judged id policy input judged ∈ s.trace → input = grant.input
  announced : .appended (grant.dispatchingRecord cfg id job dispatchingAt) true ∈ s.trace
  asked : ∀ owner request, .called id owner request ∈ s.trace → request.intent = job.intent
  released : ∀ record ok, .appended record ok ∈ s.trace → record.operation = some id →
    record.notDispatched? ≠ none → ∃ outcome, .answered id outcome ∈ s.trace ∧
      (resolve outcome).dispatch = .notDispatched

section SentBy
variable {cfg : Settings} {s : Service} {id : OperationId} {label : AgentLabel} {job : Job} {grant : Grant}
  {request : OperationRequest} {dispatchingAt : WallTime}

theorem dispatch_of_notDispatched? {record : AuditRecord} (resolution : Resolution)
    (hevent : record.event = resolution.finishedEvent) (hnot : record.notDispatched? ≠ none) :
    resolution.dispatch = .notDispatched := by
  unfold AuditRecord.notDispatched? at hnot
  rw [hevent] at hnot
  unfold Resolution.finishedEvent at hnot
  cases hdispatch : resolution.dispatch <;> simp_all

theorem notDispatched?_of_dispatching {record : AuditRecord} {intent : ReceiverIntent} {state : ReceiverState}
    {fields : List CoreField} (hevent : record.event = dispatchingEvent intent state fields) :
    record.notDispatched? = none := by
  unfold AuditRecord.notDispatched?
  rw [hevent]
  unfold dispatchingEvent
  cases targetOf intent <;> rfl

/-- Every call for an agent's operation leaves this behind. -/
theorem Gated.sentBy (h : Gated cfg s) (hcall : .called id (.agent label) request ∈ s.trace) :
    ∃ job grant dispatchingAt, SentBy cfg s id label job grant dispatchingAt := by
  obtain ⟨task, since, htask, -, haftermath, precondition, cleared, hcleared, hhistory⟩ := h.called hcall
  obtain ⟨grant, decidedAt, dispatchingAt, hholds, -, rfl⟩ := hcleared
  have hmem : ∀ event, event ∈ s.history id → event ∈ s.trace := fun event hmem => (mem_history.mp hmem).1
  refine ⟨task.toJob, grant, dispatchingAt, hholds, hmem _ ?_, fun policy input judged hjudged => ?_, hmem _ ?_,
    fun owner request hcalled => ?_, fun record ok hrecord hid hnot => ?_⟩
  · rw [hhistory]
    simp [Grant.asked]
  · have hin := mem_history.mpr ⟨hjudged, rfl⟩
    rw [hhistory] at hin
    cases haftermath <;> simp_all [Grant.asked]
  · rw [hhistory]
    simp
  · have hin := mem_history.mpr ⟨hcalled, rfl⟩
    rw [hhistory] at hin
    cases haftermath <;> simp_all [Grant.asked]
  · have hin := mem_history.mpr ⟨hrecord, hid⟩
    have hanswered : ∀ outcome, .answered id outcome ∈ since → .answered id outcome ∈ s.trace := by
      intro outcome hmem'
      refine hmem _ ?_
      rw [hhistory]
      exact List.mem_append_right _ (List.mem_cons_of_mem _ (List.mem_cons_of_mem _ hmem'))
    have hcases : .appended record ok ∈ grant.asked id ++ [.appended (grant.decidedRecord cfg id task.toJob decidedAt) true,
        .appended (grant.dispatchingRecord cfg id task.toJob dispatchingAt) true] ∨ .appended record ok ∈ since := by
      rw [hhistory, List.mem_append, List.mem_cons, List.mem_cons] at hin
      simpa using hin
    rcases hcases with hbefore | hsince
    · rcases List.mem_append.mp hbefore with hasked | hrecords
      · rcases List.mem_pair.mp hasked with heq | heq <;> cases heq
      · rcases List.mem_pair.mp hrecords with heq | heq <;> obtain rfl := (Event.appended.inj heq).1
        · exact absurd rfl hnot
        · exact absurd (notDispatched?_of_dispatching rfl) hnot
    · cases haftermath with
      | unanswered => cases hsince
      | answered outcome => simp at hsince
      | finished outcome now ok' =>
        rcases List.mem_pair.mp hsince with heq | heq
        · cases heq
        · obtain rfl := (Event.appended.inj heq).1
          exact ⟨outcome, hanswered outcome List.mem_cons_self,
            dispatch_of_notDispatched? (resolve outcome) rfl hnot⟩

end SentBy

/-! ### Runs and their log -/

/-- The wall clock did not step back between a judgement and the record that announces its write. -/
def ClockKept (s : Service) : Prop :=
  ∀ id policy input judged record ok, .judged id policy input judged ∈ s.trace → .appended record ok ∈ s.trace →
    record.operation = some id → record.event.isDispatching = true → input.now ≤ record.time

/-- Runs of the service, each up to the state it ended in. -/
structure Runs (ι : Type*) where
  settings : ι → Settings
  state : ι → Service
  reachable : ∀ i, (gate (settings i)).Reachable (state i)
  distinct : ∀ i j, (settings i).run = (settings j).run → i = j
  clock : ∀ i, ClockKept (state i)

/-- The files hold the log of the runs, back to `start`. -/
structure Logged {ι : Type*} (runs : Runs ι) (files : List LogFile) (start : WallTime) : Prop where
  /-- What was appended with success is there, unless it is older. -/
  durable : ∀ i record, .appended record true ∈ (runs.state i).trace → start ≤ record.time →
    ∃ file ∈ files, record ∈ file.records
  /-- What is there about an operation was appended, whether or not the log said so. -/
  written : ∀ file ∈ files, ∀ record ∈ file.records, record.operation ≠ none →
    ∃ i ok, .appended record ok ∈ (runs.state i).trace
  agrees : ∀ file ∈ files, file.Agrees

/-- An agent's volume change whose session was called: of `receiver`, at the time and from the level it was judged
on. -/
def SentChange (s : Service) (id : OperationId) (receiver : ReceiverId) (change : RecentChange) : Prop :=
  ∃ label request policy input judged, .called id (.agent label) request ∈ s.trace ∧
    .judged id policy input judged ∈ s.trace ∧ input.receiver = receiver ∧
      Books.changeOf input.now input.intent input.state = some change

/-- The session has not said that nothing was sent. -/
def PossiblyDispatched (s : Service) (id : OperationId) : Prop :=
  ∀ outcome, .answered id outcome ∈ s.trace → (resolve outcome).dispatch ≠ .notDispatched

/-- No record says that the operation was not dispatched. -/
def Unreleased (files : List LogFile) (key : OpKey) : Prop :=
  ∀ file ∈ files, ∀ record ∈ file.records, record.notDispatched? ≠ some key

/-- Every entry is a change of the runs that may have been dispatched. -/
def TrueLedger {ι : Type*} (runs : Runs ι) (ledger : Ledger) : Prop :=
  ∀ entry ∈ ledger.entries, ∃ i, entry.key.run = (runs.settings i).run ∧
    SentChange (runs.state i) entry.key.operation entry.receiver entry.change ∧
      PossiblyDispatched (runs.state i) entry.key.operation

section Runs
variable {ι : Type*} {runs : Runs ι} {files : List LogFile} {now : WallTime} {i : ι} {id : OperationId}
  {receiver : ReceiverId} {change : RecentChange}

/-- A called volume operation has a change. -/
theorem Gated.sentChange {cfg : Settings} {s : Service} {label : AgentLabel} {request : OperationRequest}
    {target : Level} (h : Gated cfg s) (hcall : .called id (.agent label) request ∈ s.trace)
    (htarget : targetOf request.intent = some target) :
    ∃ receiver change, SentChange s id receiver change ∧ change.target = target := by
  obtain ⟨job, grant, dispatchingAt, hsent⟩ := h.sentBy hcall
  rw [hsent.asked _ _ hcall, ← hsent.holds.intent] at htarget
  refine ⟨grant.input.receiver, ⟨grant.input.now, observedVolume grant.input.state, target⟩,
    ⟨label, request, grant.policy, grant.input, _, hcall, hsent.judged, rfl, ?_⟩, rfl⟩
  unfold Books.changeOf
  rw [htarget]
  rfl

/-- The change of a called operation is announced in the log, with its levels, no earlier than it was judged. -/
theorem SentChange.announced (h : SentChange (runs.state i) id receiver change) :
    ∃ record, .appended record true ∈ (runs.state i).trace ∧ record.event.isDispatching = true ∧
      record.key? = some ⟨(runs.settings i).run, id⟩ ∧ change.time ≤ record.time ∧
        record.volumeChange? = some (receiver, { change with time := record.time }) := by
  obtain ⟨label, request, policy, input, judged, hcall, hjudged, rfl, hchange⟩ := h
  obtain ⟨job, grant, dispatchingAt, hsent⟩ := (gated_of_reachable (runs.reachable i)).sentBy hcall
  obtain rfl := hsent.only policy input judged hjudged
  have hdispatching : (grant.dispatchingRecord (runs.settings i) id job dispatchingAt).event.isDispatching = true :=
    dispatchingEvent_isDispatching _ _ _
  obtain ⟨target, htarget, rfl⟩ := Option.map_eq_some_iff.mp hchange
  refine ⟨grant.dispatchingRecord (runs.settings i) id job dispatchingAt, hsent.announced, hdispatching, rfl,
    runs.clock i id _ _ _ _ true hsent.judged hsent.announced rfl hdispatching, ?_⟩
  rw [hsent.holds.intent] at htarget
  exact volumeChange?_dispatching rfl (congrArg some hsent.holds.receiver.symm) htarget

/-- **A change is not forgotten.** A call that the log does not say was not dispatched is counted when the log is
read back, if its announcement is not older than the retention. -/
theorem SentChange.mem_rebuild (h : SentChange (runs.state i) id receiver change)
    (hlog : Logged runs files (now.saturatingSub retention))
    (hunreleased : Unreleased files ⟨(runs.settings i).run, id⟩) :
    ∃ record, .appended record true ∈ (runs.state i).trace ∧ record.event.isDispatching = true ∧
      record.operation = some id ∧ change.time ≤ record.time ∧ (now.saturatingSub retention ≤ record.time →
        ⟨receiver, ⟨(runs.settings i).run, id⟩, { change with time := record.time }⟩ ∈
          (Ledger.rebuild (since files (now.saturatingSub retention)) now).entries) := by
  obtain ⟨record, happended, hdispatching, hkey, htime, hchange⟩ := h.announced
  obtain ⟨operation, hoperation, heq⟩ := Option.map_eq_some_iff.mp hkey
  obtain rfl := (OpKey.mk.inj heq).2
  refine ⟨record, happended, hdispatching, hoperation, htime, fun hretained => ?_⟩
  obtain ⟨file, hfile, hmem⟩ := hlog.durable i record happended hretained
  refine mem_rebuild_of_dispatching (mem_since_of_agrees hfile (hlog.agrees file hfile) hmem hretained) hkey hchange
    (fun other hother => ?_) hretained
  obtain ⟨⟨file', hfile', hmem'⟩, -⟩ := mem_of_mem_since hother
  exact hunreleased file' hfile' other hmem'

/-- The log releases no operation that may have been dispatched. -/
theorem PossiblyDispatched.unreleased {start : WallTime} (h : PossiblyDispatched (runs.state i) id)
    (hchange : SentChange (runs.state i) id receiver change) (hlog : Logged runs files start) :
    Unreleased files ⟨(runs.settings i).run, id⟩ := by
  intro file hfile record hmem hreleased
  have hkey : record.key? = some ⟨(runs.settings i).run, id⟩ := by
    unfold AuditRecord.notDispatched? at hreleased
    split at hreleased
    · exact hreleased
    · cases hreleased
  obtain ⟨operation, hoperation, heq⟩ := Option.map_eq_some_iff.mp hkey
  obtain ⟨hrun, rfl⟩ := OpKey.mk.inj heq
  obtain ⟨j, ok, happended⟩ := hlog.written file hfile record hmem (by rw [hoperation]; simp)
  -- The record names the run that wrote it, and no two runs have one name.
  have hown := ownRecords_of_reachable (runs.reachable j) record ok happended
  obtain rfl := runs.distinct j i (hown.symm.trans hrun)
  obtain ⟨label, request, policy, input, judged, hcall, -⟩ := hchange
  obtain ⟨job, grant, dispatchingAt, hsent⟩ := (gated_of_reachable (runs.reachable j)).sentBy hcall
  obtain ⟨outcome, hanswered, hnot⟩ := hsent.released record ok happended hoperation (by rw [hreleased]; simp)
  exact h outcome hanswered hnot

/-- The ledger that a log is read back to covers every true one in a window that it retains. -/
theorem TrueLedger.covers {truth : Ledger} (h : TrueLedger runs truth)
    (hlog : Logged runs files (now.saturatingSub retention)) (next : Service) {later : WallTime} {window : ℕ}
    (hwindow : now.saturatingSub retention ≤ later.saturatingSub window) (receiver : ReceiverId) :
    Covers ((next.takeIn (since files (now.saturatingSub retention)) now).books.ledger.recent receiver later window)
      (truth.recent receiver later window) := by
  intro change hmem
  obtain ⟨⟨key, hentry⟩, hrecent⟩ := Ledger.mem_recent.mp hmem
  obtain ⟨i, hrun, hchange, hpossibly⟩ := h _ hentry
  dsimp only at hrun hchange hpossibly
  have hunreleased := hpossibly.unreleased hchange hlog
  obtain ⟨record, -, -, -, htime, hrebuilt⟩ := hchange.mem_rebuild hlog hunreleased
  have hlater : later.saturatingSub window < record.time := hrecent.trans_le htime
  refine ⟨{ change with time := record.time }, Ledger.mem_recent.mpr ⟨⟨⟨(runs.settings i).run, key.operation⟩, ?_⟩, hlater⟩, htime, rfl⟩
  exact Ledger.mem_merge_of_mem_left (hrebuilt (hwindow.trans hlater.le))

/-- A request judged after the ledger was rebuilt reads no further back than what was retained. -/
theorem window_retained (config : PolicyConfig) {later : WallTime} (h : now ≤ later) :
    now.saturatingSub retention ≤ later.saturatingSub config.longestWindow := by
  have hlongest : config.longestWindow ≤ retention := config.longestWindow_le
  exact tsub_le_tsub h hlongest

end Runs

/-- **A restart forgets no change.** -/
theorem restart_remembers {ι : Type*} (runs : Runs ι) (files : List LogFile) (next : Service) (now : WallTime)
    (hlog : Logged runs files (now.saturatingSub retention)) :
    (∀ i id label request target, .called id (.agent label) request ∈ (runs.state i).trace →
      targetOf request.intent = some target → Unreleased files ⟨(runs.settings i).run, id⟩ →
        ∃ receiver change, SentChange (runs.state i) id receiver change ∧ change.target = target ∧
          ∃ record, .appended record true ∈ (runs.state i).trace ∧ record.event.isDispatching = true ∧
            record.operation = some id ∧ change.time ≤ record.time ∧ (now.saturatingSub retention ≤ record.time →
              ⟨receiver, ⟨(runs.settings i).run, id⟩, { change with time := record.time }⟩ ∈
                (next.takeIn (since files (now.saturatingSub retention)) now).books.ledger.entries)) ∧
      ∀ truth later config agent receiver intent state, TrueLedger runs truth →
        now.saturatingSub retention ≤ later.saturatingSub config.longestWindow →
          (({ ledger := truth } : Books).evaluateIn later config agent receiver intent state).effect ≤
            ((next.takeIn (since files (now.saturatingSub retention)) now).books.evaluateIn later config agent
              receiver intent state).effect := by
  refine ⟨fun i id label request target hcall htarget hunreleased => ?_,
    fun truth later config agent receiver intent state htruth hwindow => ?_⟩
  · obtain ⟨receiver, change, hchange, htarget⟩ :=
      (gated_of_reachable (runs.reachable i)).sentChange hcall htarget
    obtain ⟨record, happended, hdispatching, hoperation, htime, hrebuilt⟩ := hchange.mem_rebuild hlog hunreleased
    exact ⟨receiver, change, hchange, htarget, record, happended, hdispatching, hoperation, htime,
      fun hretained => Ledger.mem_merge_of_mem_left (hrebuilt hretained)⟩
  · exact effect_le_of_covers config (htruth.covers hlog next hwindow receiver)

/-! ### A run that ends in the session -/

def Event.record? : Event → Option AuditRecord
  | .appended record _ => some record
  | _ => none

theorem Event.record?_eq_some {event : Event} {record : AuditRecord} :
    event.record? = some record ↔ ∃ ok, event = .appended record ok := by
  cases event <;> simp [Event.record?]

/-- What is dated is of `time`, and no session has answered. -/
def Event.unansweredAt (time : WallTime) : Event → Bool
  | .judged _ _ input _ => input.now == time
  | .appended record _ => record.time == time
  | .answered _ _ => false
  | _ => true

theorem quietWrite_unanswered : ∀ event ∈ quietWrite.trace, event.unansweredAt 3600000 = true := by decide

/-- The one run, which ends while the session has the write. -/
def quietRuns : Runs Unit where
  settings _ := gateSettings
  state _ := quietWrite
  reachable _ := reachable_afterWrite (Option.some_get _).symm
  distinct _ _ _ := rfl
  clock _ := by
    intro id policy input judged record ok hjudged happended _ _
    have hinput := eq_of_beq (quietWrite_unanswered _ hjudged)
    have hrecord := eq_of_beq (quietWrite_unanswered _ happended)
    rw [hinput, hrecord]

/-- Its log, with everything that it appended. -/
def quietLog : List LogFile := [{ written := none, records := quietWrite.trace.filterMap Event.record? }]

theorem quietLog_logged (start : WallTime) : Logged quietRuns quietLog start := by
  refine ⟨fun _ record happended _ => ⟨_, List.mem_singleton_self _, ?_⟩, fun file hfile record hmem _ => ?_,
    fun file hfile => ?_⟩
  · exact List.mem_filterMap.mpr ⟨_, happended, rfl⟩
  · obtain rfl := List.mem_singleton.mp hfile
    obtain ⟨event, hevent, hrecord⟩ := List.mem_filterMap.mp hmem
    obtain ⟨ok, rfl⟩ := Event.record?_eq_some.mp hrecord
    exact ⟨(), ok, hevent⟩
  · obtain rfl := List.mem_singleton.mp hfile
    intro record _ written hwritten
    cases hwritten

theorem quietLog_unreleased : Unreleased quietLog ⟨3600000, 1⟩ := by
  intro file hfile
  obtain rfl := List.mem_singleton.mp hfile
  decide

theorem quietWrite_called : .called 1 (.agent kitchen) boundRise ∈ quietWrite.trace := by
  rw [quietWrite_trace]
  exact List.mem_append_right _ List.mem_cons_self

/-- An hour later the write is counted. -/
theorem restart_remembers_quietLog :
    ∃ receiver change, (∃ entry ∈ (({} : Service).takeIn (since quietLog (WallTime.saturatingSub 7200000 retention))
      7200000).books.ledger.entries, entry.receiver = receiver ∧ entry.key = ⟨3600000, 1⟩) ∧
        TrueLedger quietRuns ⟨[⟨receiver, ⟨3600000, 1⟩, change⟩]⟩ ∧
          ∀ agent intent state, (({ ledger := ⟨[⟨receiver, ⟨3600000, 1⟩, change⟩]⟩ } : Books).evaluateIn 7200000
            budgetedPolicy agent receiver intent state).effect ≤
              ((({} : Service).takeIn (since quietLog (WallTime.saturatingSub 7200000 retention)) 7200000).books.evaluateIn
                7200000 budgetedPolicy agent receiver intent state).effect := by
  obtain ⟨hcounted, hsevere⟩ := restart_remembers quietRuns quietLog {} 7200000 (quietLog_logged _)
  obtain ⟨receiver, change, hchange, -, record, -, -, -, -, hrebuilt⟩ :=
    hcounted () 1 kitchen boundRise ⟨-74, by decide⟩ quietWrite_called rfl quietLog_unreleased
  have htruth : TrueLedger quietRuns ⟨[⟨receiver, ⟨3600000, 1⟩, change⟩]⟩ := by
    intro entry hmem
    obtain rfl := List.mem_singleton.mp hmem
    refine ⟨(), rfl, hchange, fun outcome hanswered => ?_⟩
    cases quietWrite_unanswered _ hanswered
  exact ⟨receiver, change, ⟨_, hrebuilt (Nat.zero_le _), rfl, rfl⟩, htruth, fun agent intent state =>
    hsevere _ _ _ _ _ _ _ htruth (window_retained budgetedPolicy le_rfl)⟩

/-- A day and an hour later it is not: its announcement is older than what the ledger retains. -/
theorem not_counted_dayLater : ∃ (runs : Runs Unit) (files : List LogFile) (next : Service) (now : WallTime)
    (id : OperationId) (label : AgentLabel) (request : OperationRequest) (target : Level),
    Logged runs files (now.saturatingSub retention) ∧ .called id (.agent label) request ∈ (runs.state ()).trace ∧
      targetOf request.intent = some target ∧ Unreleased files ⟨(runs.settings ()).run, id⟩ ∧
        ∀ entry ∈ (next.takeIn (since files (now.saturatingSub retention)) now).books.ledger.entries,
          entry.key ≠ ⟨(runs.settings ()).run, id⟩ := by
  refine ⟨quietRuns, quietLog, {}, 3600000 + 25 * 60 * 60 * 1000, 1, kitchen, boundRise, ⟨-74, by decide⟩,
    quietLog_logged _, quietWrite_called, rfl, quietLog_unreleased, ?_⟩
  decide

end DenonAvr.Application
