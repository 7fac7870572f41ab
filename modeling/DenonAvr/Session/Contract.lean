import DenonAvr.Library.History
import DenonAvr.Session.Reobserve

/-!
# The contract of one operation

A call of `operate` together with what it did, in order (`Deed`): which fields were queried, what the precondition and the
target were compared with, whether the command was given to the transport and what the transport said. `Follows` is the
history that belongs to each control point, and `Ending` the one that belongs to each outcome. The contract is read off
them (`contract_of_reachable`).
-/

namespace DenonAvr.Session

open Domain Protocol Library

/-! ### What a call does -/

inductive Deed
  /-- The query of the field was answered. -/
  | queried (field : CoreField)
  /-- Everything was re-observed, and is compared as this state shows it. -/
  | compared (state : ReceiverState)
  /-- The command was given to the transport. -/
  | sent (command : AvrCommand)
  /-- What the transport said of the command. -/
  | answered (result : Except AvrSessionError Unit)
deriving DecidableEq

namespace Deed

def isSent : Deed → Bool
  | sent _ => true
  | _ => false

/-- What can follow the giving of the command. -/
def isReport : Deed → Bool
  | queried _ | answered _ => true
  | _ => false

end Deed

namespace Call

/-- What a step does. -/
def deeds (call : Call) (a : CallAction) : List Deed :=
  match call.pc, a with
  | .await purpose, .answer (.ok line) generation now _ _ =>
    .queried (call.fieldOf purpose) ::
      if call.pending = some [call.fieldOf purpose] then
        [.compared ((call.feed.synchronizeGeneration generation).reduceLine now line true).1.state]
      else []
  | .send command, .send => [.sent command]
  | .sent _, .sent result => [.answered result]
  | _, _ => []

/-- Whether the transport's `dispatch` returns this: it finds a command invalid by its text alone, before the command
reaches the connection. -/
def returnsOf (call : Call) : CallAction → Bool
  | .sent (.error (.invalidCommand _)) =>
    match call.pc with
    | .sent command => !(AvrCommand.new command.text).isOk
    | _ => true
  | _ => true

end Call

/-- A call, with what it did so far. -/
structure Operated where
  call : Call
  deeds : List Deed := []
deriving DecidableEq

/-- One call of `operate`, begun on a given feed, with a transport that answers as it does. -/
def operated (request : OperationRequest) (cycle : SyncCycleId) (feed : Feed) : Machine Operated CallAction where
  init m := m = { call := { request, cycle, feed } }
  step m a :=
    if m.call.returnsOf a then
      (m.call.step a).map fun call => { call, deeds := m.deeds ++ m.call.deeds a }
    else none

theorem AvrCommand.new_text (command : AvrCommand) : AvrCommand.new command.text = .ok command := by
  unfold AvrCommand.new
  rw [dif_neg (by rw [command.nonempty]; exact Bool.false_ne_true),
    dif_neg (by rw [command.oneLine]; exact Bool.false_ne_true)]

/-! ### What goes before -/

/-- The fields a call re-observes, in the order it asks for them. -/
def OperationRequest.reobserved (request : OperationRequest) : List CoreField :=
  request.intent.field :: request.verifyFields

/-- The precondition does not hold in the state. -/
def OperationRequest.mismatchIn (request : OperationRequest) (state : ReceiverState) : Option PreconditionMismatch :=
  request.precondition.bind (·.mismatch state)

/-- Some of the fields were queried, and `rest` were not. -/
def Asked (request : OperationRequest) (deeds : List Deed) (rest : List CoreField) : Prop :=
  ∃ asked, asked ++ rest = request.reobserved ∧ deeds = asked.map .queried

/-- All fields were queried, and then compared as `state` shows them. -/
def Compared (request : OperationRequest) (deeds : List Deed) (state : ReceiverState) : Prop :=
  deeds = request.reobserved.map .queried ++ [.compared state]

/-- All fields were queried and compared, the precondition held and the target was not there. -/
def ClearedToSend (request : OperationRequest) (deeds : List Deed) : Prop :=
  ∃ state, Compared request deeds state ∧ request.mismatchIn state = none ∧ stateMatches state request.intent = false

/-- The command was given to the transport after all that, and `reports` is what was learnt since. -/
def Sent (request : OperationRequest) (deeds reports : List Deed) : Prop :=
  ∃ cleared command, ClearedToSend request cleared ∧ deeds = cleared ++ .sent command :: reports ∧
    ∀ deed ∈ reports, deed.isReport = true

/-- How a call may end, and what it did until then. -/
inductive Ending (request : OperationRequest) (deeds : List Deed) (feed : Feed) : OperationOutcome → Prop
  /-- Before everything was compared. -/
  | withdrawn {rest : List CoreField} (asked : Asked request deeds rest) : Ending request deeds feed (.cancelled request.id)
  | unsupported {rest : List CoreField} {reason : String} (asked : Asked request deeds rest) :
      Ending request deeds feed (.rejectedBeforeDispatch request.id .unsupportedIntent reason)
  | unobserved {rest : List CoreField} {reason : String} (asked : Asked request deeds rest) :
      Ending request deeds feed (.rejectedBeforeDispatch request.id .observationFailed reason)
  /-- By the comparison. -/
  | mismatch {state : ReceiverState} {mismatch : PreconditionMismatch} (compared : Compared request deeds state)
      (found : request.mismatchIn state = some mismatch) :
      Ending request deeds feed
        (.rejectedBeforeDispatch request.id (.preconditionMismatch mismatch) (describeMismatch mismatch))
  | there {state : ReceiverState} {observation : String} (compared : Compared request deeds state)
      (holds : request.mismatchIn state = none) (there : stateMatches state request.intent = true) :
      Ending request deeds feed (.alreadyObserved request.id observation)
  /-- After it, with nothing sent. -/
  | tooLate (cleared : ClearedToSend request deeds) : Ending request deeds feed (.cancelled request.id)
  | unsendable {reason : String} (cleared : ClearedToSend request deeds) :
      Ending request deeds feed (.rejectedBeforeDispatch request.id .commandRefused reason)
  /-- After the command was given to the transport. -/
  | stopped {reason : String} (sent : Sent request deeds [.answered (.error .sessionStopped)]) :
      Ending request deeds feed (.rejectedBeforeDispatch request.id .sessionStopped reason)
  | unclear {reports : List Deed} {dispatch : DispatchCertainty} {reason : String} (sent : Sent request deeds reports) :
      Ending request deeds feed (.indeterminate request.id dispatch reason)
  | observed {reports : List Deed} {dispatch : DispatchCertainty} {observation : String}
      (sent : Sent request deeds reports) (there : stateMatches feed.state request.intent = true) :
      Ending request deeds feed (.observedRequestedValue request.id dispatch observation)

/-- The history that belongs to a control point. -/
def Follows (request : OperationRequest) (deeds : List Deed) (feed : Feed) : Pc → Prop
  | .start => Asked request deeds request.reobserved
  | .ask .preflight | .await .preflight => Asked request deeds request.reobserved
  | .ask (.verify field rest) | .await (.verify field rest) => Asked request deeds (field :: rest)
  | .send _ => ClearedToSend request deeds
  | .sent _ => Sent request deeds []
  | .ask (.ambiguous _) | .await (.ambiguous _) | .ask .confirm | .await .confirm | .pause => ∃ reports, Sent request deeds reports
  | .done outcome => Ending request deeds feed outcome

section Step
variable {request : OperationRequest} {deeds : List Deed} {feed : Feed} {call call' : Call} {a : CallAction}
  {field : CoreField} {rest : List CoreField} {state : ReceiverState}

theorem Asked.next (h : Asked request deeds (field :: rest)) : Asked request (deeds ++ [.queried field]) rest := by
  obtain ⟨asked, hall, rfl⟩ := h
  refine ⟨asked ++ [field], ?_, ?_⟩
  · rw [List.append_assoc, List.singleton_append, hall]
  · rw [List.map_append, List.map_singleton]

theorem Asked.compare (h : Asked request deeds [field]) (state : ReceiverState) :
    Compared request (deeds ++ [.queried field, .compared state]) state := by
  obtain ⟨asked, hall, rfl⟩ := h
  unfold Compared
  rw [← hall, List.map_append, List.append_assoc]
  rfl

theorem Sent.report {reports : List Deed} (h : Sent request deeds reports) {deed : Deed} (hdeed : deed.isReport = true) :
    Sent request (deeds ++ [deed]) (reports ++ [deed]) := by
  obtain ⟨cleared, command, hcleared, rfl, hreports⟩ := h
  refine ⟨cleared, command, hcleared, by rw [List.append_assoc, List.cons_append], fun other hother => ?_⟩
  obtain hother | hother := List.mem_append.mp hother
  · exact hreports other hother
  · rwa [List.mem_singleton.mp hother]

/-- After the comparison: the target is there, the requester has gone, or there is something to send or not. -/
theorem follows_beforeWrite (hcompared : Compared call.request deeds call.feed.state)
    (hholds : call.request.mismatchIn call.feed.state = none) (now : MonotonicMillis) (replyClosed : Bool) :
    Follows call.request deeds (call.beforeWrite now replyClosed).feed (call.beforeWrite now replyClosed).pc := by
  unfold Call.beforeWrite
  split_ifs with hthere hclosed
  · exact .there hcompared hholds hthere
  · exact .tooLate ⟨_, hcompared, hholds, Bool.eq_false_iff.mpr hthere⟩
  · have hcleared : ClearedToSend call.request deeds := ⟨_, hcompared, hholds, Bool.eq_false_iff.mpr hthere⟩
    cases encode call.request.intent with
    | ok command => exact hcleared
    | error error => exact .unsendable hcleared

/-- After a query on the way to the comparison. -/
theorem follows_verifyNext
    (hdeeds : match rest with
      | [] => Compared call.request deeds call.feed.state
      | rest => Asked call.request deeds rest)
    (now : MonotonicMillis) (replyClosed : Bool) :
    Follows call.request deeds (call.verifyNext rest now replyClosed).feed (call.verifyNext rest now replyClosed).pc := by
  cases rest with
  | cons field rest => exact hdeeds
  | nil =>
    unfold Call.verifyNext
    dsimp only
    cases hmismatch : call.request.precondition.bind (·.mismatch call.feed.state) with
    | some mismatch => exact .mismatch hdeeds hmismatch
    | none => exact follows_beforeWrite hdeeds hmismatch now replyClosed

/-- A query of the operate path is answered. -/
theorem follows_queryAnswered {purpose : Purpose} {line : String} {generation : ℕ} {now : MonotonicMillis}
    {replyClosed expired : Bool} (hpc : call.pc = .await purpose) (h : Follows call.request deeds call.feed call.pc)
    (hfeed : feed = ((call.feed.synchronizeGeneration generation).reduceLine now line true).1) :
    Follows call.request (deeds ++ call.deeds (.answer (.ok line) generation now replyClosed expired))
      ({ call with feed }.queryAnswered purpose now replyClosed expired).feed
      ({ call with feed }.queryAnswered purpose now replyClosed expired).pc := by
  have hdeeds : call.deeds (.answer (.ok line) generation now replyClosed expired) =
      .queried (call.fieldOf purpose) ::
        if call.pending = some [call.fieldOf purpose] then [.compared feed.state] else [] := by
    unfold Call.deeds
    rw [hpc, hfeed]
  have hnext : ∀ field rest, call.fieldOf purpose = field → call.pending = some (field :: rest) →
      Asked call.request deeds (field :: rest) →
      Follows call.request (deeds ++ call.deeds (.answer (.ok line) generation now replyClosed expired))
        ({ call with feed }.verifyNext rest now replyClosed).feed
        ({ call with feed }.verifyNext rest now replyClosed).pc := by
    intro field rest hfield hpending hasked
    rw [hdeeds, hfield, hpending]
    refine @follows_verifyNext _ { call with feed } rest ?_ now replyClosed
    cases rest with
    | nil =>
      rw [if_pos rfl]
      exact hasked.compare feed.state
    | cons other rest =>
      rw [if_neg (by simp)]
      exact hasked.next
  have hreport : ∀ reports, Sent call.request deeds reports → call.pending = none → ∃ reports,
      Sent call.request (deeds ++ call.deeds (.answer (.ok line) generation now replyClosed expired)) reports := by
    intro reports hsent hpending
    rw [hdeeds, hpending, if_neg (by simp)]
    exact ⟨_, hsent.report rfl⟩
  have hpending : call.pending = pendingAt call.request (.await purpose) := by
    unfold Call.pending
    rw [hpc]
  rw [hpc] at h
  cases purpose with
  | preflight => exact hnext _ call.request.verifyFields rfl hpending h
  | verify field rest => exact hnext field rest rfl hpending h
  | ambiguous error =>
    obtain ⟨reports, hsent⟩ := h
    obtain ⟨reports, hsent⟩ := hreport reports hsent hpending
    unfold Call.queryAnswered
    dsimp only
    split_ifs with hthere
    · exact .observed hsent hthere
    · exact .unclear hsent
  | confirm =>
    obtain ⟨reports, hsent⟩ := h
    obtain ⟨reports, hsent⟩ := hreport reports hsent hpending
    unfold Call.queryAnswered
    dsimp only
    split_ifs with hthere
    · exact .observed hsent hthere
    · exact .unclear hsent
    · exact ⟨reports, hsent⟩

/-- A query of the operate path fails. -/
theorem follows_queryFailed {purpose : Purpose} (hpc : call.pc = .await purpose)
    (h : Follows call.request deeds call.feed call.pc) (error : AvrSessionError) :
    Follows call.request deeds (call.queryFailed purpose error).feed (call.queryFailed purpose error).pc := by
  rw [hpc] at h
  cases purpose with
  | preflight => exact .unobserved h
  | verify field rest => exact .unobserved h
  | ambiguous writeError =>
    obtain ⟨reports, hsent⟩ := h
    exact .unclear hsent
  | confirm =>
    obtain ⟨reports, hsent⟩ := h
    exact .unclear hsent

/-- The transport answers the command. -/
theorem follows_dispatched {command : AvrCommand} {result : Except AvrSessionError Unit} (hpc : call.pc = .sent command)
    (hreturns : call.returnsOf (.sent result) = true) (h : Follows call.request deeds call.feed call.pc) :
    Follows call.request (deeds ++ [.answered result]) (call.dispatched result).feed (call.dispatched result).pc := by
  rw [hpc] at h
  have hsent : Sent call.request (deeds ++ [.answered result]) [.answered result] := Sent.report h rfl
  cases result with
  | ok done => exact ⟨_, hsent⟩
  | error error =>
    cases error with
    | invalidCommand message =>
      -- the command is one, so its text is not found invalid
      unfold Call.returnsOf at hreturns
      rw [hpc] at hreturns
      dsimp only at hreturns
      rw [AvrCommand.new_text] at hreturns
      cases hreturns
    | sessionStopped => exact .stopped hsent
    | _ => exact ⟨_, hsent⟩

theorem request_beforeWrite (call : Call) (now : MonotonicMillis) (replyClosed : Bool) :
    (call.beforeWrite now replyClosed).request = call.request := by
  unfold Call.beforeWrite
  split_ifs
  · rfl
  · rfl
  · split <;> rfl

theorem request_verifyNext (call : Call) (rest : List CoreField) (now : MonotonicMillis) (replyClosed : Bool) :
    (call.verifyNext rest now replyClosed).request = call.request := by
  unfold Call.verifyNext
  split
  · rfl
  · split
    · rfl
    · exact request_beforeWrite call now replyClosed

theorem request_queryAnswered (call : Call) (purpose : Purpose) (now : MonotonicMillis) (replyClosed expired : Bool) :
    (call.queryAnswered purpose now replyClosed expired).request = call.request := by
  cases purpose with
  | preflight => exact request_verifyNext call _ now replyClosed
  | verify field rest => exact request_verifyNext call rest now replyClosed
  | ambiguous error =>
    unfold Call.queryAnswered
    dsimp only
    split_ifs <;> rfl
  | confirm =>
    unfold Call.queryAnswered
    dsimp only
    split_ifs <;> rfl

/-- **The step lemma.** -/
theorem follows_step (hreturns : call.returnsOf a = true) (hstep : call.step a = some call')
    (h : Follows call.request deeds call.feed call.pc) :
    call'.request = call.request ∧ Follows call.request (deeds ++ call.deeds a) call'.feed call'.pc := by
  cases callStep_of_step hstep with
  | begin now replyClosed hpc =>
    have hnone : call.deeds (.begin now replyClosed) = [] := by
      unfold Call.deeds
      rw [hpc]
    rw [hnone, List.append_nil]
    rw [hpc] at h
    unfold Call.begin
    split_ifs
    · exact ⟨rfl, .withdrawn h⟩
    · cases admitIntent call.request.intent with
      | error reason => exact ⟨rfl, .unsupported h⟩
      | ok admitted => exact ⟨rfl, h⟩
  | ask generation purpose hpc =>
    have hnone : call.deeds (.ask generation) = [] := by
      unfold Call.deeds
      rw [hpc]
    rw [hnone, List.append_nil]
    rw [hpc] at h
    cases purpose <;> exact ⟨rfl, h⟩
  | failed purpose error generation now replyClosed expired hpc =>
    have hnone : call.deeds (.answer (.error error) generation now replyClosed expired) = [] := by
      unfold Call.deeds
      rw [hpc]
    rw [hnone, List.append_nil]
    refine ⟨?_, follows_queryFailed hpc h error⟩
    cases purpose <;> rfl
  | answered purpose line generation now replyClosed expired hpc =>
    exact ⟨request_queryAnswered _ purpose now replyClosed expired, follows_queryAnswered hpc h rfl⟩
  | send command hpc =>
    have hone : call.deeds .send = [.sent command] := by
      unfold Call.deeds
      rw [hpc]
    rw [hpc] at h
    rw [hone]
    exact ⟨rfl, deeds, command, h, rfl, fun _ hmem => absurd hmem List.not_mem_nil⟩
  | sent command result hpc =>
    have hone : call.deeds (.sent result) = [.answered result] := by
      unfold Call.deeds
      rw [hpc]
    rw [hone]
    refine ⟨?_, follows_dispatched hpc hreturns h⟩
    cases result with
    | ok done => rfl
    | error error => cases error <;> rfl
  | wake hpc =>
    have hnone : call.deeds .wake = [] := by
      unfold Call.deeds
      rw [hpc]
    rw [hnone, List.append_nil]
    rw [hpc] at h
    exact ⟨rfl, h⟩
  | event event now hpc =>
    have hnone : call.deeds (.event (some event) now) = [] := by
      unfold Call.deeds
      rw [hpc]
    rw [hnone, List.append_nil]
    rw [hpc] at h
    obtain ⟨reports, hsent⟩ := h
    exact ⟨rfl, reports, hsent⟩
  | stopped now hpc =>
    have hnone : call.deeds (.event none now) = [] := by
      unfold Call.deeds
      rw [hpc]
    rw [hnone, List.append_nil]
    rw [hpc] at h
    obtain ⟨reports, hsent⟩ := h
    exact ⟨rfl, .unclear hsent⟩

end Step

/-! ### The contract -/

/-- Before a command is given to the transport, every field the call has to re-observe was queried, and then the
precondition was compared and held, and the target was compared and was not there. -/
def SendGrounds (request : OperationRequest) (before : List Deed) : Deed → Prop
  | .sent _ => ∃ asked state, before = asked ++ [.compared state] ∧ (∀ f, Named request f → .queried f ∈ asked) ∧
      request.mismatchIn state = none ∧ stateMatches state request.intent = false
  | _ => True

/-- The outcomes that say that nothing was dispatched. -/
def OperationOutcome.isUndispatched : OperationOutcome → Bool
  | .rejectedBeforeDispatch _ _ _ | .alreadyObserved _ _ | .cancelled _ => true
  | _ => false

structure Contract (request : OperationRequest) (m : Operated) : Prop where
  once : m.deeds.countP Deed.isSent ≤ 1
  checked : Justified (SendGrounds request) m.deeds
  /-- A precondition that does not hold when everything was re-observed is what is reported, whether the target is there
  or not. -/
  precedence : ∀ state mismatch, .compared state ∈ m.deeds → request.mismatchIn state = some mismatch →
    m.call.pc = .done (.rejectedBeforeDispatch request.id (.preconditionMismatch mismatch) (describeMismatch mismatch))
  /-- The target was there, in a state in which the precondition held. -/
  there : ∀ observation, m.call.pc = .done (.alreadyObserved request.id observation) →
    ∃ state, .compared state ∈ m.deeds ∧ request.mismatchIn state = none ∧ stateMatches state request.intent = true
  /-- Such an outcome was reached with nothing sent, or because the session was stopped. -/
  undispatched : ∀ outcome, m.call.pc = .done outcome → OperationOutcome.isUndispatched outcome = true →
    (∀ command, .sent command ∉ m.deeds) ∨
      ∃ reason, outcome = .rejectedBeforeDispatch request.id .sessionStopped reason ∧
        .answered (.error .sessionStopped) ∈ m.deeds
  /-- What is confirmed is what the published state shows. -/
  observed : ∀ dispatch observation, m.call.pc = .done (.observedRequestedValue request.id dispatch observation) →
    stateMatches m.call.feed.state request.intent = true

section Contract
variable {request : OperationRequest} {cycle : SyncCycleId} {feed : Feed} {deeds reports : List Deed}
  {rest : List CoreField} {state : ReceiverState}

/-- Nothing is counted where no command is. -/
theorem countP_isSent_eq_zero (h : ∀ command, Deed.sent command ∉ deeds) : deeds.countP Deed.isSent = 0 := by
  rw [List.countP_eq_zero]
  intro deed hmem hsent
  cases deed with
  | sent command => exact h command hmem
  | _ => cases hsent

theorem sent_notMem_queried (fields : List CoreField) (command : AvrCommand) :
    Deed.sent command ∉ fields.map Deed.queried := by
  intro hmem
  obtain ⟨field, -, heq⟩ := List.mem_map.mp hmem
  cases heq

theorem Compared.sent_notMem (h : Compared request deeds state) (command : AvrCommand) : Deed.sent command ∉ deeds := by
  rw [show deeds = _ from h]
  intro hmem
  obtain hmem | hmem := List.mem_append.mp hmem
  · exact sent_notMem_queried _ command hmem
  · cases List.mem_singleton.mp hmem

/-- The state that everything was compared with is the one. -/
theorem Compared.eq_of_mem (h : Compared request deeds state) {other : ReceiverState} (hmem : .compared other ∈ deeds) :
    other = state := by
  rw [show deeds = _ from h] at hmem
  obtain hmem | hmem := List.mem_append.mp hmem
  · obtain ⟨field, -, heq⟩ := List.mem_map.mp hmem
    cases heq
  · exact Deed.compared.inj (List.mem_singleton.mp hmem)

theorem Compared.mem (h : Compared request deeds state) : .compared state ∈ deeds := by
  rw [show deeds = _ from h]
  exact List.mem_append_right _ List.mem_cons_self

theorem Asked.sent_notMem (h : Asked request deeds rest) (command : AvrCommand) : Deed.sent command ∉ deeds := by
  obtain ⟨asked, -, rfl⟩ := h
  exact sent_notMem_queried asked command

theorem Asked.compared_notMem (h : Asked request deeds rest) (state : ReceiverState) : Deed.compared state ∉ deeds := by
  obtain ⟨asked, -, rfl⟩ := h
  intro hmem
  obtain ⟨field, -, heq⟩ := List.mem_map.mp hmem
  cases heq

theorem justified_of_unsent {before : List Deed} (h : ∀ command, Deed.sent command ∉ deeds)
    (hbefore : Justified (SendGrounds request) before) : Justified (SendGrounds request) (before ++ deeds) := by
  refine hbefore.append fun deed hmem earlier => ?_
  cases deed with
  | sent command => exact absurd hmem (h command)
  | _ => trivial

/-- The command has its grounds, and is the only one. -/
theorem Sent.spec (h : Sent request deeds reports) :
    deeds.countP Deed.isSent ≤ 1 ∧ Justified (SendGrounds request) deeds ∧
      ∀ state, .compared state ∈ deeds → request.mismatchIn state = none := by
  obtain ⟨cleared, command, ⟨state, hcompared, hholds, hthere⟩, rfl, hreports⟩ := h
  have hbefore := hcompared.sent_notMem
  have hafter : ∀ command, Deed.sent command ∉ reports := fun _ hmem => by cases hreports _ hmem
  have hgrounds : SendGrounds request cleared (.sent command) := by
    refine ⟨_, state, hcompared, fun f hnamed => ?_, hholds, hthere⟩
    exact List.mem_map.mpr ⟨f, mem_target_cons_verifyFields.mpr hnamed, rfl⟩
  refine ⟨?_, ?_, fun other hmem => ?_⟩
  · rw [List.countP_append, List.countP_cons, countP_isSent_eq_zero hbefore, countP_isSent_eq_zero hafter]
    exact le_rfl
  · rw [← List.singleton_append, ← List.append_assoc]
    exact justified_of_unsent hafter ((justified_of_unsent hbefore justified_nil).concat hgrounds)
  · obtain hmem | hmem := List.mem_append.mp hmem
    · rw [hcompared.eq_of_mem hmem]
      exact hholds
    · obtain hmem | hmem := List.mem_cons.mp hmem
      · cases hmem
      · cases hreports _ hmem

/-- A call of which nothing was sent, and in which no precondition was found not to hold. -/
theorem Contract.of_unsent {m : Operated} (hunsent : ∀ command, .sent command ∉ m.deeds)
    (hholds : ∀ state mismatch, .compared state ∈ m.deeds → request.mismatchIn state = some mismatch →
      m.call.pc = .done (.rejectedBeforeDispatch request.id (.preconditionMismatch mismatch) (describeMismatch mismatch)))
    (hthere : ∀ observation, m.call.pc = .done (.alreadyObserved request.id observation) →
      ∃ state, .compared state ∈ m.deeds ∧ request.mismatchIn state = none ∧ stateMatches state request.intent = true)
    (hobserved : ∀ dispatch observation, m.call.pc ≠ .done (.observedRequestedValue request.id dispatch observation)) :
    Contract request m where
  once := (countP_isSent_eq_zero hunsent).le.trans zero_le_one
  checked := justified_of_unsent hunsent justified_nil
  precedence := hholds
  there := hthere
  undispatched _ _ _ := .inl hunsent
  observed dispatch observation hpc := absurd hpc (hobserved dispatch observation)

/-- A call of which the command was sent. -/
theorem Contract.of_sent {m : Operated} (hsent : Sent request m.deeds reports)
    (hthere : ∀ observation, m.call.pc ≠ .done (.alreadyObserved request.id observation))
    (hundispatched : ∀ outcome, m.call.pc = .done outcome → OperationOutcome.isUndispatched outcome = true →
      ∃ reason, outcome = .rejectedBeforeDispatch request.id .sessionStopped reason ∧
        .answered (.error .sessionStopped) ∈ m.deeds)
    (hobserved : ∀ dispatch observation, m.call.pc = .done (.observedRequestedValue request.id dispatch observation) →
      stateMatches m.call.feed.state request.intent = true) : Contract request m where
  once := hsent.spec.1
  checked := hsent.spec.2.1
  precedence state mismatch hmem hfound := by
    rw [hsent.spec.2.2 state hmem] at hfound
    cases hfound
  there observation hpc := absurd hpc (hthere observation)
  undispatched outcome hpc hdenies := .inr (hundispatched outcome hpc hdenies)
  observed := hobserved

theorem contract_of_asked {m : Operated} (h : Asked request m.deeds rest)
    (hthere : ∀ observation, m.call.pc ≠ .done (.alreadyObserved request.id observation))
    (hobserved : ∀ dispatch observation, m.call.pc ≠ .done (.observedRequestedValue request.id dispatch observation)) :
    Contract request m :=
  .of_unsent h.sent_notMem (fun state _ hmem _ => absurd hmem (h.compared_notMem state))
    (fun observation hpc => absurd hpc (hthere observation)) hobserved

theorem contract_of_cleared {m : Operated} (h : ClearedToSend request m.deeds)
    (hthere : ∀ observation, m.call.pc ≠ .done (.alreadyObserved request.id observation))
    (hobserved : ∀ dispatch observation, m.call.pc ≠ .done (.observedRequestedValue request.id dispatch observation)) :
    Contract request m := by
  obtain ⟨state, hcompared, hholds, -⟩ := h
  refine .of_unsent hcompared.sent_notMem (fun other mismatch hmem hfound => ?_)
    (fun observation hpc => absurd hpc (hthere observation)) hobserved
  rw [hcompared.eq_of_mem hmem, hholds] at hfound
  cases hfound

theorem Ending.contract {m : Operated} {outcome : OperationOutcome} (hpc : m.call.pc = .done outcome)
    (h : Ending request m.deeds m.call.feed outcome) : Contract request m := by
  cases h with
  | withdrawn hasked | unsupported hasked | unobserved hasked =>
    exact contract_of_asked hasked (by simp [hpc]) (by simp [hpc])
  | tooLate hcleared | unsendable hcleared => exact contract_of_cleared hcleared (by simp [hpc]) (by simp [hpc])
  | mismatch hcompared hfound =>
    refine .of_unsent hcompared.sent_notMem (fun other mismatch hmem hother => ?_) (by simp [hpc]) (by simp [hpc])
    rw [hcompared.eq_of_mem hmem, hfound] at hother
    rw [hpc, Option.some.inj hother]
  | there hcompared hholds hthere =>
    refine .of_unsent hcompared.sent_notMem (fun other mismatch hmem hother => ?_)
      (fun _ _ => ⟨_, hcompared.mem, hholds, hthere⟩) (by simp [hpc])
    rw [hcompared.eq_of_mem hmem, hholds] at hother
    cases hother
  | stopped hsent =>
    refine .of_sent hsent (by simp [hpc]) (fun outcome hdone _ => ?_) (by simp [hpc])
    rw [hpc] at hdone
    obtain rfl := Pc.done.inj hdone
    obtain ⟨cleared, command, -, heq, -⟩ := hsent
    exact ⟨_, rfl, heq ▸ List.mem_append_right _ (List.mem_cons_of_mem _ List.mem_cons_self)⟩
  | unclear hsent =>
    refine .of_sent hsent (by simp [hpc]) (fun outcome hdone hdenies => ?_) (by simp [hpc])
    rw [hpc] at hdone
    obtain rfl := Pc.done.inj hdone
    cases hdenies
  | observed hsent hthere =>
    refine .of_sent hsent (by simp [hpc]) (fun outcome hdone hdenies => ?_) (fun _ _ _ => hthere)
    rw [hpc] at hdone
    obtain rfl := Pc.done.inj hdone
    cases hdenies

theorem Follows.contract {m : Operated} (h : Follows request m.deeds m.call.feed m.call.pc) : Contract request m := by
  have hnotThere : (∀ outcome, m.call.pc ≠ .done outcome) → ∀ observation,
      m.call.pc ≠ .done (.alreadyObserved request.id observation) := fun hrunning _ => hrunning _
  have hnotObserved : (∀ outcome, m.call.pc ≠ .done outcome) → ∀ dispatch observation,
      m.call.pc ≠ .done (.observedRequestedValue request.id dispatch observation) := fun hrunning _ _ => hrunning _
  have hlate : ∀ reports, Sent request m.deeds reports → (∀ outcome, m.call.pc ≠ .done outcome) → Contract request m :=
    fun reports hsent hrunning => .of_sent hsent (hnotThere hrunning) (fun outcome hpc _ => absurd hpc (hrunning outcome))
      fun _ _ hpc => absurd hpc (hrunning _)
  cases hpc : m.call.pc with
  | start =>
    rw [hpc] at h
    exact contract_of_asked h (by simp [hpc]) (by simp [hpc])
  | ask purpose | await purpose =>
    rw [hpc] at h
    cases purpose with
    | preflight | verify field rest => exact contract_of_asked h (by simp [hpc]) (by simp [hpc])
    | ambiguous error | confirm =>
      obtain ⟨reports, hsent⟩ := h
      exact hlate reports hsent (by simp [hpc])
  | send command =>
    rw [hpc] at h
    exact contract_of_cleared h (by simp [hpc]) (by simp [hpc])
  | sent command =>
    rw [hpc] at h
    exact hlate [] h (by simp [hpc])
  | pause =>
    rw [hpc] at h
    obtain ⟨reports, hsent⟩ := h
    exact hlate reports hsent (by simp [hpc])
  | done outcome =>
    rw [hpc] at h
    exact Ending.contract hpc h

/-- **The contract of `operate`**, in every run of every request, whatever the feed it begins on and whatever the transport
answers. -/
theorem contract_of_reachable (request : OperationRequest) (cycle : SyncCycleId) (feed : Feed) (m : Operated)
    (h : (operated request cycle feed).Reachable m) : Contract request m := by
  have hfollows : m.call.request = request ∧ Follows m.call.request m.deeds m.call.feed m.call.pc := by
    refine Machine.Reachable.invariant
      (I := fun m : Operated => m.call.request = request ∧ Follows m.call.request m.deeds m.call.feed m.call.pc)
      (fun m hinit => ?_) (fun m a m' _ hi hstep => ?_) h
    · obtain rfl : m = { call := { request, cycle, feed } } := hinit
      exact ⟨rfl, [], rfl, rfl⟩
    · unfold operated at hstep
      dsimp only at hstep
      split_ifs at hstep with hreturns
      obtain ⟨call, hcall, rfl⟩ := Option.map_eq_some_iff.mp hstep
      obtain ⟨hrequest, hnext⟩ := follows_step hreturns hcall hi.2
      refine ⟨hrequest.trans hi.1, ?_⟩
      dsimp only
      rw [hrequest]
      exact hnext
  obtain ⟨hrequest, hfollows⟩ := hfollows
  rw [hrequest] at hfollows
  exact hfollows.contract

end Contract

/-- The volume is raised and the new volume read. -/
def raisedRun : List CallAction :=
  answeredRun "MV40" ++ [.send, .sent (.ok ()), .ask 0, .answer (.ok "MV42") 0 40 false false]

def raised : Operated :=
  ((operated raiseVolume 1 quietFeed).exec { call := { request := raiseVolume, cycle := 1, feed := quietFeed } }
    raisedRun).get (by decide)

theorem contract_raised : Contract raiseVolume raised :=
  contract_of_reachable raiseVolume 1 quietFeed raised
    (Machine.reachable_of_exec { call := { request := raiseVolume, cycle := 1, feed := quietFeed } : Operated } raisedRun rfl
      (Option.some_get _).symm)

end DenonAvr.Session
