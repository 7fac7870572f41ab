import DenonAvr.Domain.SyncDebt
import DenonAvr.Library.History
import DenonAvr.Session.Operate

/-!
# The actor and its debt

The loop of the session actor: it looks at its budget, waits for the first thing to happen, and does it to the end. What
it waits for inside is a phase of its own, and an action carries what it is given there: the events of the transport and
what it answers, the commands, the clock.

A field that changed, or that a control may have changed, is put in the debt, to be read again. The log says which fields
were put there, and for which epoch, and which queries succeeded. A field that was put there is there until it is read, or
until the debt is opened anew for another epoch (`owes_of_due`).
-/

namespace DenonAvr.Session

open Domain Library

/-! ### Queries -/

/-- What `query_and_reduce` is given: the generation before and after, the answer, and the clock at the end. -/
structure Query where
  before : ℕ
  result : Except AvrSessionError String
  after : ℕ
  now : MonotonicMillis
deriving DecidableEq

def Feed.queryAndReduce (feed : Feed) (query : Query) : Feed × Except AvrSessionError Unit :=
  let feed := feed.synchronizeGeneration query.before
  match query.result with
  | .error error => (feed, .error error)
  | .ok line => (((feed.synchronizeGeneration query.after).reduceLine query.now line true).1, .ok ())

/-- A query of a field, and the mark it leaves. -/
def Feed.queryField (feed : Feed) (field : CoreField) (query : Query) (cycle : SyncCycleId) : Feed × Bool :=
  match feed.queryAndReduce query with
  | (feed, .ok ()) => (feed.markSettled field cycle query.now, true)
  | (feed, .error error) => (feed.markQueryFailed field (operationErrorText error), false)

/-! ### The actor -/

/-- One pass over the debt. -/
structure Pass where
  finalPass : Bool
  now : MonotonicMillis
  receiver : ReceiverId
  epoch : Epoch
  /-- The fields still to be asked for. -/
  rest : List CoreField
  allSucceeded : Bool := true
deriving DecidableEq

inductive ActorPhase
  /-- At the top of the loop. -/
  | top
  /-- Waiting for what comes first. -/
  | select
  /-- About to look at the debt. -/
  | service
  | pass (pass : Pass)
  /-- Synchronizing, with the fields still to be asked for. -/
  | synchronize (rest : List CoreField) (degraded : Bool)
  | operate (call : Call)
  | stopped
deriving DecidableEq

inductive DebtEntry
  /-- The field was put in the debt, for this epoch. -/
  | put (epoch : Epoch) (field : CoreField)
  /-- A query for the field succeeded. -/
  | queried (field : CoreField)
deriving DecidableEq

structure ActorLoop where
  feed : Feed
  cycle : SyncCycleId
  debt : Option SyncDebt := none
  userWorkStarted : MonotonicMillis := 0
  userActionCount : ℕ := 0
  /-- The pass under way was forced by the budget. -/
  forced : Bool := false
  phase : ActorPhase
  log : List DebtEntry := []
deriving DecidableEq

inductive LoopAction
  /-- The budget is looked at. -/
  | check (now : MonotonicMillis)
  | debtTick
  /-- `service_debt` looks at the debt. -/
  | service (now : MonotonicMillis)
  | sweep (now : MonotonicMillis)
  | event (event : Option SessionEvent) (now : MonotonicMillis)
  | observe (field : CoreField) (asked : MonotonicMillis) (query : Query)
  | synchronize
  | operate (request : OperationRequest) (replyClosed : Bool) (now : MonotonicMillis)
  | close
  /-- The next query of a pass or of a synchronization. -/
  | query (asked : MonotonicMillis) (query : Query)
  /-- A pass or a synchronization is at its end. -/
  | finish (now : MonotonicMillis)
  /-- A step of the operation under way. -/
  | call (action : CallAction) (now : MonotonicMillis)
deriving DecidableEq

/-- `core_intents`, by their fields. -/
def coreFields : List CoreField := [.systemPower, .mainZonePower, .zone2Power, .source, .volume, .mute, .soundMode]

def maxUserActionsBeforeDebt : ℕ := 8
def maxUserWorkWindow : ℕ := 500

def fairnessBudgetDue (debt : Option SyncDebt) (now userWorkStarted : MonotonicMillis) (userActionCount : ℕ) : Bool :=
  (debt.any fun value => value.quickDue now || value.finalDue now) &&
    (maxUserActionsBeforeDebt ≤ userActionCount || maxUserWorkWindow ≤ now - userWorkStarted)

namespace ActorLoop

/-- A session that has just connected: the first synchronization is under way. -/
def start (receiver : ReceiverId) : ActorLoop :=
  { feed := Feed.new receiver, cycle := 1, phase := .synchronize coreFields false }

def mergeDebt (s : ActorLoop) (cause : SyncCause) (now : MonotonicMillis) (field : CoreField) : ActorLoop :=
  match s.feed.state.epoch with
  | none => s
  | some epoch =>
    let receiver := s.feed.state.receiver
    let opened := SyncDebt.new receiver epoch s.cycle field cause now
    let debt := s.debt.elim opened fun existing =>
      if existing.isFor receiver epoch then (existing.merge [field] cause).noteActivity now else opened
    { s with debt, log := s.log ++ [.put epoch field] }

def clearSettledDebt (debt : Option SyncDebt) (ready : Bool) (now : MonotonicMillis) : Option SyncDebt :=
  if !ready then debt
  else if debt.all fun value => value.finalDue now || value.finalReconcileAt.isNone then none
  else debt

/-- Where `service_debt` returns to. -/
def serviced (s : ActorLoop) (now : MonotonicMillis) : ActorLoop :=
  if s.forced then { s with phase := .top, forced := false, userWorkStarted := now, userActionCount := 0 }
  else { s with phase := .top }

/-- `service_debt` up to its first query. -/
def beginService (s : ActorLoop) (now : MonotonicMillis) : ActorLoop :=
  match s.debt with
  | none => s.serviced now
  | some current =>
    let finalPass := current.finalDue now
    if !finalPass && !current.quickDue now then s.serviced now
    else if current.fieldList.isEmpty then
      if finalPass then { s with debt := none }.serviced now else s.serviced now
    else
      let pass : Pass :=
        { finalPass, now, receiver := current.receiver, epoch := current.epoch, rest := current.fieldList }
      { s with phase := .pass pass }

/-- `service_debt` after its last query. -/
def endService (s : ActorLoop) (pass : Pass) (now : MonotonicMillis) : ActorLoop :=
  match s.debt with
  | none => s.serviced now
  | some value =>
    if !value.isFor pass.receiver pass.epoch then s.serviced now
    else if pass.allSucceeded && (value.finalReconcileAt.isNone || (pass.finalPass && value.settled)) then
      { s with debt := none }.serviced now
    else if !pass.finalPass then
      let next := value.finalReconcileAt.getD (pass.now + 5000)
      { s with debt := some (value.deferQuickUntil next) }.serviced now
    else s.serviced now

def beginSynchronize (s : ActorLoop) : ActorLoop := { s with cycle := s.cycle + 1, phase := .synchronize coreFields false }

/-- A command of a user counts towards the budget. -/
def countAction (s : ActorLoop) : ActorLoop :=
  { s with userActionCount := min (s.userActionCount + 1) 255, cycle := s.cycle + 1 }

/-- The field a step of a call has read. -/
def readBy (call : Call) : CallAction → Option CoreField
  | .answer (.ok _) _ _ _ _ =>
    match call.pc with
    | .await purpose => some (call.fieldOf purpose)
    | _ => none
  | _ => none

/-- After a complete write the debt waits for the receiver to settle. -/
def debtAfter (debt : Option SyncDebt) (now : MonotonicMillis) : CallAction → Option SyncDebt
  | .sent (.ok ()) => debt.map fun value => value.deferFinalUntil (now + 5000)
  | _ => debt

def afterCall (s : ActorLoop) (call : Call) (action : CallAction) (now : MonotonicMillis) (call' : Call) : ActorLoop :=
  { s with
    feed := call'.feed
    debt := debtAfter s.debt now action
    phase := match call'.pc with
      | .done _ => .top
      | _ => .operate call'
    log := s.log ++ ((readBy call action).map DebtEntry.queried).toList }

def step (s : ActorLoop) : LoopAction → Option ActorLoop
  | .check now =>
    if s.phase = .top then
      if fairnessBudgetDue s.debt now s.userWorkStarted s.userActionCount then
        some { s with phase := .service, forced := true }
      else some { s with phase := .select }
    else none
  | .debtTick => if s.phase = .select then some { s with phase := .service } else none
  | .service now => if s.phase = .service then some (s.beginService now) else none
  | .sweep now => if s.phase = .select then some { s with feed := s.feed.expire now }.beginSynchronize else none
  | .event event now =>
    if s.phase = .select then
      match event with
      | none => some { s with phase := .stopped }
      | some event =>
        let (feed, field) := s.feed.applyEvent now event
        let s := { s with feed, phase := .top }
        let s := field.elim s (s.mergeDebt .receiverEvent now)
        -- Every field was marked stale when the old connection went, so all are read at once.
        if event = .reconnected then some s.beginSynchronize else some s
    else none
  | .observe field asked query =>
    if s.phase = .select ∧ Call.answers field query.result then
      let s := s.countAction
      let (feed, read) := (s.feed.markConverging field .manualRefresh s.cycle asked).queryField field query s.cycle
      some { s with feed, phase := .top, log := if read then s.log ++ [.queried field] else s.log }
    else none
  | .synchronize => if s.phase = .select then some s.countAction.beginSynchronize else none
  | .operate request replyClosed now =>
    if s.phase = .select then
      let s := s.countAction
      let s := if replyClosed then s else (dependencyFields request.intent.field).foldl (mergeDebt · .localControl now) s
      some { s with phase := .operate { request, cycle := s.cycle, feed := s.feed } }
    else none
  | .close => if s.phase = .select then some { s with phase := .stopped } else none
  | .query asked query =>
    match s.phase with
    | .pass pass =>
      match pass.rest with
      | [] => none
      | field :: rest =>
        if Call.answers field query.result then
          let (feed, read) := s.feed.queryField field query s.cycle
          if read then
            some { s with
              feed
              debt := if pass.finalPass then s.debt.map (·.settleField field) else s.debt
              phase := .pass { pass with rest }
              log := s.log ++ [.queried field] }
          else some { s with feed, phase := .pass { pass with rest, allSucceeded := false } }
        else none
    | .synchronize (field :: rest) degraded =>
      if Call.answers field query.result then
        let (feed, read) := (s.feed.markConverging field .manualRefresh s.cycle asked).queryField field query s.cycle
        if read then some { s with feed, phase := .synchronize rest degraded, log := s.log ++ [.queried field] }
        else some { s with feed, phase := .synchronize rest true }
      else none
    | _ => none
  | .finish now =>
    match s.phase with
    | .pass pass => if pass.rest = [] then some (s.endService pass now) else none
    | .synchronize [] degraded =>
      some { s with debt := clearSettledDebt s.debt (!degraded) now, phase := .top }
    | _ => none
  | .call action now =>
    match s.phase with
    | .operate call =>
      ({ call with feed := s.feed }.step action).map fun call' => s.afterCall call action now call'
    | _ => none

end ActorLoop

/-- The actor of a session, from the moment it has connected. -/
def sessionActor : Machine ActorLoop LoopAction where
  init s := ∃ receiver, s = ActorLoop.start receiver
  step := ActorLoop.step

/-! ### What is due -/

/-- A field was put in the debt for an epoch, and since then neither read nor was any put there for another epoch. -/
def Due (log : List DebtEntry) (epoch : Epoch) (field : CoreField) : Prop :=
  Outstanding (· = .put epoch field) (fun entry => entry = .queried field ∨ ∃ e g, entry = .put e g ∧ e ≠ epoch) log

/-- The debt is for this epoch and has the field. -/
def Owes (debt : Option SyncDebt) (epoch : Epoch) (field : CoreField) : Prop :=
  ∃ value, debt = some value ∧ value.epoch = epoch ∧ field ∈ value.fields

section Due
variable {log : List DebtEntry} {epoch e : Epoch} {field g : CoreField}

theorem not_due_nil : ¬ Due [] epoch field := not_outstanding_nil

theorem due_put : Due (log ++ [.put e g]) epoch field ↔ e = epoch ∧ (g = field ∨ Due log epoch field) := by
  unfold Due
  rw [outstanding_concat]
  constructor
  · rintro (h | ⟨h, hkept⟩)
    · cases h
      exact ⟨rfl, .inl rfl⟩
    · by_cases he : e = epoch
      · exact ⟨he, .inr h⟩
      · exact absurd (.inr ⟨e, g, rfl, he⟩) hkept
  · rintro ⟨rfl, rfl | h⟩
    · exact .inl rfl
    · refine .inr ⟨h, ?_⟩
      rintro (h | ⟨e', g', h, hne⟩)
      · cases h
      · cases h
        exact hne rfl

theorem due_queried : Due (log ++ [.queried g]) epoch field ↔ Due log epoch field ∧ field ≠ g := by
  unfold Due
  rw [outstanding_concat]
  constructor
  · rintro (h | ⟨h, hkept⟩)
    · cases h
    · exact ⟨h, fun heq => hkept (.inl (heq ▸ rfl))⟩
  · rintro ⟨h, hne⟩
    refine .inr ⟨h, ?_⟩
    rintro (h | ⟨e', g', h, -⟩)
    · cases h
      exact hne rfl
    · cases h

end Due

/-! ### The receiver of a feed -/

namespace Feed
variable (feed : Feed) (now : MonotonicMillis)

theorem synchronizeGeneration_receiver (generation : ℕ) :
    (feed.synchronizeGeneration generation).state.receiver = feed.state.receiver := by
  unfold synchronizeGeneration ReceiverState.establishEpoch
  dsimp only
  split_ifs <;> rfl

theorem reduceLine_receiver (line : String) (inQuery : Bool) :
    (feed.reduceLine now line inQuery).1.state.receiver = feed.state.receiver := by
  unfold reduceLine reduceLineState
  dsimp only
  split
  · rfl
  · rfl
  · split
    · rfl
    · split_ifs <;> simp [ReceiverState.reduce, ReceiverState.markConverging, ReceiverState.bump] <;> split_ifs <;> simp

theorem applyEvent_receiver (event : SessionEvent) :
    (feed.applyEvent now event).1.state.receiver = feed.state.receiver := by
  cases event with
  | line text => exact feed.reduceLine_receiver now text false
  | connected => rfl
  | disconnected generation message =>
    unfold applyEvent
    dsimp only
    split_ifs <;> rfl
  | reconnected =>
    unfold applyEvent ReceiverState.establishEpoch
    dsimp only
    split_ifs <;> rfl

theorem markConverging_receiver (field : CoreField) (cause : SyncCause) (cycle : SyncCycleId) :
    (feed.markConverging field cause cycle now).state.receiver = feed.state.receiver :=
  ReceiverState.mapField_receiver

theorem markSettled_receiver (field : CoreField) (cycle : SyncCycleId) :
    (feed.markSettled field cycle now).state.receiver = feed.state.receiver :=
  ReceiverState.mapField_receiver

theorem markQueryFailed_receiver (field : CoreField) (message : String) :
    (feed.markQueryFailed field message).state.receiver = feed.state.receiver :=
  ReceiverState.mapField_receiver

theorem expire_receiver : (feed.expire now).state.receiver = feed.state.receiver := by
  unfold expire ReceiverState.expireFields
  dsimp only
  split_ifs <;> rfl

theorem queryField_receiver (field : CoreField) (query : Query) (cycle : SyncCycleId) :
    (feed.queryField field query cycle).1.state.receiver = feed.state.receiver := by
  unfold queryField queryAndReduce
  cases query.result with
  | error error =>
    simp only [markQueryFailed_receiver, synchronizeGeneration_receiver]
  | ok line =>
    simp only [markSettled_receiver, reduceLine_receiver, synchronizeGeneration_receiver]

end Feed

namespace Call
variable {call call' : Call}

theorem markAll_receiver (call : Call) {mark : Feed → CoreField → Feed}
    (h : ∀ feed field, (mark feed field).state.receiver = feed.state.receiver) :
    (call.markAll mark).state.receiver = call.feed.state.receiver := by
  unfold markAll
  generalize dependencyFields call.target = fields
  generalize call.feed = feed
  induction fields generalizing feed with
  | nil => rfl
  | cons field fields ih => rw [List.foldl_cons, ih, h]

theorem beforeWrite_receiver (call : Call) (now : MonotonicMillis) (replyClosed : Bool) :
    (call.beforeWrite now replyClosed).feed.state.receiver = call.feed.state.receiver := by
  unfold beforeWrite
  split_ifs
  · exact call.markAll_receiver fun feed field => feed.markSettled_receiver now field call.cycle
  · rfl
  · split <;> rfl

theorem verifyNext_receiver (call : Call) (rest : List CoreField) (now : MonotonicMillis) (replyClosed : Bool) :
    (call.verifyNext rest now replyClosed).feed.state.receiver = call.feed.state.receiver := by
  cases rest with
  | cons field rest => rfl
  | nil =>
    unfold verifyNext
    dsimp only
    split
    · rfl
    · exact call.beforeWrite_receiver now replyClosed

theorem queryAnswered_receiver (call : Call) (purpose : Purpose) (now : MonotonicMillis) (replyClosed expired : Bool) :
    (call.queryAnswered purpose now replyClosed expired).feed.state.receiver = call.feed.state.receiver := by
  cases purpose with
  | preflight => exact call.verifyNext_receiver _ now replyClosed
  | verify field rest => exact call.verifyNext_receiver rest now replyClosed
  | ambiguous error =>
    simp only [queryAnswered]
    split_ifs <;> rfl
  | confirm =>
    simp only [queryAnswered]
    split_ifs <;> rfl

theorem queryFailed_receiver (call : Call) (purpose : Purpose) (error : AvrSessionError) :
    (call.queryFailed purpose error).feed.state.receiver = call.feed.state.receiver := by
  cases purpose with
  | ambiguous writeError => rfl
  | _ => exact call.feed.markQueryFailed_receiver _ _

theorem dispatched_receiver (call : Call) (result : Except AvrSessionError Unit) :
    (call.dispatched result).feed.state.receiver = call.feed.state.receiver := by
  cases result with
  | ok u => rfl
  | error error => cases error <;> rfl

theorem begin_receiver (call : Call) (now : MonotonicMillis) (replyClosed : Bool) :
    (call.begin now replyClosed).feed.state.receiver = call.feed.state.receiver := by
  unfold begin
  split_ifs
  · rfl
  · split
    · rfl
    · exact call.markAll_receiver fun feed field => feed.markConverging_receiver now field .localControl call.cycle

/-- An operation is about the one receiver throughout. -/
theorem step_receiver {action : CallAction} (hstep : call.step action = some call') :
    call'.feed.state.receiver = call.feed.state.receiver := by
  cases action with
  | begin now replyClosed =>
    simp only [step] at hstep
    split_ifs at hstep
    cases hstep
    exact call.begin_receiver now replyClosed
  | ask generation =>
    simp only [step] at hstep
    split at hstep <;> cases hstep
    exact call.feed.synchronizeGeneration_receiver generation
  | answer result generation now replyClosed expired =>
    simp only [step] at hstep
    split at hstep
    · split_ifs at hstep
      cases result with
      | error error =>
        cases hstep
        exact call.queryFailed_receiver _ error
      | ok line =>
        cases hstep
        rw [queryAnswered_receiver, Feed.reduceLine_receiver, Feed.synchronizeGeneration_receiver]
    · cases hstep
  | send =>
    simp only [step] at hstep
    split at hstep <;> cases hstep
    rfl
  | sent result =>
    simp only [step] at hstep
    split at hstep <;> cases hstep
    exact call.dispatched_receiver result
  | wake =>
    simp only [step] at hstep
    split_ifs at hstep
    cases hstep
    rfl
  | event event now =>
    simp only [step] at hstep
    split_ifs at hstep
    cases event with
    | none =>
      cases hstep
      rfl
    | some event =>
      cases hstep
      exact call.feed.applyEvent_receiver now event

end Call

/-! ### The invariant -/

/-- Other times, and the same fields for the same connection. -/
structure Rescheduled (value value' : SyncDebt) : Prop where
  receiver : value'.receiver = value.receiver
  epoch : value'.epoch = value.epoch
  fields : value'.fields = value.fields

namespace ActorLoop
variable {s s' : ActorLoop} {pass : Pass} {now : MonotonicMillis}

/-- What is due is owed. In the course of a pass or a synchronization that has not failed so far, what has been asked for
is not due any more. -/
structure Accounted (s : ActorLoop) : Prop where
  receiver : ∀ value, s.debt = some value → value.receiver = s.feed.state.receiver
  owes : ∀ epoch field, Due s.log epoch field → Owes s.debt epoch field
  pass : ∀ pass, s.phase = .pass pass → pass.allSucceeded = true → ∀ value, s.debt = some value →
    ∀ field ∈ value.fields, field ∈ pass.rest ∨ ∀ epoch, ¬ Due s.log epoch field
  synchronize : ∀ rest, s.phase = .synchronize rest false →
    ∀ field, field ∈ rest ∨ ∀ epoch, ¬ Due s.log epoch field

/-- Neither a pass nor a synchronization is under way. -/
def Between (s : ActorLoop) : Prop := (∀ pass, s.phase ≠ .pass pass) ∧ ∀ rest degraded, s.phase ≠ .synchronize rest degraded

theorem accounted_start (receiver : ReceiverId) : (start receiver).Accounted where
  receiver value h := by cases h
  owes epoch field h := absurd h not_due_nil
  pass pass h := by cases h
  synchronize rest h field := by
    cases h
    exact .inr fun _ => not_due_nil

theorem Accounted.of_between (h : s.Accounted) (hbetween : s'.Between) (hlog : s'.log = s.log)
    (hreceiver : s'.feed.state.receiver = s.feed.state.receiver) (hdebt : s'.debt = s.debt) : s'.Accounted where
  receiver value hvalue := by
    rw [hdebt] at hvalue
    rw [hreceiver, h.receiver value hvalue]
  owes epoch field hdue := by
    rw [hlog] at hdue
    rw [hdebt]
    exact h.owes epoch field hdue
  pass pass hphase := absurd hphase (hbetween.1 pass)
  synchronize rest hphase := absurd hphase (hbetween.2 rest false)

theorem Accounted.reschedule (h : s.Accounted) (hbetween : s'.Between) (hlog : s'.log = s.log)
    (hreceiver : s'.feed.state.receiver = s.feed.state.receiver) {value value' : SyncDebt} (hvalue : s.debt = some value)
    (hvalue' : s'.debt = some value') (hsame : Rescheduled value value') : s'.Accounted where
  receiver other hother := by
    obtain rfl := Option.some.inj (hvalue'.symm.trans hother)
    rw [hsame.receiver, hreceiver, h.receiver value hvalue]
  owes epoch field hdue := by
    rw [hlog] at hdue
    obtain ⟨other, hother, hepoch, hfield⟩ := h.owes epoch field hdue
    obtain rfl := Option.some.inj (hvalue.symm.trans hother)
    exact ⟨value', hvalue', hsame.epoch.trans hepoch, hsame.fields ▸ hfield⟩
  pass pass hphase := absurd hphase (hbetween.1 pass)
  synchronize rest hphase := absurd hphase (hbetween.2 rest false)

theorem Accounted.drop (hbetween : s'.Between) (hdebt : s'.debt = none)
    (hclear : ∀ epoch field, ¬ Due s'.log epoch field) : s'.Accounted where
  receiver value hvalue := by
    rw [hdebt] at hvalue
    cases hvalue
  owes epoch field hdue := absurd hdue (hclear epoch field)
  pass pass hphase := absurd hphase (hbetween.1 pass)
  synchronize rest hphase := absurd hphase (hbetween.2 rest false)

/-! ### What is put in the debt -/

theorem mergeDebt_phase (s : ActorLoop) (cause : SyncCause) (now : MonotonicMillis) (field : CoreField) :
    (s.mergeDebt cause now field).phase = s.phase := by
  unfold mergeDebt
  split <;> rfl

theorem mergeDebt_feed (cause : SyncCause) (field : CoreField) : (s.mergeDebt cause now field).feed = s.feed := by
  unfold mergeDebt
  split <;> rfl

/-- A debt for the connection at hand is added to, any other is replaced; nothing is due for another epoch then. -/
theorem Accounted.mergeDebt (h : s.Accounted) (hbetween : s.Between) (cause : SyncCause) (now : MonotonicMillis)
    (field : CoreField) : (s.mergeDebt cause now field).Accounted := by
  have hphase := s.mergeDebt_phase cause now field
  cases hepoch : s.feed.state.epoch with
  | none =>
    have heq : s.mergeDebt cause now field = s := by
      unfold ActorLoop.mergeDebt
      rw [hepoch]
    rw [heq]
    exact h
  | some epoch =>
    obtain ⟨value, hvalue, hreceiver, hvalueEpoch, hfield, hkept⟩ : ∃ value,
        (s.mergeDebt cause now field).debt = some value ∧ value.receiver = s.feed.state.receiver ∧
          value.epoch = epoch ∧ field ∈ value.fields ∧
          ∀ old, s.debt = some old → old.epoch = epoch → ∀ other ∈ old.fields, other ∈ value.fields := by
      unfold ActorLoop.mergeDebt
      rw [hepoch]
      dsimp only
      cases hdebt : s.debt with
      | none => exact ⟨_, rfl, rfl, rfl, by simp [SyncDebt.new], by rintro old ⟨⟩⟩
      | some old =>
        dsimp only [Option.elim]
        split_ifs with hfor
        · simp only [SyncDebt.isFor, Bool.and_eq_true, beq_iff_eq] at hfor
          refine ⟨_, rfl, hfor.1, hfor.2, by simp [SyncDebt.noteActivity, SyncDebt.merge], ?_⟩
          rintro old' ⟨⟩ - other hother
          simp [SyncDebt.noteActivity, SyncDebt.merge, hother]
        · refine ⟨_, rfl, rfl, rfl, by simp [SyncDebt.new], ?_⟩
          rintro old' ⟨⟩ hsame
          simp [SyncDebt.isFor, h.receiver old hdebt, hsame] at hfor
    have hlog : (s.mergeDebt cause now field).log = s.log ++ [.put epoch field] := by
      unfold ActorLoop.mergeDebt
      rw [hepoch]
    refine ⟨fun other hother => ?_, fun e f hdue => ?_, fun pass hp => ?_, fun rest hs => ?_⟩
    · obtain rfl := Option.some.inj (hvalue.symm.trans hother)
      rw [hreceiver, mergeDebt_feed]
    · rw [hlog, due_put] at hdue
      obtain ⟨rfl, rfl | hdue⟩ := hdue
      · exact ⟨value, hvalue, hvalueEpoch, hfield⟩
      · obtain ⟨old, hold, holdEpoch, hf⟩ := h.owes epoch f hdue
        exact ⟨value, hvalue, hvalueEpoch, hkept old hold holdEpoch f hf⟩
    · exact absurd (hphase.symm.trans hp) (hbetween.1 pass)
    · exact absurd (hphase.symm.trans hs) (hbetween.2 rest false)

theorem Accounted.mergeAll (h : s.Accounted) (hbetween : s.Between) (cause : SyncCause) (now : MonotonicMillis)
    (fields : List CoreField) :
    (fields.foldl (ActorLoop.mergeDebt · cause now) s).Accounted ∧
      (fields.foldl (ActorLoop.mergeDebt · cause now) s).phase = s.phase := by
  induction fields generalizing s with
  | nil => exact ⟨h, rfl⟩
  | cons field fields ih =>
    have hphase := s.mergeDebt_phase cause now field
    have hbetween' : (s.mergeDebt cause now field).Between :=
      ⟨fun pass => hphase ▸ hbetween.1 pass, fun rest degraded => hphase ▸ hbetween.2 rest degraded⟩
    obtain ⟨hrest, hrestPhase⟩ := ih (h.mergeDebt hbetween cause now field) hbetween'
    exact ⟨hrest, hrestPhase.trans hphase⟩

/-! ### A pass over the debt -/

theorem between_of_top (h : s.phase = .top) : s.Between :=
  ⟨fun _ hpass => (nomatch h.symm.trans hpass), fun _ _ hrest => (nomatch h.symm.trans hrest)⟩

theorem between_of_select (h : s.phase = .select) : s.Between :=
  ⟨fun _ hpass => (nomatch h.symm.trans hpass), fun _ _ hrest => (nomatch h.symm.trans hrest)⟩

theorem serviced_between : (s.serviced now).Between := by
  unfold serviced
  split_ifs <;> exact between_of_top rfl

theorem serviced_log : (s.serviced now).log = s.log := by
  unfold serviced
  split_ifs <;> rfl

theorem serviced_feed : (s.serviced now).feed = s.feed := by
  unfold serviced
  split_ifs <;> rfl

theorem serviced_debt : (s.serviced now).debt = s.debt := by
  unfold serviced
  split_ifs <;> rfl

theorem Accounted.serviced (h : s.Accounted) : (s.serviced now).Accounted :=
  h.of_between serviced_between serviced_log (by rw [serviced_feed]) serviced_debt

theorem Accounted.beginService (h : s.Accounted) (now : MonotonicMillis) : (s.beginService now).Accounted := by
  unfold ActorLoop.beginService
  cases hdebt : s.debt with
  | none => exact h.serviced
  | some current =>
    dsimp only
    split_ifs with hdue hempty hfinal
    · exact h.serviced
    · -- a debt without fields is dropped
      refine Accounted.drop serviced_between serviced_debt fun epoch field hfield => ?_
      rw [serviced_log] at hfield
      obtain ⟨value, hvalue, -, hmem⟩ := h.owes epoch field hfield
      obtain rfl := Option.some.inj (hdebt.symm.trans hvalue)
      rw [List.isEmpty_iff] at hempty
      exact absurd (hempty ▸ SyncDebt.mem_fieldList.mpr hmem) List.not_mem_nil
    · exact h.serviced
    · refine ⟨fun value hvalue => h.receiver value (hdebt.trans hvalue), fun epoch field hdue => ?_,
        fun pass hpass _ value hvalue field hfield => ?_, fun rest hrest => by cases hrest⟩
      · rw [← hdebt]
        exact h.owes epoch field hdue
      · cases hpass
        cases hvalue
        exact .inl (SyncDebt.mem_fieldList.mpr hfield)

theorem Accounted.endService (h : s.Accounted) (hphase : s.phase = .pass pass) (hrest : pass.rest = [])
    (now : MonotonicMillis) : (s.endService pass now).Accounted := by
  unfold ActorLoop.endService
  cases hdebt : s.debt with
  | none => exact h.serviced
  | some value =>
    dsimp only
    split_ifs with hother hdone hfinal
    · exact h.serviced
    · -- every field of the debt was asked for, and every query succeeded
      refine Accounted.drop serviced_between serviced_debt fun epoch field hdue => ?_
      rw [serviced_log] at hdue
      obtain ⟨value', hvalue', -, hmem⟩ := h.owes epoch field hdue
      rw [Bool.and_eq_true] at hdone
      rcases h.pass pass hphase hdone.1 value' hvalue' field hmem with hleft | hclear
      · exact absurd (hrest ▸ hleft) List.not_mem_nil
      · exact hclear epoch hdue
    · exact h.reschedule serviced_between serviced_log (by rw [serviced_feed]) hdebt serviced_debt ⟨rfl, rfl, rfl⟩
    · exact h.serviced

theorem Accounted.beginSynchronize (h : s.Accounted) : s.beginSynchronize.Accounted where
  receiver := h.receiver
  owes := h.owes
  pass pass hpass := by cases hpass
  synchronize rest hrest field := by
    cases hrest
    exact .inl (by cases field <;> decide)

/-- A query of a pass succeeds: its field is not due any more, and a final pass takes it from the debt. -/
theorem Accounted.passRead (h : s.Accounted) (hphase : s.phase = .pass pass) {field : CoreField} {rest : List CoreField}
    (hpass : pass.rest = field :: rest) (feed : Feed) (hreceiver : feed.state.receiver = s.feed.state.receiver) :
    Accounted { s with
      feed
      debt := if pass.finalPass then s.debt.map (·.settleField field) else s.debt
      phase := .pass { pass with rest }
      log := s.log ++ [.queried field] } := by
  have hdebt : ∀ value', (if pass.finalPass then s.debt.map (·.settleField field) else s.debt) = some value' →
      ∃ value, s.debt = some value ∧ value'.receiver = value.receiver ∧ value'.fields ⊆ value.fields := by
    intro value' hvalue'
    split_ifs at hvalue'
    · obtain ⟨value, hvalue, rfl⟩ := Option.map_eq_some_iff.mp hvalue'
      exact ⟨value, hvalue, rfl, Finset.erase_subset _ _⟩
    · exact ⟨value', hvalue', rfl, Finset.Subset.refl _⟩
  refine ⟨fun value' hvalue' => ?_, fun epoch f hdue => ?_, fun pass' hpass' hall value' hvalue' f hf => ?_,
    fun rest hrest => by cases hrest⟩
  · obtain ⟨value, hvalue, hsame, -⟩ := hdebt value' hvalue'
    rw [hsame, h.receiver value hvalue, hreceiver]
  · obtain ⟨hdue, hne⟩ := due_queried.mp hdue
    obtain ⟨value, hvalue, hepoch, hf⟩ := h.owes epoch f hdue
    unfold Owes
    dsimp only
    split_ifs
    · exact ⟨value.settleField field, by rw [hvalue]; rfl, hepoch, Finset.mem_erase.mpr ⟨hne, hf⟩⟩
    · exact ⟨value, hvalue, hepoch, hf⟩
  · cases hpass'
    obtain ⟨value, hvalue, -, hsub⟩ := hdebt value' hvalue'
    rcases h.pass pass hphase hall value hvalue f (hsub hf) with hleft | hclear
    · rw [hpass, List.mem_cons] at hleft
      rcases hleft with rfl | hleft
      · exact .inr fun epoch hdue => (due_queried.mp hdue).2 rfl
      · exact .inl hleft
    · exact .inr fun epoch hdue => hclear epoch (due_queried.mp hdue).1

/-- A query fails: nothing changes in what is owed, and the pass is not done. -/
theorem Accounted.passFailed (h : s.Accounted) (pass : Pass) (feed : Feed)
    (hreceiver : feed.state.receiver = s.feed.state.receiver) (rest : List CoreField) :
    Accounted { s with feed, phase := .pass { pass with rest, allSucceeded := false } } where
  receiver value hvalue := (h.receiver value hvalue).trans hreceiver.symm
  owes := h.owes
  pass pass' hpass' hall := by
    cases hpass'
    cases hall
  synchronize rest hrest := by cases hrest

theorem Accounted.synchronizeRead (h : s.Accounted) {field : CoreField} {rest : List CoreField} {degraded : Bool}
    (hphase : s.phase = .synchronize (field :: rest) degraded) (feed : Feed)
    (hreceiver : feed.state.receiver = s.feed.state.receiver) :
    Accounted { s with feed, phase := .synchronize rest degraded, log := s.log ++ [.queried field] } := by
  refine ⟨fun value hvalue => (h.receiver value hvalue).trans hreceiver.symm, fun epoch f hdue => ?_,
    fun pass hpass => (nomatch hpass), fun rest' hrest f => ?_⟩
  · exact h.owes epoch f (due_queried.mp hdue).1
  · cases hrest
    rcases h.synchronize _ hphase f with hleft | hclear
    · rcases List.mem_cons.mp hleft with rfl | hleft
      · exact .inr fun epoch hdue => (due_queried.mp hdue).2 rfl
      · exact .inl hleft
    · exact .inr fun epoch hdue => hclear epoch (due_queried.mp hdue).1

theorem Accounted.synchronizeFailed (h : s.Accounted) (feed : Feed)
    (hreceiver : feed.state.receiver = s.feed.state.receiver) (rest : List CoreField) :
    Accounted { s with feed, phase := .synchronize rest true } where
  receiver value hvalue := (h.receiver value hvalue).trans hreceiver.symm
  owes := h.owes
  pass pass hpass := by cases hpass
  synchronize rest hrest := by cases hrest

/-- A synchronization that could not read every field drops nothing. -/
theorem Accounted.endSynchronize (h : s.Accounted) {degraded : Bool} (hphase : s.phase = .synchronize [] degraded)
    (now : MonotonicMillis) :
    Accounted { s with debt := clearSettledDebt s.debt (!degraded) now, phase := .top } := by
  have hbetween : ∀ debt, Between { s with debt, phase := .top } := fun debt => between_of_top rfl
  cases degraded with
  | true => exact h.of_between (hbetween _) rfl rfl rfl
  | false =>
    by_cases hsettled : (s.debt.all fun value => value.finalDue now || value.finalReconcileAt.isNone) = true
    · refine Accounted.drop (hbetween _) (by simp [clearSettledDebt, hsettled]) fun epoch field hdue => ?_
      rcases h.synchronize [] hphase field with hleft | hclear
      · exact absurd hleft List.not_mem_nil
      · exact hclear epoch hdue
    · exact h.of_between (hbetween _) rfl rfl (by simp [clearSettledDebt, hsettled])

/-! ### Commands -/

theorem Accounted.observe (h : s.Accounted) (feed : Feed) (hreceiver : feed.state.receiver = s.feed.state.receiver)
    (field : CoreField) (read : Bool) (hbetween : s'.Between) (hdebt : s'.debt = s.debt) (hfeed : s'.feed = feed)
    (hlog : s'.log = if read then s.log ++ [.queried field] else s.log) : s'.Accounted := by
  have hdue : ∀ epoch f, Due s'.log epoch f → Due s.log epoch f := by
    intro epoch f hdue
    rw [hlog] at hdue
    split_ifs at hdue
    · exact (due_queried.mp hdue).1
    · exact hdue
  refine ⟨fun value hvalue => ?_, fun epoch f h' => ?_, fun pass hpass => absurd hpass (hbetween.1 pass),
    fun rest hrest => absurd hrest (hbetween.2 rest false)⟩
  · rw [hfeed, hreceiver]
    exact h.receiver value (hdebt ▸ hvalue)
  · rw [hdebt]
    exact h.owes epoch f (hdue epoch f h')

theorem Accounted.afterCall (h : s.Accounted) {call call' : Call} (action : CallAction) (now : MonotonicMillis)
    (hreceiver : call'.feed.state.receiver = s.feed.state.receiver) : (s.afterCall call action now call').Accounted := by
  have hbetween : (s.afterCall call action now call').Between := by
    unfold ActorLoop.afterCall
    constructor
    · intro pass hpass
      dsimp only at hpass
      split at hpass <;> cases hpass
    · intro rest degraded hrest
      dsimp only at hrest
      split at hrest <;> cases hrest
  have hdue : ∀ epoch f, Due (s.afterCall call action now call').log epoch f → Due s.log epoch f := by
    intro epoch f hdue
    unfold ActorLoop.afterCall at hdue
    cases hread : readBy call action with
    | none => simpa [hread] using hdue
    | some field =>
      simp only [hread, Option.map_some, Option.toList_some] at hdue
      exact (due_queried.mp hdue).1
  have hdebt : ∀ value', debtAfter s.debt now action = some value' → ∃ value, s.debt = some value ∧
      Rescheduled value value' := by
    intro value' hvalue'
    unfold debtAfter at hvalue'
    split at hvalue'
    · obtain ⟨value, hvalue, rfl⟩ := Option.map_eq_some_iff.mp hvalue'
      exact ⟨value, hvalue, rfl, rfl, rfl⟩
    · exact ⟨value', hvalue', rfl, rfl, rfl⟩
  have hkept : ∀ value, s.debt = some value → ∃ value', debtAfter s.debt now action = some value' := by
    intro value hvalue
    unfold debtAfter
    rw [hvalue]
    split <;> exact ⟨_, rfl⟩
  refine ⟨fun value' hvalue' => ?_, fun epoch f h' => ?_, fun pass hpass => absurd hpass (hbetween.1 pass),
    fun rest hrest => absurd hrest (hbetween.2 rest false)⟩
  · obtain ⟨value, hvalue, hsame⟩ := hdebt value' hvalue'
    rw [hsame.receiver, h.receiver value hvalue]
    exact hreceiver.symm
  · obtain ⟨value, hvalue, hepoch, hf⟩ := h.owes epoch f (hdue epoch f h')
    obtain ⟨value', hvalue'⟩ := hkept value hvalue
    obtain ⟨_, hsome, hsame⟩ := hdebt value' hvalue'
    obtain rfl := Option.some.inj (hvalue.symm.trans hsome)
    exact ⟨value', hvalue', hsame.epoch.trans hepoch, hsame.fields ▸ hf⟩

/-! ### Steps and runs -/

/-- **The step lemma.** -/
theorem Accounted.step (h : s.Accounted) {a : LoopAction} (hstep : s.step a = some s') : s'.Accounted := by
  cases a with
  | check now =>
    simp only [ActorLoop.step] at hstep
    split_ifs at hstep
    all_goals
      cases hstep
      exact h.of_between ⟨fun _ hpass => (nomatch hpass), fun _ _ hrest => (nomatch hrest)⟩ rfl rfl rfl
  | debtTick =>
    simp only [ActorLoop.step] at hstep
    split_ifs at hstep
    cases hstep
    exact h.of_between ⟨fun _ hpass => (nomatch hpass), fun _ _ hrest => (nomatch hrest)⟩ rfl rfl rfl
  | service now =>
    simp only [ActorLoop.step] at hstep
    split_ifs at hstep
    cases hstep
    exact h.beginService now
  | sweep now =>
    simp only [ActorLoop.step] at hstep
    split_ifs at hstep with hphase
    cases hstep
    have hexpired : Accounted { s with feed := s.feed.expire now } :=
      h.of_between (between_of_select hphase) rfl (s.feed.expire_receiver now) rfl
    exact hexpired.beginSynchronize
  | event event now =>
    simp only [ActorLoop.step] at hstep
    split_ifs at hstep with hphase
    cases event with
    | none =>
      cases hstep
      exact h.of_between ⟨fun _ hpass => (nomatch hpass), fun _ _ hrest => (nomatch hrest)⟩ rfl rfl rfl
    | some event =>
      have hfeed : Accounted { s with feed := (s.feed.applyEvent now event).1, phase := .top } :=
        h.of_between (between_of_top rfl) rfl (s.feed.applyEvent_receiver now event) rfl
      have hmerged : Accounted ((s.feed.applyEvent now event).2.elim
          { s with feed := (s.feed.applyEvent now event).1, phase := .top }
          (ActorLoop.mergeDebt { s with feed := (s.feed.applyEvent now event).1, phase := .top } .receiverEvent now)) := by
        cases (s.feed.applyEvent now event).2 with
        | none => exact hfeed
        | some field => exact hfeed.mergeDebt (between_of_top rfl) .receiverEvent now field
      dsimp only at hstep
      split_ifs at hstep
      · cases hstep
        exact hmerged.beginSynchronize
      · cases hstep
        exact hmerged
  | observe field asked query =>
    simp only [ActorLoop.step] at hstep
    obtain ⟨-, hstep⟩ := Option.ite_none_right_eq_some.mp hstep
    cases hstep
    refine h.observe _ ?_ field _ (between_of_top rfl) rfl rfl rfl
    rw [Feed.queryField_receiver, Feed.markConverging_receiver]
    rfl
  | synchronize =>
    simp only [ActorLoop.step] at hstep
    split_ifs at hstep with hphase
    cases hstep
    have hcounted : s.countAction.Accounted := h.of_between (between_of_select hphase) rfl rfl rfl
    exact hcounted.beginSynchronize
  | operate request replyClosed now =>
    simp only [ActorLoop.step] at hstep
    obtain ⟨hphase, hstep⟩ := Option.ite_none_right_eq_some.mp hstep
    cases hstep
    have hbetween : s.countAction.Between := between_of_select hphase
    have hcounted : s.countAction.Accounted := h.of_between hbetween rfl rfl rfl
    have hmerged : Accounted (if replyClosed = true then s.countAction
        else (dependencyFields request.intent.field).foldl (ActorLoop.mergeDebt · .localControl now) s.countAction) := by
      split_ifs
      · exact hcounted
      · exact (hcounted.mergeAll hbetween .localControl now _).1
    exact hmerged.of_between ⟨fun _ hpass => (nomatch hpass), fun _ _ hrest => (nomatch hrest)⟩ rfl rfl rfl
  | close =>
    simp only [ActorLoop.step] at hstep
    split_ifs at hstep
    cases hstep
    exact h.of_between ⟨fun _ hpass => (nomatch hpass), fun _ _ hrest => (nomatch hrest)⟩ rfl rfl rfl
  | query asked query =>
    simp only [ActorLoop.step] at hstep
    cases hphase : s.phase with
    | pass pass =>
      simp only [hphase] at hstep
      cases hrest : pass.rest with
      | nil => simp [hrest] at hstep
      | cons field rest =>
        simp only [hrest] at hstep
        obtain ⟨-, hstep⟩ := Option.ite_none_right_eq_some.mp hstep
        by_cases hread : (s.feed.queryField field query s.cycle).2 = true
        · rw [if_pos hread] at hstep
          cases hstep
          exact h.passRead hphase hrest _ (s.feed.queryField_receiver field query s.cycle)
        · rw [if_neg hread] at hstep
          cases hstep
          exact h.passFailed _ _ (s.feed.queryField_receiver field query s.cycle) rest
    | synchronize left degraded =>
      cases left with
      | nil => simp [hphase] at hstep
      | cons field rest =>
        have hreceiver : ((s.feed.markConverging field .manualRefresh s.cycle asked).queryField field query
            s.cycle).1.state.receiver = s.feed.state.receiver := by
          rw [Feed.queryField_receiver, Feed.markConverging_receiver]
        simp only [hphase] at hstep
        split_ifs at hstep with hanswers hread
        · cases hstep
          exact h.synchronizeRead hphase _ hreceiver
        · cases hstep
          exact h.synchronizeFailed _ hreceiver rest
    | _ => simp [hphase] at hstep
  | finish now =>
    simp only [ActorLoop.step] at hstep
    cases hphase : s.phase with
    | pass pass =>
      simp only [hphase] at hstep
      split_ifs at hstep with hrest
      cases hstep
      exact h.endService hphase hrest now
    | synchronize left degraded =>
      cases left with
      | cons field rest => simp [hphase] at hstep
      | nil =>
        simp only [hphase, Option.some.injEq] at hstep
        subst hstep
        exact h.endSynchronize hphase now
    | _ => simp [hphase] at hstep
  | call action now =>
    simp only [ActorLoop.step] at hstep
    cases hphase : s.phase with
    | operate call =>
      simp only [hphase] at hstep
      obtain ⟨call', hcall, rfl⟩ := Option.map_eq_some_iff.mp hstep
      exact h.afterCall action now (Call.step_receiver hcall)
    | _ => simp [hphase] at hstep

theorem accounted_of_reachable (h : sessionActor.Reachable s) : s.Accounted :=
  h.invariant (fun _ ⟨receiver, hstart⟩ => hstart ▸ accounted_start receiver) fun _ _ _ _ hs hstep => hs.step hstep

end ActorLoop

/-- **What is due is owed.** In every state a session reaches, a field that was put in the debt for an epoch is there, for
that epoch, unless since then a query for it succeeded or a field was put there for another epoch. -/
theorem owes_of_due {s : ActorLoop} {epoch : Epoch} {field : CoreField} (h : sessionActor.Reachable s)
    (hdue : Due s.log epoch field) : Owes s.debt epoch field :=
  (ActorLoop.accounted_of_reachable h).owes epoch field hdue

/-! ### A field that is forgotten -/

/-- A query that is answered while the transport shows this generation. -/
def replied (generation : ℕ) (line : String) (now : MonotonicMillis) : LoopAction :=
  .query now { before := generation, result := .ok line, after := generation, now }

def unreplied (generation : ℕ) (now : MonotonicMillis) : LoopAction :=
  .query now { before := generation, result := .error (.timeout "waiting for MU response"), after := generation, now }

/-- The first synchronization goes well. Then the receiver is muted. -/
def muted : List LoopAction :=
  [replied 0 "PWON" 100, replied 0 "ZMON" 200, replied 0 "Z2OFF" 300, replied 0 "SICD" 400, replied 0 "MV50" 500,
    replied 0 "MUOFF" 600, replied 0 "MSSTEREO" 700, .finish 700, .check 700, .event (some (.line "MUON")) 1000]

/-- The query for it is not answered, so the connection is made anew, and it is not answered there either. Then the volume
changes. -/
def forgotten : List LoopAction :=
  [.check 1000, .debtTick, .service 1250, unreplied 0 2250, .finish 2250,
    .check 2250, .event (some (.disconnected 0 "waiting for MU response")) 2300,
    .check 2300, .event (some .reconnected) 2400,
    replied 1 "PWON" 2500, replied 1 "ZMON" 2600, replied 1 "Z2OFF" 2700, replied 1 "SICD" 2800,
    replied 1 "MV50" 2900, unreplied 1 3900, replied 2 "MSSTEREO" 4000, .finish 4000,
    .check 4000, .event (some (.line "MV505")) 4100]

theorem reachable_of_run {acts : List LoopAction} {α : Type} {view : ActorLoop → α} {seen : α}
    (hrun : (sessionActor.exec (ActorLoop.start livingRoom) acts).map view = some seen) :
    ∃ s, sessionActor.Reachable s ∧ view s = seen := by
  obtain ⟨s, hexec, hview⟩ := Option.map_eq_some_iff.mp hrun
  exact ⟨s, Machine.reachable_of_exec _ acts ⟨livingRoom, rfl⟩ hexec, hview⟩

theorem log_muted :
    (sessionActor.exec (ActorLoop.start livingRoom) muted).map (·.log)
      = some ([.queried .systemPower, .queried .mainZonePower, .queried .zone2Power, .queried .source, .queried .volume,
        .queried .mute, .queried .soundMode] ++ [.put 1 .mute]) := by
  decide

theorem log_forgotten :
    (sessionActor.exec (ActorLoop.start livingRoom) (muted ++ forgotten)).map (fun s => (s.log, s.debt.map (·.fields)))
      = some ([.queried .systemPower, .queried .mainZonePower, .queried .zone2Power, .queried .source, .queried .volume,
        .queried .mute, .queried .soundMode] ++ .put 1 .mute :: [.queried .systemPower, .queried .mainZonePower,
        .queried .zone2Power, .queried .source, .queried .volume, .queried .soundMode, .put 3 .volume],
        some {.volume}) := by
  decide

/-- The field that was put in the debt by the first event is owed. -/
theorem owes_of_due_muted : ∃ s, sessionActor.Reachable s ∧ Due s.log 1 .mute ∧ Owes s.debt 1 .mute := by
  obtain ⟨s, hreachable, hlog⟩ := reachable_of_run log_muted
  have hdue : Due s.log 1 .mute := by
    rw [hlog, due_put]
    exact ⟨rfl, .inl rfl⟩
  exact ⟨s, hreachable, hdue, owes_of_due hreachable hdue⟩

/-- The field was put in the debt, and no query for it succeeded since. -/
def Unread (log : List DebtEntry) (field : CoreField) : Prop :=
  Outstanding (fun entry => ∃ epoch, entry = .put epoch field) (· = .queried field) log

/-- **A field can leave the debt unread**: when a debt is opened for a later connection, those of an earlier are
forgotten. -/
theorem not_owed_of_unread :
    ¬ ∀ s, sessionActor.Reachable s → ∀ field, Unread s.log field →
      ∃ value, s.debt = some value ∧ field ∈ value.fields := by
  intro hall
  obtain ⟨s, hreachable, hseen⟩ := reachable_of_run log_forgotten
  obtain ⟨hlog, hfields⟩ := Prod.mk.inj hseen
  have hunread : Unread s.log .mute := ⟨_, _, _, hlog, ⟨1, rfl⟩, by decide⟩
  obtain ⟨value, hvalue, hmem⟩ := hall s hreachable .mute hunread
  rw [hvalue, Option.map_some, Option.some.injEq] at hfields
  rw [hfields] at hmem
  revert hmem
  decide

end DenonAvr.Session
