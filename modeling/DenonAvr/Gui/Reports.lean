import DenonAvr.Gui.Controls
import DenonAvr.Session.StateRuns

/-!
# Reports behind their states

The bridge's loop beside the service whose sessions it watches, for any commands. The sessions of a receiver are
numbered; the service ends one and opens the next whenever it likes, and each publishes states that advance. A state is
newer than another when its session is later, or when it comes from it within one session. What the loop forwards is
kept with the subscription that was active and, for a finished task, with the newest state of every receiver when the
task completed.

A task may run in a session that the service opened after the one that the bridge is subscribed to has ended. When the
loop takes its report before the end, the subscription still shows the old session's state, and the report goes ahead
(`not_inOrder`). A report whose task did not complete in a later session than the subscription's is behind a state as
new (`reports_follow_states`).
-/

namespace DenonAvr.Gui

open Domain Library

/-! ### The loop and its service -/

/-- The number of the newest session of each receiver, and the newest state in it. -/
abbrev Completion := ReceiverId → ℕ × ReceiverState

/-- The selected receiver, and the state subscription that is active for it. -/
structure Feeding where
  receiver : ReceiverId
  /-- How many subscriptions there were before it. -/
  serial : ℕ
  session : ℕ
deriving DecidableEq

structure Sent where
  event : BridgeEvent
  feeding : Option Feeding
  /-- When the task completed whose end is forwarded. -/
  completion : Option Completion

structure ReportRun where
  bridge : GuiRun := {}
  /-- The newest state of each session of a receiver. -/
  states : ReceiverId → ℕ → ReceiverState := fun receiver _ => ReceiverState.new receiver
  /-- The newest session. -/
  current : ReceiverId → ℕ := fun _ => 0
  isOpen : ReceiverId → Bool := fun _ => false
  serial : ℕ := 0
  /-- The session of the active subscription. -/
  session : ℕ := 0
  /-- For each finished task. -/
  completed : List Completion := []
  sent : List Sent := []

inductive ReportAction
  | command (command : BridgeCommand)
  | changed
  | done
  /-- `subscribe` joins the receiver's session, or opens one with this state. -/
  | subscribed (first : ReceiverState)
  | notSubscribed (message : String)
  | submit (i : ℕ)
  | finish (i : ℕ) (event : PortEvent)
  /-- The service opens a session. -/
  | opened (receiver : ReceiverId) (first : ReceiverState)
  | published (receiver : ReceiverId) (session : ℕ) (state : ReceiverState)
  | closed (receiver : ReceiverId)

namespace ReportRun

def feeding (run : ReportRun) : Option Feeding :=
  match run.bridge.selected, run.bridge.active with
  | some chosen, some _ => some ⟨chosen.receiver, run.serial, run.session⟩
  | _, _ => none

/-- The loop has gone on, and forwarded what it has. -/
def follow (run : ReportRun) (bridge : GuiRun) (completion : Option Completion) : ReportRun :=
  { run with
    bridge
    sent := run.sent ++ (bridge.events.drop run.bridge.events.length).map fun event =>
      ⟨event, { run with bridge }.feeding, completion⟩ }

def newest (run : ReportRun) : Completion :=
  fun receiver => (run.current receiver, run.states receiver (run.current receiver))

def openSession (run : ReportRun) (receiver : ReceiverId) (first : ReceiverState) : ReportRun :=
  { run with
    states := Function.update run.states receiver
      (Function.update (run.states receiver) (run.current receiver + 1) first)
    current := Function.update run.current receiver (run.current receiver + 1)
    isOpen := Function.update run.isOpen receiver true }

/-- The bridge's subscription is one to this session. -/
def watches (run : ReportRun) (receiver : ReceiverId) (session : ℕ) : Bool :=
  run.bridge.active.any fun subscription => subscription.receiver == receiver && run.session == session

def publish (run : ReportRun) (receiver : ReceiverId) (session : ℕ) (state : ReceiverState) : ReportRun :=
  { run with
    states := Function.update run.states receiver (Function.update (run.states receiver) session state)
    bridge :=
      if run.watches receiver session then
        { run.bridge with
          active := run.bridge.active.map fun subscription => { subscription with latest := state, unseen := true } }
      else run.bridge }

def close (run : ReportRun) (receiver : ReceiverId) : ReportRun :=
  { run with
    isOpen := Function.update run.isOpen receiver false
    bridge :=
      if run.watches receiver (run.current receiver) then
        { run.bridge with active := run.bridge.active.map fun subscription => { subscription with ended := true } }
      else run.bridge }

/-- A new subscription to the receiver's newest session. -/
def attach (run : ReportRun) (chosen : Selected) : ReportRun :=
  let (session, latest) := run.newest chosen.receiver
  { run with serial := run.serial + 1, session }.follow (run.bridge.onSubscribed chosen (.ok latest)) none

end ReportRun

/-- The bridge's loop over a service, from `PortBridge::new` on. -/
def reportMachine : Machine ReportRun ReportAction where
  init := fun run => run = {}
  step := fun run action =>
    match action with
    | .command command => if run.bridge.subscribing then none else some (run.follow (run.bridge.handle command) none)
    | .changed => if run.bridge.subscribing then none else run.bridge.onChanged.map fun bridge => run.follow bridge none
    | .done =>
      match run.bridge.subscribing, run.bridge.finished, run.completed with
      | false, event :: rest, completion :: others =>
        some ({ run with completed := others }.follow ({ run.bridge with finished := rest }.onDone event)
          (some completion))
      | _, _, _ => none
    | .subscribed first =>
      match run.bridge.subscribing, run.bridge.selected with
      | true, some chosen =>
        some ((if run.isOpen chosen.receiver then run else run.openSession chosen.receiver first).attach chosen)
      | _, _ => none
    | .notSubscribed message =>
      match run.bridge.subscribing, run.bridge.selected with
      | true, some chosen => some (run.follow (run.bridge.onSubscribed chosen (.error message)) none)
      | _, _ => none
    | .submit i => (guiMachine.step run.bridge (.submit i)).map fun bridge => { run with bridge }
    | .finish i event => (guiMachine.step run.bridge (.finish i event)).map fun bridge =>
      { run with bridge, completed := run.completed ++ [run.newest] }
    | .opened receiver first => if run.isOpen receiver then none else some (run.openSession receiver first)
    | .published receiver session state =>
      if session ≤ run.current receiver ∧
          (state = run.states receiver session ∨ (run.states receiver session).revision < state.revision) then
        some (run.publish receiver session state)
      else none
    | .closed receiver => if run.isOpen receiver then some (run.close receiver) else none

/-! ### The order -/

def Sent.state? (sent : Sent) : Option (Feeding × ReceiverState) :=
  match sent.event.event, sent.feeding with
  | .state state, some feeding => some (feeding, state)
  | _, _ => none

/-- A state of the receiver was shown that is at least as new as this one. -/
def AsNew (receiver : ReceiverId) (newest : ℕ × ReceiverState) (shown : Feeding × ReceiverState) : Prop :=
  shown.1.receiver = receiver ∧
    (newest.1 < shown.1.session ∨ newest.1 = shown.1.session ∧ newest.2.Advances shown.2)

structure InOrder (sent : List Sent) : Prop where
  /-- The event of a finished task comes behind a state as new as the newest when the task completed. -/
  reports : ∀ i report completion feeding, sent[i]? = some report → report.state? = none →
    report.completion = some completion → report.feeding = some feeding →
    ∃ shown ∈ (sent.take i).filterMap Sent.state?, AsNew feeding.receiver (completion feeding.receiver) shown
  /-- A subscription's state is not forwarded twice in a row. -/
  distinct : (sent.filterMap Sent.state?).IsChain fun shown next =>
    shown.1.serial = next.1.serial → (shown.2.epoch, shown.2.revision) ≠ (next.2.epoch, next.2.revision)

/-- The loop takes no report of a task that completed in a session which was opened after the subscription's. -/
def heard (run : ReportRun) : ReportAction → Bool
  | .done =>
    match run.completed, run.feeding with
    | completion :: _, some feeding => (completion feeding.receiver).1 ≤ feeding.session
    | _, _ => true
  | _ => true

section Order
variable {sent new : List Sent} {last : Sent} {run : ReportRun} {bridge bridge' : GuiRun} {event : BridgeEvent}
  {completion : Completion} {subscription : StateSubscription} {chosen : Selected}

theorem InOrder.concat (h : InOrder sent)
    (hreport : ∀ completion feeding, last.state? = none → last.completion = some completion →
      last.feeding = some feeding →
      ∃ shown ∈ sent.filterMap Sent.state?, AsNew feeding.receiver (completion feeding.receiver) shown)
    (hdistinct : ∀ shown ∈ (sent.filterMap Sent.state?).getLast?, ∀ next, last.state? = some next →
      shown.1.serial = next.1.serial → (shown.2.epoch, shown.2.revision) ≠ (next.2.epoch, next.2.revision)) :
    InOrder (sent ++ [last]) := by
  constructor
  · intro i report completion feeding hget hstate hcompletion hfeeding
    rcases lt_trichotomy i sent.length with hlt | rfl | hgt
    · rw [List.getElem?_append_left hlt] at hget
      rw [List.take_append_of_le_length hlt.le]
      exact h.reports i report completion feeding hget hstate hcompletion hfeeding
    · rw [List.getElem?_concat_length] at hget
      obtain rfl := Option.some.inj hget
      rw [List.take_left]
      exact hreport completion feeding hstate hcompletion hfeeding
    · rw [List.getElem?_eq_none (by simp; omega)] at hget
      cases hget
  · rw [List.filterMap_append]
    refine h.distinct.append ?_ fun shown hshown next hnext hserial => ?_
    · cases hlast : last.state? with
      | none =>
        rw [List.filterMap_cons_none hlast]
        exact .nil
      | some next =>
        rw [List.filterMap_cons_some hlast]
        exact .singleton _
    · cases hlast : last.state? with
      | none =>
        rw [List.filterMap_cons_none hlast] at hnext
        cases hnext
      | some other =>
        rw [List.filterMap_cons_some hlast] at hnext
        obtain rfl : other = next := by simpa using hnext
        exact hdistinct shown hshown other hlast hserial

/-- Nothing that is forwarded is a state or a finished task's event. -/
theorem InOrder.silent (h : InOrder sent) (hnew : ∀ other ∈ new, other.state? = none ∧ other.completion = none) :
    InOrder (sent ++ new) := by
  induction new using List.reverseRecOn with
  | nil =>
    rw [List.append_nil]
    exact h
  | append_singleton new last ih =>
    rw [← List.append_assoc]
    obtain ⟨hstate, hcompletion⟩ := hnew last (by simp)
    refine InOrder.concat (ih fun other hother => hnew other (by simp [hother])) ?_ ?_
    · intro completion feeding _ hsome
      rw [hcompletion] at hsome
      cases hsome
    · intro shown _ next hsome
      rw [hstate] at hsome
      cases hsome

/-! ### What the loop does -/

/-- The loop forwards no state and keeps its subscription. -/
structure Still (bridge bridge' : GuiRun) : Prop where
  selected : bridge'.selected = bridge.selected
  active : bridge'.active = bridge.active
  forwarded : bridge'.forwarded = bridge.forwarded
  subscribing : bridge'.subscribing = true → bridge.subscribing = true ∨ bridge.active = none
  finished : bridge'.finished = bridge.finished
  events : ∃ new, bridge'.events = bridge.events ++ new ∧ ∀ event ∈ new, ∀ state, event.event ≠ .state state

theorem Still.refl : Still bridge bridge := ⟨rfl, rfl, rfl, .inl, rfl, [], (List.append_nil _).symm, by simp⟩

theorem Still.send (bridge : GuiRun) (requestId subscription : ℕ) {event : PortEvent}
    (h : ∀ state, event ≠ .state state) :
    Still bridge (bridge.send requestId subscription event) := by
  refine ⟨rfl, rfl, rfl, .inl, rfl, [⟨requestId, subscription, event⟩], rfl, fun other hother => ?_⟩
  obtain rfl := List.mem_singleton.mp hother
  exact h

theorem handleControl_still (id : ℕ) (intent : ReceiverIntent) (guard : Option FieldBaseline) :
    Still bridge (bridge.handleControl id intent guard) := by
  unfold GuiRun.handleControl
  dsimp only
  split
  · exact ⟨rfl, rfl, rfl, .inl, rfl, [⟨id, 0, .failed GuiRun.noReceiver⟩], rfl, by simp⟩
  · split
    · split_ifs
      · exact ⟨rfl, rfl, rfl, .inl, rfl, [], (List.append_nil _).symm, by simp⟩
      · exact ⟨rfl, rfl, rfl, .inl, rfl, [⟨id, _, .control .conflict⟩], rfl, by simp⟩
    · exact ⟨rfl, rfl, rfl, .inl, rfl, [], (List.append_nil _).symm, by simp⟩

variable (bridge) in
theorem handle_cases (command : BridgeCommand) :
    (∃ chosen, bridge.handle command =
      { bridge with active := none, forwarded := none, selected := some chosen, subscribing := true }) ∨
      Still bridge (bridge.handle command) := by
  unfold GuiRun.handle
  split
  · exact .inl ⟨_, rfl⟩
  · refine .inr ?_
    split
    · exact .send bridge _ 0 (by simp)
    · split_ifs with hactive
      · exact ⟨rfl, rfl, rfl, fun _ => .inr (Option.isNone_iff_eq_none.mp hactive), rfl, [],
          (List.append_nil _).symm, by simp⟩
      · exact ⟨rfl, rfl, rfl, .inl, rfl, [], (List.append_nil _).symm, by simp⟩
  · exact .inr (handleControl_still _ _ _)
  · refine .inr ?_
    split
    · exact .refl
    · exact ⟨rfl, rfl, rfl, .inl, rfl, [], (List.append_nil _).symm, by simp⟩

/-! ### What is kept over a run -/

structure Fed (run : ReportRun) : Prop where
  selected : ∀ subscription, run.bridge.active = some subscription →
    ∃ chosen, run.bridge.selected = some chosen ∧ chosen.receiver = subscription.receiver
  latest : ∀ subscription, run.bridge.active = some subscription →
    run.session ≤ run.current subscription.receiver ∧
      subscription.latest = run.states subscription.receiver run.session
  idle : run.bridge.active = none → run.bridge.forwarded = none
  subscribing : run.bridge.subscribing = true → run.bridge.active = none
  /-- What was forwarded last is not newer than the subscription. -/
  shown : ∀ subscription stamp, run.bridge.active = some subscription → run.bridge.forwarded = some stamp →
    ∃ state, (⟨subscription.receiver, run.serial, run.session⟩, state) ∈ run.sent.filterMap Sent.state? ∧
      (state.epoch, state.revision) = stamp ∧ state.Advances subscription.latest
  completed : ∀ completion ∈ run.completed, ∀ receiver, (completion receiver).1 ≤ run.current receiver ∧
    (completion receiver).2.Advances (run.states receiver (completion receiver).1)
  serials : ∀ shown ∈ run.sent.filterMap Sent.state?, shown.1.serial ≤ run.serial
  last : ∀ shown ∈ (run.sent.filterMap Sent.state?).getLast?, shown.1.serial = run.serial →
    run.bridge.active.isSome → run.bridge.forwarded = some (shown.2.epoch, shown.2.revision)
  finished : ∀ event ∈ run.bridge.finished, ∀ state, event.event ≠ .state state
  order : InOrder run.sent

theorem follow_sent (run : ReportRun) {new : List BridgeEvent} (h : bridge.events = run.bridge.events ++ new)
    (completion : Option Completion) :
    (run.follow bridge completion).sent =
      run.sent ++ new.map fun event => ⟨event, { run with bridge }.feeding, completion⟩ := by
  unfold ReportRun.follow
  dsimp only
  rw [h, List.drop_left]

/-- What is forwarded in two parts. -/
theorem follow_follow (run : ReportRun) {new new' : List BridgeEvent} (h : bridge.events = run.bridge.events ++ new)
    (h' : bridge'.events = bridge.events ++ new') (hselected : bridge'.selected = bridge.selected)
    (hactive : bridge'.active = bridge.active) (completion : Option Completion) :
    (run.follow bridge completion).follow bridge' completion = run.follow bridge' completion := by
  have hfeeding : ({ run with bridge } : ReportRun).feeding = ({ run with bridge := bridge' } : ReportRun).feeding := by
    unfold ReportRun.feeding
    dsimp only
    rw [hselected, hactive]
  have hboth : bridge'.events = run.bridge.events ++ (new ++ new') := by rw [h', h, List.append_assoc]
  have hsent : ((run.follow bridge completion).follow bridge' completion).sent =
      (run.follow bridge' completion).sent := by
    rw [follow_sent (run.follow bridge completion) h', follow_sent run h, follow_sent run hboth, hfeeding,
      List.map_append, List.append_assoc]
    rfl
  exact congrArg (fun sent => { run with bridge := bridge', sent }) hsent

theorem state?_of_ne {sent : Sent} (h : ∀ state, sent.event.event ≠ .state state) : sent.state? = none := by
  unfold Sent.state?
  split
  · rename_i hstate _
    exact absurd hstate (h _)
  · rfl

theorem Fed.still (h : Fed run) (hstill : Still run.bridge bridge) : Fed (run.follow bridge none) := by
  obtain ⟨new, hevents, hnew⟩ := hstill.events
  have hsent := follow_sent run hevents none
  have hsilent : ∀ other ∈ new.map fun event => (⟨event, { run with bridge }.feeding, none⟩ : Sent),
      other.state? = none ∧ other.completion = none := by
    intro other hother
    obtain ⟨event, hevent, rfl⟩ := List.mem_map.mp hother
    exact ⟨state?_of_ne (hnew event hevent), rfl⟩
  have hshown : (run.follow bridge none).sent.filterMap Sent.state? = run.sent.filterMap Sent.state? := by
    rw [hsent, List.filterMap_append,
      List.filterMap_eq_nil_iff.mpr fun other hother => (hsilent other hother).1, List.append_nil]
  constructor
  · rw [show (run.follow bridge none).bridge = bridge from rfl, hstill.active, hstill.selected]
    exact h.selected
  · rw [show (run.follow bridge none).bridge = bridge from rfl, hstill.active]
    exact h.latest
  · rw [show (run.follow bridge none).bridge = bridge from rfl, hstill.active, hstill.forwarded]
    exact h.idle
  · rw [show (run.follow bridge none).bridge = bridge from rfl, hstill.active]
    exact fun hsubscribing => (hstill.subscribing hsubscribing).elim h.subscribing id
  · rw [hshown, show (run.follow bridge none).bridge = bridge from rfl, hstill.active, hstill.forwarded]
    exact h.shown
  · exact h.completed
  · rw [hshown]
    exact h.serials
  · rw [hshown, show (run.follow bridge none).bridge = bridge from rfl, hstill.active, hstill.forwarded]
    exact h.last
  · rw [show (run.follow bridge none).bridge = bridge from rfl, hstill.finished]
    exact h.finished
  · rw [hsent]
    exact h.order.silent hsilent

/-- `forward_state`, unless the state is the last one forwarded. -/
theorem forward_cases (bridge : GuiRun) (chosen : Selected) (state : ReceiverState) :
    bridge.forward chosen state = bridge ∧ bridge.forwarded = some (state.epoch, state.revision) ∨
      bridge.forwarded ≠ some (state.epoch, state.revision) ∧
        bridge.forward chosen state =
          { bridge with forwarded := some (state.epoch, state.revision) }.send chosen.subscription chosen.subscription
            (.state state) := by
  unfold GuiRun.forward
  split_ifs with h
  · exact .inl ⟨rfl, h⟩
  · exact .inr ⟨h, rfl⟩

theorem Fed.forward (h : Fed run) (hactive : run.bridge.active = some subscription)
    (hselected : run.bridge.selected = some chosen) (completion : Option Completion) :
    Fed (run.follow (run.bridge.forward chosen subscription.latest) completion) ∧
      (⟨chosen.receiver, run.serial, run.session⟩, subscription.latest) ∈
        (run.follow (run.bridge.forward chosen subscription.latest) completion).sent.filterMap Sent.state? := by
  have hreceiver : chosen.receiver = subscription.receiver := by
    obtain ⟨other, hother, hreceiver⟩ := h.selected subscription hactive
    rw [hselected] at hother
    obtain rfl := Option.some.inj hother
    exact hreceiver
  obtain ⟨hsame, hforwarded⟩ | ⟨hnew, hforward⟩ :=
    forward_cases run.bridge chosen subscription.latest
  · have hfollow : run.follow run.bridge completion = run := by
      unfold ReportRun.follow
      rw [List.drop_length, List.map_nil, List.append_nil]
    rw [hsame, hfollow]
    refine ⟨h, ?_⟩
    obtain ⟨state, hmem, hstamp, hadvances⟩ := h.shown subscription _ hactive hforwarded
    obtain hlatest | hlater := hadvances
    · rw [hreceiver, hlatest]
      exact hmem
    · exact absurd (congrArg Prod.snd hstamp) (Nat.ne_of_lt hlater)
  · have hfeeding : ({ run with bridge := run.bridge.forward chosen subscription.latest } : ReportRun).feeding =
        some ⟨chosen.receiver, run.serial, run.session⟩ := by
      rw [hforward]
      unfold ReportRun.feeding GuiRun.send
      dsimp only
      rw [hselected, hactive]
    have hevents : (run.bridge.forward chosen subscription.latest).events =
        run.bridge.events ++ [⟨chosen.subscription, chosen.subscription, .state subscription.latest⟩] := by
      rw [hforward]
      rfl
    have hsent := follow_sent run hevents completion
    rw [List.map_singleton, hfeeding] at hsent
    have hshown : (run.follow (run.bridge.forward chosen subscription.latest) completion).sent.filterMap Sent.state? =
        run.sent.filterMap Sent.state? ++
          [(⟨chosen.receiver, run.serial, run.session⟩, subscription.latest)] := by
      rw [hsent, List.filterMap_append]
      rfl
    have hbridge : (run.follow (run.bridge.forward chosen subscription.latest) completion).bridge =
        { run.bridge with forwarded := some (subscription.latest.epoch, subscription.latest.revision) }.send
          chosen.subscription chosen.subscription (.state subscription.latest) := hforward
    refine ⟨?_, by rw [hshown]; simp⟩
    constructor
    · rw [hbridge]
      exact h.selected
    · rw [hbridge]
      exact h.latest
    · rw [hbridge]
      exact fun hnone => absurd (hactive.symm.trans hnone) (Option.some_ne_none _)
    · rw [hbridge]
      exact h.subscribing
    · rw [hbridge, hshown]
      intro other stamp hother hstamp
      obtain rfl := Option.some.inj (hactive.symm.trans hother)
      refine ⟨subscription.latest, ?_, Option.some.inj hstamp, .inl rfl⟩
      rw [← hreceiver]
      exact List.mem_append_right _ (List.mem_singleton_self _)
    · exact h.completed
    · rw [hshown]
      intro shown hmem
      obtain hmem | hmem := List.mem_append.mp hmem
      · exact h.serials shown hmem
      · obtain rfl := List.mem_singleton.mp hmem
        exact le_rfl
    · rw [hbridge, hshown, List.getLast?_concat]
      rintro shown hlast - -
      obtain rfl := Option.some.inj hlast
      rfl
    · rw [hbridge]
      exact h.finished
    · rw [hsent]
      refine h.order.concat (fun _ _ hstate => nomatch hstate) fun shown hlast next hnext hserial => ?_
      obtain rfl := Option.some.inj hnext
      have hforwarded := h.last shown hlast hserial (by rw [hactive]; rfl)
      rw [hforwarded] at hnew
      exact fun heq => hnew (congrArg some heq)

theorem Fed.dropped (h : Fed run) (hactive : bridge.active = none) (hforwarded : bridge.forwarded = none)
    (hfinished : bridge.finished = run.bridge.finished) : Fed { run with bridge } := by
  have hnone : ∀ subscription, bridge.active ≠ some subscription := by simp [hactive]
  refine ⟨fun subscription hsome => absurd hsome (hnone subscription),
    fun subscription hsome => absurd hsome (hnone subscription), fun _ => hforwarded, fun _ => hactive,
    fun subscription _ hsome => absurd hsome (hnone subscription), h.completed, h.serials, fun _ _ _ hsome => ?_, ?_,
    h.order⟩
  · rw [show ({ run with bridge } : ReportRun).bridge.active = none from hactive] at hsome
    cases hsome
  · rw [show ({ run with bridge } : ReportRun).bridge.finished = run.bridge.finished from hfinished]
    exact h.finished

theorem Fed.frame (h : Fed run) (hselected : bridge.selected = run.bridge.selected)
    (hactive : bridge.active = run.bridge.active) (hforwarded : bridge.forwarded = run.bridge.forwarded)
    (hsubscribing : bridge.subscribing = run.bridge.subscribing)
    (hfinished : ∀ event ∈ bridge.finished, ∀ state, event.event ≠ .state state) : Fed { run with bridge } := by
  constructor
  all_goals dsimp only
  · rw [hactive, hselected]
    exact h.selected
  · rw [hactive]
    exact h.latest
  · rw [hactive, hforwarded]
    exact h.idle
  · rw [hactive, hsubscribing]
    exact h.subscribing
  · rw [hactive, hforwarded]
    exact h.shown
  · exact h.completed
  · exact h.serials
  · rw [hactive, hforwarded]
    exact h.last
  · exact hfinished
  · exact h.order

theorem Fed.served (h : Fed run) {flag : StateSubscription → StateSubscription}
    {states : ReceiverId → ℕ → ReceiverState} {current : ReceiverId → ℕ} {isOpen : ReceiverId → Bool}
    (hreceiver : ∀ subscription, (flag subscription).receiver = subscription.receiver)
    (hlatest : ∀ subscription, run.bridge.active = some subscription →
      (flag subscription).latest = states subscription.receiver run.session)
    (hstates : ∀ receiver session, session ≤ run.current receiver → session ≤ current receiver ∧
      (run.states receiver session).Advances (states receiver session)) :
    Fed { run with states, current, isOpen, bridge := { run.bridge with active := run.bridge.active.map flag } } := by
  constructor
  all_goals dsimp only
  · intro subscription hactive
    obtain ⟨old, hold, rfl⟩ := Option.map_eq_some_iff.mp hactive
    rw [hreceiver]
    exact h.selected old hold
  · intro subscription hactive
    obtain ⟨old, hold, rfl⟩ := Option.map_eq_some_iff.mp hactive
    rw [hreceiver]
    exact ⟨(hstates old.receiver run.session (h.latest old hold).1).1, hlatest old hold⟩
  · exact fun hnone => h.idle (Option.map_eq_none_iff.mp hnone)
  · exact fun hsubscribing => Option.map_eq_none_iff.mpr (h.subscribing hsubscribing)
  · intro subscription stamp hactive hforwarded
    obtain ⟨old, hold, rfl⟩ := Option.map_eq_some_iff.mp hactive
    obtain ⟨state, hmem, hstamp, hadvances⟩ := h.shown old stamp hold hforwarded
    obtain ⟨hsession, hfrom⟩ := h.latest old hold
    rw [hreceiver, hlatest old hold]
    rw [hfrom] at hadvances
    exact ⟨state, hmem, hstamp, hadvances.trans (hstates _ _ hsession).2⟩
  · intro completion hmem receiver
    obtain ⟨hle, hadvances⟩ := h.completed completion hmem receiver
    obtain ⟨hle', hadvances'⟩ := hstates receiver _ hle
    exact ⟨hle', hadvances.trans hadvances'⟩
  · exact h.serials
  · intro shown hlast hserial hactive
    rw [Option.isSome_map] at hactive
    exact h.last shown hlast hserial hactive
  · exact h.finished
  · exact h.order

/-- The service has gone on in another session than the subscription's. -/
theorem Fed.advanced (h : Fed run) {states : ReceiverId → ℕ → ReceiverState} {current : ReceiverId → ℕ}
    {isOpen : ReceiverId → Bool}
    (hlatest : ∀ subscription, run.bridge.active = some subscription →
      subscription.latest = states subscription.receiver run.session)
    (hstates : ∀ receiver session, session ≤ run.current receiver → session ≤ current receiver ∧
      (run.states receiver session).Advances (states receiver session)) :
    Fed { run with states, current, isOpen } := by
  have hserved : Fed { run with
      states, current, isOpen, bridge := { run.bridge with active := run.bridge.active.map id } } :=
    h.served (fun _ => rfl) hlatest hstates
  rw [Option.map_id] at hserved
  exact hserved

theorem update_update_self {states : ReceiverId → ℕ → ReceiverState} {receiver : ReceiverId} {session : ℕ}
    {state : ReceiverState} :
    Function.update states receiver (Function.update (states receiver) session state) receiver session = state := by
  rw [Function.update_self, Function.update_self]

theorem update_update_of_ne {states : ReceiverId → ℕ → ReceiverState} {receiver other : ReceiverId} {session number : ℕ}
    {state : ReceiverState} (h : ¬(other = receiver ∧ number = session)) :
    Function.update states receiver (Function.update (states receiver) session state) other number =
      states other number := by
  by_cases hreceiver : other = receiver
  · subst hreceiver
    rw [Function.update_self, Function.update_of_ne fun hsession => h ⟨rfl, hsession⟩]
  · rw [Function.update_of_ne hreceiver]

theorem watches_iff (hactive : run.bridge.active = some subscription) {receiver : ReceiverId} {session : ℕ} :
    run.watches receiver session = true ↔ subscription.receiver = receiver ∧ run.session = session := by
  rw [ReportRun.watches, hactive]
  simp

theorem Fed.publish (h : Fed run) {receiver : ReceiverId} {session : ℕ} {state : ReceiverState}
    (hadvances : (run.states receiver session).Advances state) : Fed (run.publish receiver session state) := by
  have hstates : ∀ other number, number ≤ run.current other → number ≤ run.current other ∧
      (run.states other number).Advances
        (Function.update run.states receiver (Function.update (run.states receiver) session state) other number) := by
    intro other number hle
    refine ⟨hle, ?_⟩
    by_cases hsame : other = receiver ∧ number = session
    · obtain ⟨rfl, rfl⟩ := hsame
      rw [update_update_self]
      exact hadvances
    · rw [update_update_of_ne hsame]
      exact .inl rfl
  unfold ReportRun.publish
  split_ifs with hwatches
  · refine h.served (fun _ => rfl) (fun subscription hactive => ?_) hstates
    obtain ⟨rfl, rfl⟩ := (watches_iff hactive).mp hwatches
    exact update_update_self.symm
  · refine h.advanced (fun subscription hactive => ?_) hstates
    rw [update_update_of_ne fun hsame => hwatches ((watches_iff hactive).mpr hsame)]
    exact (h.latest subscription hactive).2

theorem Fed.openSession (h : Fed run) (receiver : ReceiverId) (first : ReceiverState) :
    Fed (run.openSession receiver first) := by
  have hfresh : ∀ other number, number ≤ run.current other →
      ¬(other = receiver ∧ number = run.current receiver + 1) := by
    rintro other number hle ⟨rfl, rfl⟩
    exact absurd hle (Nat.not_succ_le_self _)
  refine h.advanced (fun subscription hactive => ?_) fun other number hle => ⟨?_, ?_⟩
  · obtain ⟨hsession, hlatest⟩ := h.latest subscription hactive
    rw [update_update_of_ne (hfresh _ _ hsession)]
    exact hlatest
  · by_cases hother : other = receiver
    · subst hother
      rw [Function.update_self]
      exact Nat.le_succ_of_le hle
    · rw [Function.update_of_ne hother]
      exact hle
  · rw [update_update_of_ne (hfresh _ _ hle)]
    exact .inl rfl

theorem Fed.close (h : Fed run) (receiver : ReceiverId) : Fed (run.close receiver) := by
  have hstates : ∀ other number, number ≤ run.current other → number ≤ run.current other ∧
      (run.states other number).Advances (run.states other number) := fun _ _ hle => ⟨hle, .inl rfl⟩
  unfold ReportRun.close
  split_ifs
  · exact h.served (fun _ => rfl) (fun subscription hactive => (h.latest subscription hactive).2) hstates
  · exact h.advanced (fun subscription hactive => (h.latest subscription hactive).2) hstates

/-! ### The steps -/

theorem Fed.command (h : Fed run) (command : BridgeCommand) : Fed (run.follow (run.bridge.handle command) none) := by
  obtain ⟨chosen, hselected⟩ | hstill := handle_cases run.bridge command
  · rw [hselected]
    have hdropped : Fed { run with
        bridge := { run.bridge with
          active := none, forwarded := none, selected := some chosen, subscribing := true } } := h.dropped rfl rfl rfl
    exact hdropped.still .refl
  · exact h.still hstill

theorem Fed.changed (h : Fed run) (hchanged : run.bridge.onChanged = some bridge) : Fed (run.follow bridge none) := by
  unfold GuiRun.onChanged at hchanged
  cases hactive : run.bridge.active with
  | none =>
    rw [hactive] at hchanged
    cases hchanged
  | some subscription =>
    rw [hactive] at hchanged
    dsimp only at hchanged
    split_ifs at hchanged with hended hunseen
    · -- the session has ended: the bridge subscribes again
      cases hselected : run.bridge.selected with
      | none =>
        rw [hselected] at hchanged
        obtain rfl := Option.some.inj hchanged
        have hdropped : Fed { run with bridge := { run.bridge with active := none, forwarded := none } } :=
          h.dropped rfl rfl rfl
        rw [← hselected]
        exact hdropped.still .refl
      | some chosen =>
        rw [hselected] at hchanged
        obtain rfl := Option.some.inj hchanged
        have hdropped : Fed { run with
            bridge := { run.bridge with active := none, forwarded := none, subscribing := true } } :=
          h.dropped rfl rfl rfl
        rw [← hselected]
        exact hdropped.still (.send _ _ _ (by simp))
    · have hseen : Fed { run with
          bridge := { run.bridge with active := some { subscription with unseen := false } } } := by
        have hserved : Fed { run with
            bridge := { run.bridge with
              active := run.bridge.active.map fun subscription => { subscription with unseen := false } } } :=
          h.served (fun _ => rfl) (fun subscription hactive => (h.latest subscription hactive).2)
            fun _ _ hle => ⟨hle, .inl rfl⟩
        rw [hactive] at hserved
        exact hserved
      cases hselected : run.bridge.selected with
      | none =>
        rw [hselected] at hchanged
        obtain rfl := Option.some.inj hchanged
        rw [← hselected]
        exact hseen.still .refl
      | some chosen =>
        rw [hselected] at hchanged
        obtain rfl := Option.some.inj hchanged
        rw [← hselected]
        exact (hseen.forward rfl hselected none).1

theorem Fed.attach (h : Fed run) (chosen : Selected) (hselected : run.bridge.selected = some chosen) :
    Fed (run.attach chosen) := by
  have hopened : Fed { run with
      serial := run.serial + 1
      session := run.current chosen.receiver
      bridge := { run.bridge with
        subscribing := false
        active := some ⟨chosen.receiver, run.states chosen.receiver (run.current chosen.receiver), false, false⟩
        forwarded := none } } := by
    constructor
    all_goals dsimp only
    · intro subscription hactive
      obtain rfl := Option.some.inj hactive
      exact ⟨chosen, hselected, rfl⟩
    · intro subscription hactive
      obtain rfl := Option.some.inj hactive
      exact ⟨le_rfl, rfl⟩
    · exact fun _ => rfl
    · exact fun hsubscribing => absurd hsubscribing Bool.false_ne_true
    · intro subscription stamp _ hforwarded
      cases hforwarded
    · exact h.completed
    · exact fun shown hshown => Nat.le_succ_of_le (h.serials shown hshown)
    · -- no state of this subscription has been forwarded yet
      intro shown hlast hserial
      have hle := h.serials shown (List.mem_of_getLast? hlast)
      omega
    · exact h.finished
    · exact h.order
  exact (hopened.forward rfl hselected none).1

/-- A finished task's event is forwarded when its state has been shown. -/
theorem Fed.push (h : Fed run) (hevent : ∀ state, event.event ≠ .state state)
    (hreport : ∀ feeding, run.feeding = some feeding →
      ∃ shown ∈ run.sent.filterMap Sent.state?, AsNew feeding.receiver (completion feeding.receiver) shown) :
    Fed (run.follow { run.bridge with events := run.bridge.events ++ [event] } (some completion)) := by
  have hstate : (⟨event, run.feeding, some completion⟩ : Sent).state? = none := state?_of_ne hevent
  have hevents : ({ run.bridge with events := run.bridge.events ++ [event] } : GuiRun).events =
      run.bridge.events ++ [event] := rfl
  have hsent : (run.follow { run.bridge with events := run.bridge.events ++ [event] } (some completion)).sent =
      run.sent ++ [⟨event, run.feeding, some completion⟩] := follow_sent run hevents (some completion)
  have hshown : (run.follow { run.bridge with events := run.bridge.events ++ [event] } (some completion)).sent.filterMap
      Sent.state? = run.sent.filterMap Sent.state? := by
    rw [hsent, List.filterMap_append, List.filterMap_cons_none hstate, List.filterMap_nil, List.append_nil]
  refine ⟨h.selected, h.latest, h.idle, h.subscribing, ?_, h.completed, ?_, ?_, h.finished, ?_⟩
  · rw [hshown]
    exact h.shown
  · rw [hshown]
    exact h.serials
  · rw [hshown]
    exact h.last
  · rw [hsent]
    refine h.order.concat (fun other feeding _ hcompletion hfeeding => ?_) fun _ _ next hnext => ?_
    · obtain rfl := Option.some.inj hcompletion
      exact hreport feeding hfeeding
    · rw [hstate] at hnext
      cases hnext

/-- A finished task's event is forwarded, behind the subscription's state. -/
theorem Fed.done (h : Fed run) (hevent : ∀ state, event.event ≠ .state state)
    (hheard : ∀ feeding, run.feeding = some feeding → (completion feeding.receiver).1 ≤ feeding.session)
    (hcompletion : ∀ receiver, (completion receiver).2.Advances (run.states receiver (completion receiver).1)) :
    Fed (run.follow (run.bridge.onDone event) (some completion)) := by
  cases hactive : run.bridge.active with
  | none =>
    have hdone : run.bridge.onDone event = { run.bridge with events := run.bridge.events ++ [event] } := by
      unfold GuiRun.onDone
      rw [hactive]
      cases run.bridge.selected <;> rfl
    rw [hdone]
    refine h.push hevent fun feeding hfeeding => ?_
    unfold ReportRun.feeding at hfeeding
    rw [hactive] at hfeeding
    cases hselected : run.bridge.selected <;> rw [hselected] at hfeeding <;> cases hfeeding
  | some subscription =>
    obtain ⟨chosen, hselected, hreceiver⟩ := h.selected subscription hactive
    have hfeeding : run.feeding = some ⟨chosen.receiver, run.serial, run.session⟩ := by
      unfold ReportRun.feeding
      rw [hselected, hactive]
    have hdone : run.bridge.onDone event =
        { run.bridge.forward chosen subscription.latest with
          events := (run.bridge.forward chosen subscription.latest).events ++ [event] } := by
      unfold GuiRun.onDone
      rw [hselected, hactive]
    obtain ⟨hshown, hmem⟩ := h.forward hactive hselected (some completion)
    have hevents : ∃ new, (run.bridge.forward chosen subscription.latest).events = run.bridge.events ++ new := by
      obtain ⟨hsame, -⟩ | ⟨-, hforward⟩ := forward_cases run.bridge chosen subscription.latest
      · rw [hsame]
        exact ⟨[], (List.append_nil _).symm⟩
      · rw [hforward]
        exact ⟨_, rfl⟩
    have hkept : (run.bridge.forward chosen subscription.latest).selected = run.bridge.selected ∧
        (run.bridge.forward chosen subscription.latest).active = run.bridge.active := by
      obtain ⟨hsame, -⟩ | ⟨-, hforward⟩ := forward_cases run.bridge chosen subscription.latest
      · rw [hsame]
        exact ⟨rfl, rfl⟩
      · rw [hforward]
        exact ⟨rfl, rfl⟩
    obtain ⟨new, hevents⟩ := hevents
    have hlast : (run.bridge.onDone event).events =
        (run.bridge.forward chosen subscription.latest).events ++ [event] := by rw [hdone]
    rw [← follow_follow run hevents hlast (by rw [hdone]) (by rw [hdone]), hdone]
    refine hshown.push hevent fun feeding hother => ⟨_, hmem, ?_⟩
    obtain rfl : feeding = ⟨chosen.receiver, run.serial, run.session⟩ := by
      have hsame : (run.follow (run.bridge.forward chosen subscription.latest) (some completion)).feeding =
          run.feeding := by
        unfold ReportRun.feeding ReportRun.follow
        dsimp only
        rw [hkept.1, hkept.2]
      rw [hsame, hfeeding] at hother
      exact (Option.some.inj hother).symm
    refine ⟨rfl, (hheard _ hfeeding).lt_or_eq.imp_right fun heq => ⟨heq, ?_⟩⟩
    -- the subscription shows the newest state of the session in which the task completed
    have hadvances := hcompletion chosen.receiver
    rw [heq] at hadvances
    rw [(h.latest subscription hactive).2, ← hreceiver]
    exact hadvances

theorem leave_ne_state {task : BridgeTask} {event : PortEvent} {left : BridgeEvent} (h : task.leave event = some left)
    (state : ReceiverState) : left.event ≠ .state state := by
  unfold BridgeTask.leave at h
  split at h
  case h_4 =>
    obtain ⟨-, hsome⟩ := Option.ite_none_right_eq_some.mp h
    obtain rfl := Option.some.inj hsome
    simp
  case h_5 => cases h
  all_goals
    obtain rfl := Option.some.inj h
    simp

theorem Fed.finish (h : Fed run) {i : ℕ} {event : PortEvent}
    (hstep : guiMachine.step run.bridge (.finish i event) = some bridge) :
    Fed { run with bridge, completed := run.completed ++ [run.newest] } := by
  cases guiStep_of_step hstep with
  | finish i event task left htask hleft =>
    have hframe : Fed { run with
        bridge := { run.bridge with
          tasks := run.bridge.tasks.eraseIdx i
          finished := run.bridge.finished ++ [left] } } := by
      refine h.frame rfl rfl rfl rfl fun other hother => ?_
      obtain hmem | hmem := List.mem_append.mp hother
      · exact h.finished other hmem
      · obtain rfl := List.mem_singleton.mp hmem
        exact leave_ne_state hleft
    refine ⟨hframe.selected, hframe.latest, hframe.idle, hframe.subscribing, hframe.shown, ?_, hframe.serials,
      hframe.last, hframe.finished, hframe.order⟩
    intro completion hmem receiver
    obtain hmem | hmem := List.mem_append.mp hmem
    · exact h.completed completion hmem receiver
    · obtain rfl := List.mem_singleton.mp hmem
      exact ⟨le_rfl, .inl rfl⟩

theorem Fed.submit (h : Fed run) {i : ℕ} (hstep : guiMachine.step run.bridge (.submit i) = some bridge) :
    Fed { run with bridge } := by
  cases guiStep_of_step hstep with
  | submit => exact h.frame rfl rfl rfl rfl h.finished

theorem Fed.pop (h : Fed run) {event : BridgeEvent} {rest : List BridgeEvent} {others : List Completion}
    (hfinished : run.bridge.finished = event :: rest) (hcompleted : run.completed = completion :: others) :
    Fed { run with completed := others, bridge := { run.bridge with finished := rest } } := by
  refine ⟨h.selected, h.latest, h.idle, h.subscribing, h.shown, fun other hother => h.completed other ?_, h.serials,
    h.last, fun other hother => h.finished other ?_, h.order⟩
  · rw [hcompleted]
    exact List.mem_cons_of_mem _ hother
  · rw [hfinished]
    exact List.mem_cons_of_mem _ hother

theorem Fed.step (h : Fed run) {action : ReportAction} {run' : ReportRun} (hheard : heard run action = true)
    (hstep : reportMachine.step run action = some run') : Fed run' := by
  cases action with
  | command command =>
    obtain ⟨-, hrun⟩ := Option.ite_none_left_eq_some.mp hstep
    obtain rfl := Option.some.inj hrun
    exact h.command command
  | changed =>
    obtain ⟨-, hrun⟩ := Option.ite_none_left_eq_some.mp hstep
    obtain ⟨bridge, hchanged, rfl⟩ := Option.map_eq_some_iff.mp hrun
    exact h.changed hchanged
  | done =>
    simp only [reportMachine] at hstep
    split at hstep
    · rename_i event rest completion others _ hfinished hcompleted
      obtain rfl := Option.some.inj hstep
      have hmem : event ∈ run.bridge.finished := hfinished ▸ List.mem_cons_self
      have hmark : completion ∈ run.completed := hcompleted ▸ List.mem_cons_self
      refine (h.pop hfinished hcompleted).done (h.finished event hmem) (fun feeding hfeeding => ?_)
        fun receiver => (h.completed completion hmark receiver).2
      replace hfeeding : run.feeding = some feeding := hfeeding
      unfold heard at hheard
      rw [hcompleted, hfeeding] at hheard
      exact of_decide_eq_true hheard
    · cases hstep
  | subscribed first =>
    simp only [reportMachine] at hstep
    split at hstep
    · rename_i chosen _ hselected
      obtain rfl := Option.some.inj hstep
      split_ifs
      · exact h.attach chosen hselected
      · exact (h.openSession chosen.receiver first).attach chosen hselected
    · cases hstep
  | notSubscribed message =>
    simp only [reportMachine] at hstep
    split at hstep
    · rename_i chosen hsubscribing _
      obtain rfl := Option.some.inj hstep
      have hactive := h.subscribing hsubscribing
      have hdropped : Fed { run with bridge := { run.bridge with subscribing := false, active := none } } :=
        h.dropped rfl (h.idle hactive) rfl
      exact hdropped.still (.send _ _ _ (by simp))
    · cases hstep
  | submit i =>
    obtain ⟨bridge, hsubmit, rfl⟩ := Option.map_eq_some_iff.mp hstep
    exact h.submit hsubmit
  | finish i event =>
    obtain ⟨bridge, hfinish, rfl⟩ := Option.map_eq_some_iff.mp hstep
    exact h.finish hfinish
  | opened receiver first =>
    obtain ⟨-, hrun⟩ := Option.ite_none_left_eq_some.mp hstep
    obtain rfl := Option.some.inj hrun
    exact h.openSession receiver first
  | published receiver session state =>
    obtain ⟨⟨-, hadvances⟩, hrun⟩ := Option.ite_none_right_eq_some.mp hstep
    obtain rfl := Option.some.inj hrun
    exact h.publish hadvances
  | closed receiver =>
    obtain ⟨-, hrun⟩ := Option.ite_none_right_eq_some.mp hstep
    obtain rfl := Option.some.inj hrun
    exact h.close receiver

theorem fed_start : Fed {} := by
  refine ⟨?_, ?_, fun _ => rfl, fun h => ?_, ?_, ?_, ?_, ?_, ?_, ?_, .nil⟩
  all_goals simp

end Order

/-- **No report goes ahead of its state**, and no state is forwarded twice in a row, in a run in which the loop takes no
report of a task that completed in a later session than the subscription's. -/
theorem reports_follow_states (run : ReportRun)
    (hrun : reportMachine.ReachableBy (fun run action => heard run action = true) run) : InOrder run.sent := by
  refine (hrun.invariant (I := Fed) ?_ ?_).order
  · rintro run rfl
    exact fed_start
  · intro run action run' _ hheard hfed hstep
    exact hfed.step hheard hstep

/-! ### A session that ends before the report -/

section Example

/-- The den's receiver, muted. -/
def denMuted : ReceiverState :=
  { denState with
    revision := 1
    mainZone := { denState.mainZone with
      mute := { lastGood := some ⟨denId, 1, 0, 0, .receiverFrame, .on⟩, validity := .current 10000 } } }

/-- The bridge is subscribed to the den, and takes a control. -/
def controlled : List ReportAction :=
  [.command (.select 1 denId), .subscribed denState, .command (.control 2 (.mute .on) none)]

/-- The control ends, and the loop takes its report. -/
def reported : List ReportAction := [.submit 0, .finish 0 (.control (.finished true (.mute .on))), .done]

/-- The den's session ends, and the control runs in the next one. -/
def overtaken : List ReportAction :=
  controlled ++ [.closed denId, .opened denId denState, .published denId 2 denMuted] ++ reported

theorem overtaken_isSome : (reportMachine.exec {} overtaken).isSome = true := by decide +kernel

def afterOvertaken : ReportRun := (reportMachine.exec {} overtaken).get overtaken_isSome

theorem overtaken_report : (afterOvertaken.sent[1]?).isSome = true := by decide +kernel

/-- The report of the mute comes while only the state before it has been shown. -/
theorem not_inOrder : ∃ run, reportMachine.Reachable run ∧ ¬InOrder run.sent := by
  refine ⟨afterOvertaken, Machine.reachable_of_exec ({} : ReportRun) overtaken rfl
    (Option.some_get overtaken_isSome).symm, fun horder => ?_⟩
  obtain ⟨report, hget⟩ := Option.isSome_iff_exists.mp overtaken_report
  have hreport : (afterOvertaken.sent[1]?.all fun report => report.state?.isNone &&
      decide (report.feeding = some ⟨denId, 1, 1⟩) &&
      report.completion.any fun completion => (completion denId).1 == 2) = true := by decide +kernel
  rw [hget, Option.all_some, Bool.and_eq_true, Bool.and_eq_true] at hreport
  obtain ⟨⟨hstate, hfeeding⟩, hcompletion⟩ := hreport
  obtain ⟨completion, hsome⟩ : ∃ completion, report.completion = some completion := by
    refine Option.isSome_iff_exists.mp ?_
    by_contra hnone
    rw [Option.not_isSome_iff_eq_none.mp hnone] at hcompletion
    cases hcompletion
  rw [hsome, Option.any_some] at hcompletion
  have hshown : ((afterOvertaken.sent.take 1).filterMap Sent.state?).all (fun shown => shown.1.session == 1) =
      true := by decide +kernel
  obtain ⟨shown, hmem, -, hnew⟩ := horder.reports 1 report completion ⟨denId, 1, 1⟩ hget
    (Option.isNone_iff_eq_none.mp hstate) hsome (of_decide_eq_true hfeeding)
  have hold : shown.1.session = 1 := by simpa using List.all_eq_true.mp hshown shown hmem
  rw [show (completion denId).1 = 2 by simpa using hcompletion, hold] at hnew
  omega

/-- The den's session goes on. -/
def followed : List ReportAction := controlled ++ [.published denId 1 denMuted] ++ reported

theorem followed_isSome :
    (reportMachine.execBy (fun run action => heard run action = true) {} followed).isSome = true := by decide +kernel

def afterFollowed : ReportRun :=
  (reportMachine.execBy (fun run action => heard run action = true) {} followed).get followed_isSome

theorem reports_follow_states_followed : InOrder afterFollowed.sent ∧
    (afterFollowed.sent.filterMap Sent.state?).map (·.2.revision) = [0, 1] ∧ afterFollowed.sent.length = 3 := by
  refine ⟨reports_follow_states afterFollowed (Machine.reachableBy_of_execBy ({} : ReportRun) followed rfl
    (Option.some_get followed_isSome).symm), ?_, ?_⟩
  · decide +kernel
  · decide +kernel

end Example

end DenonAvr.Gui
