import DenonAvr.Gui.Window
import DenonAvr.Library.Machine

/-!
# The window and its bridge

The window hands its commands to the bridge by tasks of their own, which the runtime polls in any order. The bridge takes
one thing after another off its `select!`: a command from its queue, a change of the state subscription, a finished task. A
control, a refresh and a read run on spawned tasks, whose events the bridge forwards, a newer state before them. What the
control port answers, and when, is up to it.

`log` is what happened, for the theorems to speak of. No step reads it.
-/

namespace DenonAvr.Gui

open Domain Library

/-! ### The bridge -/

/-- The receiver the window has chosen, and the `Select` request that chose it. -/
structure Selected where
  receiver : ReceiverId
  subscription : ℕ
deriving DecidableEq

structure StateSubscription where
  /-- The receiver it was opened for. -/
  receiver : ReceiverId
  latest : ReceiverState
  /-- `changed` has not given the newest state yet. -/
  unseen : Bool
  ended : Bool
deriving DecidableEq

inductive BridgeTask
  | refresh (id : ℕ) (chosen : Selected)
  | control (id : ℕ) (chosen : Selected) (intent : ReceiverIntent) (submitted : Bool)
  | read (kind : ReadKind) (id : ℕ) (generation : ℕ) (chosen : Selected)
deriving DecidableEq

inductive GuiEntry
  /-- The window asks for a receiver. -/
  | chose (subscription : ℕ) (receiver : ReceiverId)
  /-- It takes in a state. -/
  | shown (subscription : ℕ) (state : ReceiverState)
  /-- The user acts, while the window has this state. -/
  | asked (id : ℕ) (intent : ReceiverIntent) (subscription : ℕ) (state : Option ReceiverState)
  /-- A read is started. -/
  | requested (id : ℕ) (kind : ReadKind) (subscription connection : ℕ)
  /-- The bridge takes a control off its queue. -/
  | took (id : ℕ) (intent : ReceiverIntent) (guard : Option FieldBaseline) (selected : Option Selected)
      (active : Option StateSubscription)
  | submitted (id : ℕ) (receiver : ReceiverId) (intent : ReceiverIntent)
  | answered (id : ℕ) (report : ControlReport)
deriving DecidableEq

structure GuiRun where
  window : Window := {}
  /-- The window's tasks that have not handed over their command yet. -/
  sending : List BridgeCommand := []
  queue : List BridgeCommand := []
  selected : Option Selected := none
  active : Option StateSubscription := none
  /-- The bridge waits in `subscribe`. -/
  subscribing : Bool := false
  forwarded : Option (Option Epoch × StateRevision) := none
  tasks : List BridgeTask := []
  finished : List BridgeEvent := []
  events : List BridgeEvent := []
  log : List GuiEntry := []

inductive GuiAction
  | message (message : Message)
  /-- The window takes in the next event. -/
  | event
  /-- One of the window's tasks hands over its command. -/
  | send (i : ℕ)
  | command
  | changed
  | done
  | subscribed (result : Except String ReceiverState)
  /-- The port has a newer state. -/
  | port (latest : ReceiverState)
  /-- It closes the session. -/
  | portEnded
  /-- A spawned task submits its operation. -/
  | submit (i : ℕ)
  /-- A spawned task ends. -/
  | finish (i : ℕ) (event : PortEvent)

namespace GuiRun

def send (run : GuiRun) (requestId subscription : ℕ) (event : PortEvent) : GuiRun :=
  { run with events := run.events ++ [⟨requestId, subscription, event⟩] }

/-- `forward_state`. -/
def forward (run : GuiRun) (chosen : Selected) (state : ReceiverState) : GuiRun :=
  if run.forwarded = some (state.epoch, state.revision) then run
  else
    { run with forwarded := some (state.epoch, state.revision) }.send chosen.subscription chosen.subscription
      (.state state)

def noReceiver : String := "no receiver selected"

def record (run : GuiRun) (entry : GuiEntry) : GuiRun := { run with log := run.log ++ [entry] }

def spawn (run : GuiRun) (task : BridgeTask) : GuiRun := { run with tasks := run.tasks ++ [task] }

/-- `handle`, for a control. -/
def handleControl (run : GuiRun) (id : ℕ) (intent : ReceiverIntent) (guard : Option FieldBaseline) : GuiRun :=
  let taken := run.record (.took id intent guard run.selected run.active)
  match run.selected with
  | none => (taken.record (.answered id (.failed noReceiver))).send id 0 (.failed noReceiver)
  | some chosen =>
    match guard, run.active with
    | some baseline, some subscription =>
      if baseline.holdsIn subscription.latest then taken.spawn (.control id chosen intent false)
      else (taken.record (.answered id .conflict)).send id chosen.subscription (.control .conflict)
    | _, _ => taken.spawn (.control id chosen intent false)

/-- `handle`. -/
def handle (run : GuiRun) : BridgeCommand → GuiRun
  | .select id receiver =>
    { run with active := none, forwarded := none, selected := some ⟨receiver, id⟩, subscribing := true }
  | .refresh id =>
    match run.selected with
    | none => run.send id 0 (.failed noReceiver)
    | some chosen =>
      if run.active.isNone then { run with subscribing := true }
      else run.spawn (.refresh id chosen)
  | .control id intent guard => run.handleControl id intent guard
  | .read kind id generation =>
    match run.selected with
    | none => run
    | some chosen => run.spawn (.read kind id generation chosen)

/-- The bridge's state subscription has something. -/
def onChanged (run : GuiRun) : Option GuiRun :=
  match run.active with
  | none => none
  | some subscription =>
    if subscription.ended then
      let run := { run with active := none, forwarded := none }
      match run.selected with
      | none => some run
      | some chosen =>
        some ({ run with subscribing := true }.send chosen.subscription chosen.subscription .sessionEnded)
    else if subscription.unseen then
      let run := { run with active := some { subscription with unseen := false } }
      match run.selected with
      | none => some run
      | some chosen => some (run.forward chosen subscription.latest)
    else none

/-- A finished task's event, behind a newer state. -/
def onDone (run : GuiRun) (event : BridgeEvent) : GuiRun :=
  let run :=
    match run.selected, run.active with
    | some chosen, some subscription => run.forward chosen subscription.latest
    | _, _ => run
  { run with events := run.events ++ [event] }

/-- The end of `subscribe`. -/
def onSubscribed (run : GuiRun) (chosen : Selected) : Except String ReceiverState → GuiRun
  | .ok latest =>
    { run with
      subscribing := false
      active := some ⟨chosen.receiver, latest, false, false⟩
      forwarded := none }.forward chosen latest
  | .error message =>
    { run with subscribing := false, active := none }.send chosen.subscription chosen.subscription
      (.connectFailed message)

end GuiRun

/-- The event a spawned task leaves for the bridge when it ends with `event`. -/
def BridgeTask.leave (task : BridgeTask) (event : PortEvent) : Option BridgeEvent :=
  match task, event with
  | .refresh id chosen, .refreshed => some ⟨id, chosen.subscription, .refreshed⟩
  | .refresh id chosen, .failed message => some ⟨id, chosen.subscription, .failed message⟩
  | .control id chosen _ true, .control report => some ⟨id, chosen.subscription, .control report⟩
  | .read kind id started chosen, .read generation result =>
    if generation = started ∧ result.kind = kind then some ⟨id, chosen.subscription, .read generation result⟩ else none
  | _, _ => none

/-! ### The window beside it -/

def Window.entryOf (window : Window) : BridgeCommand → Option GuiEntry
  | .select id receiver => some (.chose id receiver)
  | .control id intent _ => some (.asked id intent window.subscription window.state)
  | .read kind id _ => some (.requested id kind window.subscription window.connection)
  | .refresh _ => none

/-- The state that a window takes in with an event. -/
def Window.shownBy (window : Window) (event : BridgeEvent) : List GuiEntry :=
  match event.event with
  | .state state => if event.subscription ≠ window.subscription ∨ window.closing then [] else [.shown event.subscription state]
  | _ => []

/-- The window after a message, whose tasks are started. -/
def GuiRun.adopt (run : GuiRun) (window : Window) (shown : List GuiEntry) : GuiRun :=
  { run with
    window := { window with tasks := [] }
    sending := run.sending ++ window.tasks
    log := (run.log ++ shown) ++ window.tasks.filterMap window.entryOf }

/-- The window and its bridge, from `Gui::new` on. -/
def guiMachine : Machine GuiRun GuiAction where
  init := fun run => run = {}
  step := fun run action =>
    match action with
    | .message message => some (run.adopt (run.window.update message) [])
    | .event =>
      match run.events with
      | [] => none
      | event :: rest => some ({ run with events := rest }.adopt (run.window.onBridge event) (run.window.shownBy event))
    | .send i => run.sending[i]?.map fun command =>
      { run with sending := run.sending.eraseIdx i, queue := run.queue ++ [command] }
    | .command =>
      match run.subscribing, run.queue with
      | false, command :: rest => some ({ run with queue := rest }.handle command)
      | _, _ => none
    | .changed => if run.subscribing then none else run.onChanged
    | .done =>
      match run.subscribing, run.finished with
      | false, event :: rest => some ({ run with finished := rest }.onDone event)
      | _, _ => none
    | .subscribed result =>
      match run.subscribing, run.selected with
      | true, some chosen => some (run.onSubscribed chosen result)
      | _, _ => none
    | .port latest => run.active.map fun subscription =>
      { run with active := some { subscription with latest, unseen := true } }
    | .portEnded => run.active.map fun subscription => { run with active := some { subscription with ended := true } }
    | .submit i =>
      match run.tasks[i]? with
      | some (.control id chosen intent false) =>
        some { run with
          tasks := run.tasks.set i (.control id chosen intent true)
          log := run.log ++ [.submitted id chosen.receiver intent] }
      | _ => none
    | .finish i event => (run.tasks[i]?.bind fun task => task.leave event).map fun left =>
      { run with tasks := run.tasks.eraseIdx i, finished := run.finished ++ [left] }

/-- What a step can do. -/
inductive GuiStep (run : GuiRun) : GuiAction → GuiRun → Prop
  | message (message : Message) : GuiStep run (.message message) (run.adopt (run.window.update message) [])
  | event (event : BridgeEvent) (rest : List BridgeEvent) (hevents : run.events = event :: rest) :
      GuiStep run .event ({ run with events := rest }.adopt (run.window.onBridge event) (run.window.shownBy event))
  | send (i : ℕ) (command : BridgeCommand) (hcommand : run.sending[i]? = some command) :
      GuiStep run (.send i) { run with sending := run.sending.eraseIdx i, queue := run.queue ++ [command] }
  | command (command : BridgeCommand) (rest : List BridgeCommand) (hidle : run.subscribing = false)
      (hqueue : run.queue = command :: rest) : GuiStep run .command ({ run with queue := rest }.handle command)
  | changed (run' : GuiRun) (hidle : run.subscribing = false) (hchanged : run.onChanged = some run') :
      GuiStep run .changed run'
  | done (event : BridgeEvent) (rest : List BridgeEvent) (hidle : run.subscribing = false)
      (hfinished : run.finished = event :: rest) : GuiStep run .done ({ run with finished := rest }.onDone event)
  | subscribed (result : Except String ReceiverState) (chosen : Selected) (hwaits : run.subscribing = true)
      (hselected : run.selected = some chosen) : GuiStep run (.subscribed result) (run.onSubscribed chosen result)
  | port (latest : ReceiverState) (subscription : StateSubscription) (hactive : run.active = some subscription) :
      GuiStep run (.port latest) { run with active := some { subscription with latest, unseen := true } }
  | portEnded (subscription : StateSubscription) (hactive : run.active = some subscription) :
      GuiStep run .portEnded { run with active := some { subscription with ended := true } }
  | submit (i id : ℕ) (chosen : Selected) (intent : ReceiverIntent)
      (htask : run.tasks[i]? = some (.control id chosen intent false)) :
      GuiStep run (.submit i)
        { run with
          tasks := run.tasks.set i (.control id chosen intent true)
          log := run.log ++ [.submitted id chosen.receiver intent] }
  | finish (i : ℕ) (event : PortEvent) (task : BridgeTask) (left : BridgeEvent) (htask : run.tasks[i]? = some task)
      (hleft : task.leave event = some left) :
      GuiStep run (.finish i event)
        { run with tasks := run.tasks.eraseIdx i, finished := run.finished ++ [left] }

theorem guiStep_of_step {run run' : GuiRun} {action : GuiAction} (hstep : guiMachine.step run action = some run') :
    GuiStep run action run' := by
  unfold guiMachine at hstep
  dsimp only at hstep
  cases action with
  | message message =>
    obtain rfl := Option.some.inj hstep
    exact .message message
  | event =>
    dsimp only at hstep
    split at hstep
    · cases hstep
    · rename_i event rest hevents
      obtain rfl := Option.some.inj hstep
      exact .event event rest hevents
  | send i =>
    obtain ⟨command, hcommand, rfl⟩ := Option.map_eq_some_iff.mp hstep
    exact .send i command hcommand
  | command =>
    dsimp only at hstep
    split at hstep
    · rename_i command rest hidle hqueue
      obtain rfl := Option.some.inj hstep
      exact .command command rest hidle hqueue
    · cases hstep
  | changed =>
    obtain ⟨hidle, hchanged⟩ := Option.ite_none_left_eq_some.mp hstep
    exact .changed run' (eq_false_of_ne_true hidle) hchanged
  | done =>
    dsimp only at hstep
    split at hstep
    · rename_i event rest hidle hfinished
      obtain rfl := Option.some.inj hstep
      exact .done event rest hidle hfinished
    · cases hstep
  | subscribed result =>
    dsimp only at hstep
    split at hstep
    · rename_i chosen hwaits hselected
      obtain rfl := Option.some.inj hstep
      exact .subscribed result chosen hwaits hselected
    · cases hstep
  | port latest =>
    obtain ⟨subscription, hactive, rfl⟩ := Option.map_eq_some_iff.mp hstep
    exact .port latest subscription hactive
  | portEnded =>
    obtain ⟨subscription, hactive, rfl⟩ := Option.map_eq_some_iff.mp hstep
    exact .portEnded subscription hactive
  | submit i =>
    dsimp only at hstep
    split at hstep
    · rename_i id chosen intent htask
      obtain rfl := Option.some.inj hstep
      exact .submit i id chosen intent htask
    · cases hstep
  | finish i event =>
    obtain ⟨left, hleaves, rfl⟩ := Option.map_eq_some_iff.mp hstep
    obtain ⟨task, htask, hleft⟩ := Option.bind_eq_some_iff.mp hleaves
    exact .finish i event task left htask hleft

end DenonAvr.Gui
