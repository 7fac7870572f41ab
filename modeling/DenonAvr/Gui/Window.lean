import DenonAvr.Domain.Precondition

/-!
# The desktop window

The window's reducer: what the user does and what the bridge reports change the window and start commands for the bridge.
Volumes are in half decibels, which is the step of the slider and of its buttons. The connection to the receiver is told
from an earlier one by `generation`, which the window takes from the state's epoch and advances by itself when a connection
is lost.
-/

namespace DenonAvr.Gui

open Domain

/-! ### What is read over HTTP -/

inductive Freshness
  | unknown
  | live
  /-- `Partial`: a refresh completed, but some fields kept an older observation. -/
  | partialRefresh
  | invalidated
deriving DecidableEq

inductive FieldErrorKind
  | unsupported | timeout | disconnected | malformed | unavailable
deriving DecidableEq

structure FieldError where
  kind : FieldErrorKind
  message : String
deriving DecidableEq

inductive FieldStatus (α : Type)
  | value (value : α)
  | unavailable (error : FieldError)
deriving DecidableEq

def FieldStatus.value? {α : Type} : FieldStatus α → Option α
  | .value shown => some shown
  | .unavailable _ => none

def notQueried : FieldError := ⟨.unavailable, "not queried"⟩

inductive SourceVisibility
  | shown | hidden | unknown
deriving DecidableEq

structure SourceEntry where
  id : SourceId
  displayName : Option String
  visibility : SourceVisibility
deriving DecidableEq

structure SourceCatalog where
  entries : List SourceEntry := []
  freshness : Freshness := .unknown
  generation : ℕ := 0
  observedAt : Option WallTime := none
  error : Option String := none
deriving DecidableEq

inductive CatalogResponseEvidence
  | complete | partialResponse | unsupported | malformed | timeout | disconnected
deriving DecidableEq

structure SourceCatalogObservation where
  catalog : SourceCatalog
  responseEvidence : CatalogResponseEvidence
deriving DecidableEq

namespace SourceCatalog

def invalidate (generation : ℕ) : SourceCatalog := { freshness := .invalidated, generation }

/-- `source_catalog::merge_refresh`. -/
def mergeRefresh (previous : SourceCatalog) (generation : ℕ) : Except String SourceCatalogObservation → SourceCatalog
  | .ok observation =>
    if observation.responseEvidence = .unsupported ∧ previous.generation = generation then
      { previous with
        freshness := .partialRefresh
        error := some "receiver did not provide a source catalog response" }
    else { observation.catalog with generation }
  | .error error =>
    if previous.generation = generation then { previous with freshness := .partialRefresh, error := some error }
    else { freshness := .unknown, generation, error := some error }

end SourceCatalog

structure QuickSelectPreset where
  name : Option String
  available : Bool
deriving DecidableEq

structure QuickSelectSnapshot where
  presets : Fin 4 → Option QuickSelectPreset := fun _ => none
  freshness : Freshness := .unknown
  generation : ℕ := 0
deriving DecidableEq

abbrev QuickSelectNames := Fin 4 → Option String

namespace QuickSelectSnapshot

def invalidate (quickSelect : QuickSelectSnapshot) : QuickSelectSnapshot :=
  { quickSelect with presets := fun _ => none, freshness := .invalidated }

def setName (quickSelect : QuickSelectSnapshot) (slot : Fin 4) (name : String) : QuickSelectSnapshot :=
  let preset := (quickSelect.presets slot).getD ⟨none, true⟩
  { quickSelect with
    presets := Function.update quickSelect.presets slot (some { preset with name := some name })
    freshness := .live }

/-- `quick_select::apply_names`. -/
def applyNames (quickSelect : QuickSelectSnapshot) (names : QuickSelectNames) (generation : ℕ) : QuickSelectSnapshot :=
  (List.finRange 4).foldl
    (fun quickSelect slot => (names slot).elim quickSelect (quickSelect.setName slot)) { quickSelect with generation }

end QuickSelectSnapshot

inductive ChannelSlotState
  | active | available | absent | unknown
deriving DecidableEq

structure ChannelSlot where
  label : String
  state : ChannelSlotState
deriving DecidableEq

structure AudioInformation where
  inputMode : FieldStatus String := .unavailable notQueried
  output : FieldStatus String := .unavailable notQueried
  signal : FieldStatus String := .unavailable notQueried
  sound : FieldStatus String := .unavailable notQueried
  sampleRate : FieldStatus String := .unavailable notQueried
deriving DecidableEq

structure VideoInformation where
  monitor : FieldStatus String := .unavailable notQueried
  hdmiInput : FieldStatus String := .unavailable notQueried
  hdmiOutput : FieldStatus String := .unavailable notQueried
deriving DecidableEq

structure AudysseyInformation where
  multeq : FieldStatus String := .unavailable notQueried
  dynamicEq : FieldStatus String := .unavailable notQueried
  dynamicVolume : FieldStatus String := .unavailable notQueried
deriving DecidableEq

structure HttpInformation where
  inputSlots : FieldStatus (List ChannelSlot) := .unavailable notQueried
  outputSlots : FieldStatus (List ChannelSlot) := .unavailable notQueried
  audio : AudioInformation := {}
  video : VideoInformation := {}
  audyssey : AudysseyInformation := {}
  freshness : Freshness := .unknown
  generation : ℕ := 0
  observedAt : Option WallTime := none
  error : Option String := none
deriving DecidableEq

namespace HttpInformation

def invalidate (generation : ℕ) : HttpInformation := { freshness := .invalidated, generation }

/-- `http_information::merge_refresh`. -/
def mergeRefresh (previous : HttpInformation) (generation : ℕ) : Except String HttpInformation → HttpInformation
  | .ok information => { information with generation }
  | .error error =>
    { previous with
      generation
      freshness := if previous.observedAt.isSome then .partialRefresh else .unknown
      error := some error }

/-- `http_information::intent_may_have_changed`. -/
def intentMayHaveChanged : ReceiverIntent → Bool
  | .source _ | .soundMode _ | .mainZonePower .on | .systemPower .on => true
  | _ => false

end HttpInformation

/-! ### The display model -/

inductive PowerState
  | on | standby
deriving DecidableEq

structure MainZoneSnapshot where
  httpInformation : HttpInformation := {}
  power : FieldStatus PowerState := .unavailable notQueried
  input : FieldStatus String := .unavailable notQueried
  /-- In half decibels. -/
  volume : FieldStatus ℤ := .unavailable notQueried
  mute : FieldStatus MuteState := .unavailable notQueried
  surroundMode : FieldStatus String := .unavailable notQueried
deriving DecidableEq

def MainZoneSnapshot.invalidated : MainZoneSnapshot := { httpInformation := .invalidate 0 }

def powerState : ZonePower → PowerState
  | .on => .on
  | .off => .standby

/-- One canonical field as the display model's status. -/
def status {α β : Type} (field : FieldState α) (convert : α → Option β) : FieldStatus β :=
  match field.validity with
  | .current _ =>
    match field.lastGood.bind fun observation => convert observation.value with
    | some value => .value value
    | none => .unavailable ⟨.malformed, "the receiver value could not be shown"⟩
  | .unknown | .stale .disconnected | .stale .receiverChanged => .unavailable notQueried
  | .stale .queryFailed => .unavailable ⟨.timeout, field.lastIssue.getD "the receiver query failed"⟩
  | .stale .expired => .unavailable ⟨.timeout, field.lastIssue.getD "the receiver observation expired"⟩
  | .unavailable _ => .unavailable ⟨.unavailable, field.lastIssue.getD "the receiver reports no value"⟩

/-- `Input::new` and `SurroundMode::new`. -/
def nonBlank (value : String) : Option String := if isBlank value then none else some value

def minVolume : ℤ := -160

def maxVolume : ℤ := 36

/-- `Minimum` is shown at the bottom of the slider. -/
def displayVolume : MasterVolume → ℤ
  | .minimum => minVolume
  | .dbHalfSteps step => step.val

/-- The canonical volume for a level of the slider. -/
def masterVolume (level : ℤ) : MasterVolume :=
  match MasterVolume.ofHalfSteps (min level MasterVolume.highestHalfStep) with
  | .ok volume => volume
  | .error _ => .minimum

def volumeLevelForSlider (value : ℤ) : Except String ℤ :=
  if minVolume ≤ value ∧ value ≤ maxVolume then .ok value
  else .error "Volume must be between -80.0 and +18.0 dB."

def projectMainZone (state : ReceiverState) : MainZoneSnapshot where
  power := status state.mainZone.power fun power => some (powerState power)
  input := status state.mainZone.source fun source => nonBlank source.value
  volume := status state.mainZone.volume fun volume => some (displayVolume volume)
  mute := status state.mainZone.mute some
  surroundMode := status state.mainZone.soundMode fun mode => nonBlank mode.id

def projectZone2 (state : ReceiverState) : FieldStatus PowerState :=
  status state.zone2Power fun power => some (powerState power)

/-! ### Selections and commands -/

def isPower : ReceiverIntent → Bool
  | .systemPower _ | .mainZonePower _ | .zone2Power _ => true
  | _ => false

/-- A saved receiver the user has chosen. -/
structure Selection where
  name : String
  model : Option String
deriving DecidableEq

def Selection.receiverId (selection : Selection) : Option ReceiverId :=
  if h : ReceiverId.isWellFormed selection.name = true then some ⟨selection.name, h⟩ else none

/-- `Model::from_reported` gives the X3800H, for which alone a `ModelCapabilities` has anything to read over HTTP. -/
def isX3800h (model : String) : Bool :=
  let normalized := (model.toList.map Char.toUpper).filter fun c => c ≠ ' ' ∧ c ≠ '-'
  decide ("AVRX3800H".toList <:+: normalized) || decide ("AVCX3800H".toList <:+: normalized)

inductive ReadKind
  | sourceCatalog | quickSelectNames | httpInformation
deriving DecidableEq

inductive BridgeCommand
  | select (id : ℕ) (receiver : ReceiverId)
  | refresh (id : ℕ)
  | control (id : ℕ) (intent : ReceiverIntent) (guard : Option FieldBaseline)
  /-- `ReadSourceCatalog`, `ReadQuickSelectNames`, `ReadHttpInformation`. -/
  | read (kind : ReadKind) (id : ℕ) (generation : ℕ)
deriving DecidableEq

/-- What a control carries of the state the window has. Power controls state an absolute target and carry nothing. -/
def guardIn (state : Option ReceiverState) (intent : ReceiverIntent) : Option FieldBaseline :=
  if isPower intent then none else state.map fun state => FieldBaseline.capture state intent.field

def BridgeCommand.id : BridgeCommand → ℕ
  | .select id _ | .refresh id | .control id _ _ | .read _ id _ => id

inductive ControlReport
  | finished (completed : Bool) (intent : ReceiverIntent)
  | conflict
  | failed (message : String)
deriving DecidableEq

inductive ReadResult
  | sourceCatalog (result : Except String SourceCatalogObservation)
  | quickSelectNames (result : Except String QuickSelectNames)
  | httpInformation (result : Except String HttpInformation)

def ReadResult.kind : ReadResult → ReadKind
  | .sourceCatalog _ => .sourceCatalog
  | .quickSelectNames _ => .quickSelectNames
  | .httpInformation _ => .httpInformation

inductive PortEvent
  | state (state : ReceiverState)
  | sessionEnded
  | connectFailed (message : String)
  | refreshed
  | control (report : ControlReport)
  | read (generation : ℕ) (result : ReadResult)
  | failed (message : String)

structure BridgeEvent where
  requestId : ℕ
  subscription : ℕ
  event : PortEvent

/-! ### The window -/

inductive Lifecycle
  | noReceiver
  | selected
  | connecting
  | connected (generation : ℕ)
  | reconnecting (generation : ℕ)
  | disconnected
deriving DecidableEq

structure VolumeControl where
  commandPending : Bool := false
  baselineInitialized : Bool := false
  commandRequestId : Option ℕ := none
deriving DecidableEq

structure SupplementalReads where
  httpReadInFlight : Bool := false
  httpReadAgain : Bool := false
  catalogReadInFlight : Bool := false
  namesReadInFlight : Bool := false
  catalogAutoGeneration : Option ℕ := none
deriving DecidableEq

structure Window where
  selection : Option Selection := none
  lifecycle : Lifecycle := .noReceiver
  snapshot : MainZoneSnapshot := {}
  zone2 : FieldStatus PowerState := .unavailable notQueried
  volumeSlider : ℤ := minVolume
  volume : VolumeControl := {}
  soundModeRequest : Option ℕ := none
  requestId : ℕ := 0
  generation : ℕ := 0
  quickSelect : QuickSelectSnapshot := {}
  sourceCatalog : SourceCatalog := {}
  launchReady : Bool := false
  /-- The newest receiver state the views were built from. -/
  state : Option ReceiverState := none
  /-- The `Select` request the displayed receiver was chosen with. -/
  subscription : ℕ := 0
  supplemental : SupplementalReads := {}
  closing : Bool := false
  /-- The tasks that the last message started, which hand these commands to the bridge. -/
  tasks : List BridgeCommand := []
  /-- How many connections there were before this one. Nothing reads it. -/
  connection : ℕ := 0
deriving DecidableEq

/-- What the user does, and what else is told to the window apart from the bridge's events. -/
inductive Message
  | configLoaded (current : Option Selection)
  | configLoadFailed
  | commandFailed
  | select (selection : Selection)
  | refresh
  | httpTick
  | toggleMainZonePower
  | toggleZone2Power
  | setMainZonePower (power : PowerState)
  | setZone2Power (power : PowerState)
  | mute
  | unmute
  | volumeChanged (value : ℤ)
  | commitVolume
  | adjustVolume (delta : ℤ)
  | soundModeControlTimedOut (requestId : ℕ)
  | selectSoundModeCategory (category : SoundModeCategory)
  | selectSurroundMode (mode : String)
  | openSourcePicker
  | selectInput (value : String)
  | refreshSourceCatalog
  | closeRequested
deriving DecidableEq

namespace Window

/-- `next_request` and `command`. -/
def request (window : Window) (command : ℕ → BridgeCommand) : Window :=
  { window with requestId := window.requestId + 1, tasks := window.tasks ++ [command (window.requestId + 1)] }

def sourceCatalogRead (window : Window) : Bool := (window.selection.bind Selection.model).any isX3800h

def quickSelectNamesRead (window : Window) : Bool := (window.selection.bind Selection.model).any isX3800h

/-! #### Supplemental reads -/

def invalidateSupplemental (window : Window) : Window :=
  { window with
    quickSelect := { window.quickSelect.invalidate with generation := window.generation }
    sourceCatalog := .invalidate window.generation
    snapshot := { window.snapshot with httpInformation := .invalidate window.generation } }

def requestHttpInformation (window : Window) : Window :=
  if window.selection = none then window
  else if window.snapshot.power.value? ≠ some .on then
    { window with snapshot := { window.snapshot with httpInformation := .invalidate window.generation } }
  else if window.supplemental.httpReadInFlight then
    { window with supplemental := { window.supplemental with httpReadAgain := true } }
  else
    { window with supplemental := { window.supplemental with httpReadInFlight := true } }.request
      fun id => .read .httpInformation id window.generation

def requestSourceCatalog (window : Window) : Window :=
  if window.selection = none ∨ window.supplemental.catalogReadInFlight ∨ !window.sourceCatalogRead then window
  else
    { window with supplemental := { window.supplemental with catalogReadInFlight := true } }.request
      fun id => .read .sourceCatalog id window.generation

def requestQuickSelectNames (window : Window) : Window :=
  if window.selection = none ∨ window.supplemental.namesReadInFlight ∨ !window.quickSelectNamesRead then window
  else
    { window with supplemental := { window.supplemental with namesReadInFlight := true } }.request
      fun id => .read .quickSelectNames id window.generation

/-! #### The session -/

def connectTo (window : Window) (selection : Selection) : Window :=
  match selection.receiverId with
  | none => { window with launchReady := true }
  | some receiver =>
    { window with
      subscription := window.requestId + 1
      state := none
      generation := 0
      lifecycle := .selected
      supplemental := {}
      connection := window.connection + 1 }.request fun id => .select id receiver

def resetPendingControls (window : Window) : Window :=
  { window with
    volume := { window.volume with commandPending := false, commandRequestId := none }
    soundModeRequest := none }

/-- `u64::saturating_add(1)`. -/
def nextGeneration (generation : ℕ) : ℕ := min (generation + 1) (2 ^ 64 - 1)

def connectionLost (window : Window) : Window :=
  { window with
    generation := nextGeneration window.generation
    lifecycle := .reconnecting (nextGeneration window.generation)
    snapshot := .invalidated
    zone2 := .unavailable notQueried
    connection := window.connection + 1 }.invalidateSupplemental.resetPendingControls

def isConnected (window : Window) : Bool :=
  match window.lifecycle with
  | .connected _ => true
  | _ => false

def isReconnecting (window : Window) : Bool :=
  match window.lifecycle with
  | .reconnecting _ => true
  | _ => false

/-- The connection lifecycle as a state's epoch shows it. -/
def followEpoch (window : Window) (epoch : Option Epoch) : Window :=
  match epoch with
  | none => if window.isReconnecting then window else window.connectionLost
  | some epoch =>
    -- a disconnect and the reconnect after it can arrive as one step to a higher epoch
    let reconnected := window.isReconnecting ||
      (window.isConnected && decide (window.generation ≠ 0) && decide (window.generation < epoch))
    let lost := if reconnected && window.isConnected then window.connectionLost else window
    if !window.isConnected || reconnected then
      { lost with generation := epoch, lifecycle := .connected epoch }.requestQuickSelectNames
    else lost

/-- What the views are built from. -/
def showState (window : Window) (state : ReceiverState) : Window :=
  let projected := projectMainZone state
  let information :=
    if projected.power.value? = some .standby then .invalidate 0 else window.snapshot.httpInformation
  let volume := projected.volume.value?.bind fun volume =>
    if window.snapshot.volume.value? ≠ some volume ∨ !window.volume.baselineInitialized then some volume else none
  { window with
    snapshot := { projected with httpInformation := information }
    zone2 := projectZone2 state
    volumeSlider := volume.getD window.volumeSlider
    volume := { window.volume with baselineInitialized := window.volume.baselineInitialized || volume.isSome }
    state := some state
    launchReady := window.launchReady || (window.selection.isSome && window.isConnected) }

/-- The reads that follow a change of power, input or sound mode. -/
def readChanged (window : Window) (previous : MainZoneSnapshot) : Window :=
  let poweredOn := window.snapshot.power.value? = some .on ∧ previous.power.value? ≠ some .on
  let inputChanged := window.snapshot.input.value?.isSome ∧ window.snapshot.input.value? ≠ previous.input.value?
  let modeChanged :=
    window.snapshot.surroundMode.value?.isSome ∧ window.snapshot.surroundMode.value? ≠ previous.surroundMode.value?
  if poweredOn ∨ inputChanged ∨ modeChanged then window.requestHttpInformation else window

/-- The source catalog is read once per connection. -/
def readCatalogOnce (window : Window) : Window :=
  if window.launchReady ∧ window.sourceCatalogRead ∧
      (window.sourceCatalog.freshness = .unknown ∨ window.sourceCatalog.freshness = .invalidated) ∧
      window.snapshot.power.value?.isSome ∧ window.supplemental.catalogAutoGeneration ≠ some window.generation then
    { window with
      supplemental := { window.supplemental with catalogAutoGeneration := some window.generation } }.requestSourceCatalog
  else window

def applyState (window : Window) (state : ReceiverState) : Window :=
  let followed := window.followEpoch state.epoch
  ((followed.showState state).readChanged followed.snapshot).readCatalogOnce

/-- A control's end is terminal for the command that asked for it. -/
def endPending (window : Window) (requestId : ℕ) : Window :=
  { window with
    volume :=
      if window.volume.commandRequestId = some requestId then
        { window.volume with commandPending := false, commandRequestId := none }
      else window.volume
    soundModeRequest := if window.soundModeRequest = some requestId then none else window.soundModeRequest }

def onControl (window : Window) (requestId : ℕ) (report : ControlReport) : Window :=
  match report with
  | .finished true intent =>
    if HttpInformation.intentMayHaveChanged intent then (window.endPending requestId).requestHttpInformation
    else window.endPending requestId
  | _ => window.endPending requestId

def onRead (window : Window) (generation : ℕ) : ReadResult → Window
  | .sourceCatalog result =>
    let window := { window with supplemental := { window.supplemental with catalogReadInFlight := false } }
    if generation = window.generation then
      { window with sourceCatalog := window.sourceCatalog.mergeRefresh generation result }
    else window
  | .quickSelectNames result =>
    let window := { window with supplemental := { window.supplemental with namesReadInFlight := false } }
    if generation = window.generation then
      match result with
      | .ok names => { window with quickSelect := window.quickSelect.applyNames names generation }
      | .error _ => window
    else window
  | .httpInformation result =>
    let again := window.supplemental.httpReadAgain
    let window :=
      { window with supplemental := { window.supplemental with httpReadInFlight := false, httpReadAgain := false } }
    let window :=
      if generation = window.generation then
        { window with
          snapshot := { window.snapshot with
            httpInformation := window.snapshot.httpInformation.mergeRefresh generation result } }
      else window
    if again then window.requestHttpInformation else window

def connectFailed (window : Window) : Window :=
  { { window with
      lifecycle := .disconnected
      state := none
      snapshot := .invalidated
      zone2 := .unavailable notQueried
      connection := window.connection + 1 }.invalidateSupplemental.resetPendingControls with
    launchReady := true }

def onBridge (window : Window) (event : BridgeEvent) : Window :=
  -- a receiver the user has since left no longer speaks for this window
  if event.subscription ≠ window.subscription ∨ window.closing then window
  else
    match event.event with
    | .state state => window.applyState state
    | .sessionEnded => window.connectionLost
    | .connectFailed _ => window.connectFailed
    | .refreshed => window
    | .control report => window.onControl event.requestId report
    | .read generation result => window.onRead generation result
    | .failed _ => window.resetPendingControls

/-- The number a state's epoch gives the window, and whether it ends the connection before it. -/
def numberOf (window : Window) : Option Epoch → ℕ × Bool
  | none => if window.isReconnecting then (window.generation, false) else (nextGeneration window.generation, true)
  | some epoch =>
    if window.isConnected then
      if window.generation ≠ 0 ∧ window.generation < epoch then (epoch, true) else (window.generation, false)
    else (epoch, false)

/-- The number the window goes on with after an event, and whether a connection ended with it. -/
def nextNumber (window : Window) : PortEvent → ℕ × Bool
  | .state state => window.numberOf state.epoch
  | .sessionEnded => (nextGeneration window.generation, true)
  | .connectFailed _ => (window.generation, true)
  | _ => (window.generation, false)

/-! #### Controls -/

/-- `guard_for`. -/
def guardFor (window : Window) (intent : ReceiverIntent) : Option FieldBaseline := guardIn window.state intent

/-- `control` and `submit`. -/
def control (window : Window) (intent : ReceiverIntent) : Window :=
  window.request fun id => .control id intent (window.guardFor intent)

def controlSoundMode (window : Window) (intent : SoundModeIntent) : Window :=
  { window with soundModeRequest := some (window.requestId + 1) }.control (.soundMode intent)

def submitVolume (window : Window) (level : ℤ) : Window :=
  { window with
    volume := { window.volume with commandPending := true, commandRequestId := some (window.requestId + 1) } }.control
    (.volume (masterVolume level))

def volumeIsInteractive (window : Window) : Bool :=
  window.selection.isSome && window.snapshot.volume.value?.isSome && !window.volume.commandPending

def commitVolume (window : Window) : Window :=
  if window.volumeIsInteractive then
    match volumeLevelForSlider window.volumeSlider with
    | .ok level => window.submitVolume level
    | .error _ => window
  else window

def adjustVolume (window : Window) (delta : ℤ) : Window :=
  if window.selection = none ∨ window.volume.commandPending then window
  else if !window.volume.baselineInitialized then
    -- the first press establishes a safe minimum
    { window with
      volumeSlider := minVolume
      volume := { window.volume with baselineInitialized := true } }.submitVolume minVolume
  else
    let target := max minVolume (min maxVolume (window.volumeSlider + delta))
    if target = window.volumeSlider then window
    else
      match volumeLevelForSlider target with
      | .ok level => { window with volumeSlider := target }.submitVolume level
      | .error _ => { window with volumeSlider := target }

def recallIntent : SoundModeCategory → SoundModeIntent
  | .movie => .recallMovie
  | .music => .recallMusic
  | .game => .recallGame
  | .pure => .pureDirect

def zonePower : PowerState → ZonePower
  | .on => .on
  | .standby => .off

def PowerState.toggled : PowerState → PowerState
  | .on => .standby
  | .standby => .on

/-! #### The reducer -/

def chosen (window : Window) (selection : Selection) : Window :=
  { window with
    selection := some selection
    snapshot := .invalidated
    volumeSlider := minVolume
    volume := { window.volume with baselineInitialized := false }
    zone2 := .unavailable notQueried }.invalidateSupplemental.resetPendingControls

/-- `select`. -/
def choose (window : Window) (selection : Selection) : Window := (window.chosen selection).connectTo selection

def configLoaded (window : Window) (current : Option Selection) : Window :=
  let window :=
    match current with
    | some selection => { window with selection := some selection }
    | none => { window with launchReady := true }
  match window.selection with
  | some selection => window.connectTo selection
  | none => window

def update (window : Window) : Message → Window
  | .configLoaded current => window.configLoaded current
  | .configLoadFailed => { window with launchReady := true }
  | .commandFailed => window.resetPendingControls
  | .select selection => window.choose selection
  | .refresh =>
    { window with
      lifecycle := if window.lifecycle = Lifecycle.disconnected then .connecting else window.lifecycle }.request .refresh
  | .httpTick => if window.state.isSome ∧ window.isConnected then window.requestHttpInformation else window
  | .toggleMainZonePower =>
    window.snapshot.power.value?.elim window fun power =>
      window.control (.mainZonePower (zonePower (PowerState.toggled power)))
  | .toggleZone2Power =>
    window.zone2.value?.elim window fun power => window.control (.zone2Power (zonePower (PowerState.toggled power)))
  | .setMainZonePower power => window.control (.mainZonePower (zonePower power))
  | .setZone2Power power => window.control (.zone2Power (zonePower power))
  | .mute => window.control (.mute .on)
  | .unmute => window.control (.mute .off)
  | .volumeChanged value =>
    if window.volumeIsInteractive then { window with volumeSlider := max minVolume (min maxVolume value) } else window
  | .commitVolume => window.commitVolume
  | .adjustVolume delta => window.adjustVolume delta
  | .soundModeControlTimedOut requestId =>
    if window.soundModeRequest = some requestId then { window with soundModeRequest := none } else window
  | .selectSoundModeCategory category =>
    if window.soundModeRequest.isSome ∨ category = .pure then window
    else window.controlSoundMode (recallIntent category)
  | .selectSurroundMode mode =>
    if window.soundModeRequest.isSome then window
    else (nonBlank mode).elim window fun mode => window.controlSoundMode (.select mode)
  | .openSourcePicker =>
    if window.sourceCatalogRead ∧
        (window.sourceCatalog.freshness = .unknown ∨ window.sourceCatalog.freshness = .invalidated) then
      window.requestSourceCatalog
    else window
  | .selectInput value =>
    if window.sourceCatalogRead ∧ value ∈ x3800hInputs then
      match SourceId.new value with
      | .ok source => window.control (.source source)
      | .error _ => window
    else window
  | .refreshSourceCatalog => window.requestSourceCatalog
  | .closeRequested => { window with closing := true }

end Window

/-! ### What an update does -/

section Update
variable {P Q : BridgeCommand → Prop} {window window' window'' : Window}

/-- The update started commands of the kind `P`, each under a new request number. -/
structure Asks (P : BridgeCommand → Prop) (window window' : Window) : Prop where
  requestId : window.requestId ≤ window'.requestId
  tasks : ∃ started, window'.tasks = window.tasks ++ started ∧ (started.map BridgeCommand.id).Nodup ∧
    ∀ command ∈ started, window.requestId < command.id ∧ command.id ≤ window'.requestId ∧ P command

theorem Asks.same (hid : window'.requestId = window.requestId) (htasks : window'.tasks = window.tasks) :
    Asks P window window' :=
  ⟨hid.ge, [], by rw [htasks, List.append_nil], List.nodup_nil, fun _ h => absurd h List.not_mem_nil⟩

theorem Asks.mono (h : Asks P window window') (hPQ : ∀ command, P command → Q command) : Asks Q window window' := by
  obtain ⟨started, htasks, hnodup, hstarted⟩ := h.tasks
  refine ⟨h.requestId, started, htasks, hnodup, fun command hcommand => ?_⟩
  obtain ⟨hlt, hle, hP⟩ := hstarted command hcommand
  exact ⟨hlt, hle, hPQ command hP⟩

theorem Asks.trans (h : Asks P window window') (h' : Asks P window' window'') : Asks P window window'' := by
  obtain ⟨started, htasks, hnodup, hstarted⟩ := h.tasks
  obtain ⟨started', htasks', hnodup', hstarted'⟩ := h'.tasks
  refine ⟨h.requestId.trans h'.requestId, started ++ started', ?_, ?_, fun command hcommand => ?_⟩
  · rw [htasks', htasks, List.append_assoc]
  · rw [List.map_append]
    refine List.nodup_append.mpr ⟨hnodup, hnodup', fun id hid id' hid' heq => ?_⟩
    -- the later numbers are larger
    obtain ⟨command, hcommand, rfl⟩ := List.mem_map.mp hid
    obtain ⟨command', hcommand', rfl⟩ := List.mem_map.mp hid'
    have hle := (hstarted command hcommand).2.1
    have hlt := (hstarted' command' hcommand').1
    omega
  · obtain hcommand | hcommand := List.mem_append.mp hcommand
    · obtain ⟨hlt, hle, hP⟩ := hstarted command hcommand
      exact ⟨hlt, hle.trans h'.requestId, hP⟩
    · obtain ⟨hlt, hle, hP⟩ := hstarted' command hcommand
      exact ⟨h.requestId.trans_lt hlt, hle, hP⟩

theorem Asks.request {command : ℕ → BridgeCommand} (hid : (command (window.requestId + 1)).id = window.requestId + 1)
    (hP : P (command (window.requestId + 1))) : Asks P window (window.request command) := by
  refine ⟨Nat.le_succ _, [command (window.requestId + 1)], rfl, List.nodup_singleton _, fun other hother => ?_⟩
  obtain rfl := List.mem_singleton.mp hother
  rw [hid]
  exact ⟨Nat.lt_succ_self _, le_rfl, hP⟩

/-- What tells one connection from another is the same. -/
structure Same (window window' : Window) : Prop where
  subscription : window'.subscription = window.subscription
  generation : window'.generation = window.generation
  connection : window'.connection = window.connection
  closing : window'.closing = window.closing
  state : window'.state = window.state

theorem Same.refl : Same window window := ⟨rfl, rfl, rfl, rfl, rfl⟩

theorem Same.trans (h : Same window window') (h' : Same window' window'') : Same window window'' :=
  ⟨h'.subscription.trans h.subscription, h'.generation.trans h.generation, h'.connection.trans h.connection,
    h'.closing.trans h.closing, h'.state.trans h.state⟩

/-- The update starts reads, and nothing else that matters. -/
structure Reads (window window' : Window) : Prop extends Same window window' where
  asks : Asks (fun command => ∃ kind id, command = .read kind id window.generation) window window'

theorem Reads.same (h : Same window window') (hid : window'.requestId = window.requestId)
    (htasks : window'.tasks = window.tasks) : Reads window window' := ⟨h, .same hid htasks⟩

theorem Reads.refl : Reads window window := .same .refl rfl rfl

theorem Reads.trans (h : Reads window window') (h' : Reads window' window'') : Reads window window'' := by
  refine ⟨h.toSame.trans h'.toSame, h.asks.trans ?_⟩
  rw [← h.generation]
  exact h'.asks

theorem Reads.after (h : Reads window' window'') (hsame : Same window window')
    (hid : window'.requestId = window.requestId) (htasks : window'.tasks = window.tasks) : Reads window window'' :=
  (Reads.same hsame hid htasks).trans h

theorem Reads.request (kind : ReadKind) : Reads window (window.request fun id => .read kind id window.generation) :=
  ⟨⟨rfl, rfl, rfl, rfl, rfl⟩, .request rfl ⟨kind, _, rfl⟩⟩

namespace Window

theorem requestHttpInformation_reads : Reads window window.requestHttpInformation := by
  unfold requestHttpInformation
  split_ifs
  · exact .refl
  · exact .same ⟨rfl, rfl, rfl, rfl, rfl⟩ rfl rfl
  · exact .same ⟨rfl, rfl, rfl, rfl, rfl⟩ rfl rfl
  · exact (Reads.request .httpInformation).after ⟨rfl, rfl, rfl, rfl, rfl⟩ rfl rfl

theorem requestSourceCatalog_reads : Reads window window.requestSourceCatalog := by
  unfold requestSourceCatalog
  split_ifs
  · exact .refl
  · exact (Reads.request .sourceCatalog).after ⟨rfl, rfl, rfl, rfl, rfl⟩ rfl rfl

theorem requestQuickSelectNames_reads : Reads window window.requestQuickSelectNames := by
  unfold requestQuickSelectNames
  split_ifs
  · exact .refl
  · exact (Reads.request .quickSelectNames).after ⟨rfl, rfl, rfl, rfl, rfl⟩ rfl rfl

variable (window) in
theorem readChanged_reads (previous : MainZoneSnapshot) : Reads window (window.readChanged previous) := by
  unfold readChanged
  dsimp only
  split_ifs
  · exact requestHttpInformation_reads
  · exact .refl

theorem readCatalogOnce_reads : Reads window window.readCatalogOnce := by
  unfold readCatalogOnce
  split_ifs
  · exact requestSourceCatalog_reads.after ⟨rfl, rfl, rfl, rfl, rfl⟩ rfl rfl
  · exact .refl

theorem resetPendingControls_reads : Reads window window.resetPendingControls := .same ⟨rfl, rfl, rfl, rfl, rfl⟩ rfl rfl

theorem onControl_reads (requestId : ℕ) (report : ControlReport) : Reads window (window.onControl requestId report) := by
  have hended : Reads window (window.endPending requestId) := .same ⟨rfl, rfl, rfl, rfl, rfl⟩ rfl rfl
  unfold onControl
  split
  · split_ifs
    · exact hended.trans requestHttpInformation_reads
    · exact hended
  · exact hended

theorem onRead_reads (generation : ℕ) (result : ReadResult) : Reads window (window.onRead generation result) := by
  unfold onRead
  cases result with
  | sourceCatalog result =>
    dsimp only
    split_ifs <;> exact .same ⟨rfl, rfl, rfl, rfl, rfl⟩ rfl rfl
  | quickSelectNames result =>
    dsimp only
    split_ifs
    · cases result <;> exact .same ⟨rfl, rfl, rfl, rfl, rfl⟩ rfl rfl
    · exact .same ⟨rfl, rfl, rfl, rfl, rfl⟩ rfl rfl
  | httpInformation result =>
    dsimp only
    split_ifs
    · exact requestHttpInformation_reads.after ⟨rfl, rfl, rfl, rfl, rfl⟩ rfl rfl
    · exact requestHttpInformation_reads.after ⟨rfl, rfl, rfl, rfl, rfl⟩ rfl rfl
    · exact .same ⟨rfl, rfl, rfl, rfl, rfl⟩ rfl rfl
    · exact .same ⟨rfl, rfl, rfl, rfl, rfl⟩ rfl rfl

end Window

/-- The window after the number of its connection may have changed. -/
structure Follows (number : ℕ × Bool) (window window' : Window) : Prop where
  subscription : window'.subscription = window.subscription
  closing : window'.closing = window.closing
  generation : window'.generation = number.1
  connection : window'.connection = window.connection + number.2.toNat
  asks : Asks (fun command => ∃ kind id, command = .read kind id number.1) window window'

theorem Reads.follows (h : Reads window window') : Follows (window.generation, false) window window' :=
  ⟨h.subscription, h.closing, h.generation, h.connection, h.asks⟩

theorem Follows.trans {number : ℕ × Bool} (h : Follows number window window') (h' : Reads window' window'') :
    Follows number window window'' := by
  refine ⟨h'.subscription.trans h.subscription, h'.closing.trans h.closing, h'.generation.trans h.generation,
    h'.connection.trans h.connection, h.asks.trans ?_⟩
  rw [← h.generation]
  exact h'.asks

namespace Window

theorem connectionLost_follows : Follows (nextGeneration window.generation, true) window window.connectionLost :=
  ⟨rfl, rfl, rfl, rfl, .same rfl rfl⟩

theorem connectFailed_follows : Follows (window.generation, true) window window.connectFailed :=
  ⟨rfl, rfl, rfl, rfl, .same rfl rfl⟩

theorem isReconnecting_of_isConnected (h : window.isConnected = true) : window.isReconnecting = false := by
  unfold isConnected at h
  unfold isReconnecting
  cases hlifecycle : window.lifecycle with
  | reconnecting =>
    rw [hlifecycle] at h
    cases h
  | _ => rfl

theorem begin_follows {epoch : Epoch} {ended : Bool} (hsubscription : window'.subscription = window.subscription)
    (hclosing : window'.closing = window.closing) (hconnection : window'.connection = window.connection + ended.toNat)
    (hid : window'.requestId = window.requestId) (htasks : window'.tasks = window.tasks) :
    Follows (epoch, ended) window
      { window' with generation := epoch, lifecycle := .connected epoch }.requestQuickSelectNames := by
  have hbegun : Follows (epoch, ended) window { window' with generation := epoch, lifecycle := .connected epoch } :=
    ⟨hsubscription, hclosing, rfl, hconnection, .same hid htasks⟩
  exact hbegun.trans requestQuickSelectNames_reads

variable (window) in
theorem followEpoch_follows (epoch : Option Epoch) :
    Follows (window.numberOf epoch) window (window.followEpoch epoch) := by
  unfold followEpoch numberOf
  cases epoch with
  | none =>
    dsimp only
    by_cases hreconnecting : window.isReconnecting = true
    · rw [if_pos hreconnecting, if_pos hreconnecting]
      exact Reads.refl.follows
    · rw [if_neg hreconnecting, if_neg hreconnecting]
      exact connectionLost_follows
  | some epoch =>
    dsimp only
    by_cases hconnected : window.isConnected = true
    · rw [if_pos hconnected, isReconnecting_of_isConnected hconnected, hconnected]
      by_cases hhigher : window.generation ≠ 0 ∧ window.generation < epoch
      · rw [if_pos hhigher, decide_eq_true hhigher.1, decide_eq_true hhigher.2]
        exact begin_follows rfl rfl rfl rfl rfl
      · rw [if_neg hhigher]
        have hsame : (decide (window.generation ≠ 0) && decide (window.generation < epoch)) = false := by
          simpa using hhigher
        rw [Bool.true_and, hsame]
        exact Reads.refl.follows
    · rw [if_neg hconnected, eq_false_of_ne_true hconnected, Bool.and_false, if_neg Bool.false_ne_true]
      exact begin_follows rfl rfl rfl rfl rfl

/-- The state that the window has after an event. -/
def stateAfter (window : Window) : PortEvent → Option ReceiverState
  | .state state => some state
  | .connectFailed _ => none
  | _ => window.state

/-- What a window does with an event that it takes in. -/
structure Takes (event : PortEvent) (window window' : Window) : Prop
    extends Follows (window.nextNumber event) window window' where
  state : window'.state = window.stateAfter event

theorem applyState_takes (state : ReceiverState) : Takes (.state state) window (window.applyState state) := by
  have hfollows := followEpoch_follows window state.epoch
  have hshown : Follows (window.numberOf state.epoch) window ((window.followEpoch state.epoch).showState state) := by
    obtain ⟨started, htasks, hnodup, hstarted⟩ := hfollows.asks.tasks
    exact ⟨hfollows.subscription, hfollows.closing, hfollows.generation, hfollows.connection,
      hfollows.asks.requestId, started, htasks, hnodup, hstarted⟩
  have hreads := (readChanged_reads ((window.followEpoch state.epoch).showState state)
    (window.followEpoch state.epoch).snapshot).trans readCatalogOnce_reads
  exact ⟨hshown.trans hreads, hreads.state⟩

/-- **An event that speaks for the window's selection.** -/
theorem onBridge_takes {event : BridgeEvent} (hsubscription : event.subscription = window.subscription)
    (hclosing : window.closing = false) : Takes event.event window (window.onBridge event) := by
  unfold onBridge
  rw [if_neg (by simp [hsubscription, hclosing])]
  cases event.event with
  | state state => exact applyState_takes state
  | sessionEnded => exact ⟨connectionLost_follows, rfl⟩
  | connectFailed message => exact ⟨connectFailed_follows, rfl⟩
  | refreshed => exact ⟨Reads.refl.follows, rfl⟩
  | control report => exact ⟨(onControl_reads event.requestId report).follows, (onControl_reads event.requestId report).state⟩
  | read generation result => exact ⟨(onRead_reads generation result).follows, (onRead_reads generation result).state⟩
  | failed message => exact ⟨resetPendingControls_reads.follows, rfl⟩

theorem onBridge_of_left {event : BridgeEvent} (h : event.subscription ≠ window.subscription ∨ window.closing = true) :
    window.onBridge event = window := by
  unfold onBridge
  rw [if_pos h]

end Window

/-- What the user's messages start: a control carries what the window shows of its field. -/
def Window.Starts (window : Window) : BridgeCommand → Prop
  | .select _ _ => False
  | .refresh _ => True
  | .control _ intent guard => guard = window.guardFor intent
  | .read _ _ generation => generation = window.generation

/-- A message that does not choose a receiver. -/
structure Quiet (window window' : Window) : Prop where
  subscription : window'.subscription = window.subscription
  generation : window'.generation = window.generation
  connection : window'.connection = window.connection
  state : window'.state = window.state
  asks : Asks window.Starts window window'

/-- The window chooses a receiver. -/
structure Chooses (window window' : Window) : Prop where
  subscription : window'.subscription = window.requestId + 1
  requestId : window'.requestId = window.requestId + 1
  generation : window'.generation = 0
  connection : window'.connection = window.connection + 1
  state : window'.state = none
  tasks : ∃ receiver, window'.tasks = window.tasks ++ [.select (window.requestId + 1) receiver]

theorem Reads.quiet (h : Reads window window') : Quiet window window' := by
  refine ⟨h.subscription, h.generation, h.connection, h.state, h.asks.mono ?_⟩
  rintro command ⟨kind, id, rfl⟩
  rfl

theorem Quiet.refl : Quiet window window := Reads.refl.quiet

theorem Quiet.same (h : Same window window') (hid : window'.requestId = window.requestId)
    (htasks : window'.tasks = window.tasks) : Quiet window window' := (Reads.same h hid htasks).quiet

theorem Quiet.after (h : Quiet window' window'') (hsame : Same window window')
    (hid : window'.requestId = window.requestId) (htasks : window'.tasks = window.tasks) : Quiet window window'' := by
  refine ⟨h.subscription.trans hsame.subscription, h.generation.trans hsame.generation,
    h.connection.trans hsame.connection, h.state.trans hsame.state, (Asks.same hid htasks).trans (h.asks.mono ?_)⟩
  intro command hcommand
  unfold Window.Starts Window.guardFor at *
  rw [← hsame.state, ← hsame.generation]
  exact hcommand

namespace Window

theorem control_quiet (intent : ReceiverIntent) : Quiet window (window.control intent) :=
  ⟨rfl, rfl, rfl, rfl, .request rfl rfl⟩

theorem refresh_quiet : Quiet window (window.request .refresh) := ⟨rfl, rfl, rfl, rfl, .request rfl trivial⟩

theorem controlSoundMode_quiet (intent : SoundModeIntent) : Quiet window (window.controlSoundMode intent) :=
  (control_quiet _).after ⟨rfl, rfl, rfl, rfl, rfl⟩ rfl rfl

theorem submitVolume_quiet (level : ℤ) : Quiet window (window.submitVolume level) :=
  (control_quiet _).after ⟨rfl, rfl, rfl, rfl, rfl⟩ rfl rfl

theorem commitVolume_quiet : Quiet window window.commitVolume := by
  unfold commitVolume
  split_ifs
  · split
    · exact submitVolume_quiet _
    · exact .refl
  · exact .refl

theorem adjustVolume_quiet (delta : ℤ) : Quiet window (window.adjustVolume delta) := by
  unfold adjustVolume
  dsimp only
  split_ifs
  · exact .refl
  · exact (submitVolume_quiet _).after ⟨rfl, rfl, rfl, rfl, rfl⟩ rfl rfl
  · exact .refl
  · split
    · exact (submitVolume_quiet _).after ⟨rfl, rfl, rfl, rfl, rfl⟩ rfl rfl
    · exact .same ⟨rfl, rfl, rfl, rfl, rfl⟩ rfl rfl

theorem toggle_quiet (power : Option PowerState) (intent : PowerState → ReceiverIntent) :
    Quiet window (power.elim window fun power => window.control (intent power)) := by
  cases power with
  | none => exact .refl
  | some power => exact control_quiet _

/-- The window before `connectTo` differs in what it shows only. -/
theorem connectTo_spec (selection : Selection) (hsame : Same window window') (hid : window'.requestId = window.requestId)
    (htasks : window'.tasks = window.tasks) :
    Quiet window (window'.connectTo selection) ∨ Chooses window (window'.connectTo selection) := by
  unfold connectTo
  cases selection.receiverId with
  | none =>
    exact .inl (.same ⟨hsame.subscription, hsame.generation, hsame.connection, hsame.closing, hsame.state⟩ hid htasks)
  | some receiver =>
    refine .inr ⟨?_, ?_, rfl, ?_, rfl, receiver, ?_⟩
    · exact congrArg (· + 1) hid
    · exact congrArg (· + 1) hid
    · exact congrArg (· + 1) hsame.connection
    · show window'.tasks ++ [.select (window'.requestId + 1) receiver] = _
      rw [htasks, hid]

theorem configLoaded_spec (current : Option Selection) :
    Quiet window (window.configLoaded current) ∨ Chooses window (window.configLoaded current) := by
  unfold configLoaded
  cases current with
  | some selection => exact connectTo_spec selection ⟨rfl, rfl, rfl, rfl, rfl⟩ rfl rfl
  | none =>
    dsimp only
    cases window.selection with
    | some selection => exact connectTo_spec selection ⟨rfl, rfl, rfl, rfl, rfl⟩ rfl rfl
    | none => exact .inl (.same ⟨rfl, rfl, rfl, rfl, rfl⟩ rfl rfl)

/-- **A message of the user's.** -/
theorem update_spec (message : Message) :
    Quiet window (window.update message) ∨ Chooses window (window.update message) := by
  unfold update
  cases message with
  | configLoaded current => exact configLoaded_spec current
  | configLoadFailed => exact .inl (.same ⟨rfl, rfl, rfl, rfl, rfl⟩ rfl rfl)
  | commandFailed => exact .inl resetPendingControls_reads.quiet
  | select selection => exact connectTo_spec selection ⟨rfl, rfl, rfl, rfl, rfl⟩ rfl rfl
  | refresh => exact .inl (refresh_quiet.after ⟨rfl, rfl, rfl, rfl, rfl⟩ rfl rfl)
  | httpTick =>
    dsimp only
    split_ifs
    · exact .inl requestHttpInformation_reads.quiet
    · exact .inl .refl
  | toggleMainZonePower => exact .inl (toggle_quiet _ _)
  | toggleZone2Power => exact .inl (toggle_quiet _ _)
  | setMainZonePower power => exact .inl (control_quiet _)
  | setZone2Power power => exact .inl (control_quiet _)
  | mute => exact .inl (control_quiet _)
  | unmute => exact .inl (control_quiet _)
  | volumeChanged value =>
    dsimp only
    split_ifs
    · exact .inl (.same ⟨rfl, rfl, rfl, rfl, rfl⟩ rfl rfl)
    · exact .inl .refl
  | commitVolume => exact .inl commitVolume_quiet
  | adjustVolume delta => exact .inl (adjustVolume_quiet delta)
  | soundModeControlTimedOut requestId =>
    dsimp only
    split_ifs
    · exact .inl (.same ⟨rfl, rfl, rfl, rfl, rfl⟩ rfl rfl)
    · exact .inl .refl
  | selectSoundModeCategory category =>
    dsimp only
    split_ifs
    · exact .inl .refl
    · exact .inl (controlSoundMode_quiet _)
  | selectSurroundMode mode =>
    dsimp only
    split_ifs
    · exact .inl .refl
    · cases nonBlank mode with
      | none => exact .inl .refl
      | some mode => exact .inl (controlSoundMode_quiet _)
  | openSourcePicker =>
    dsimp only
    split_ifs
    · exact .inl requestSourceCatalog_reads.quiet
    · exact .inl .refl
  | selectInput value =>
    dsimp only
    split_ifs
    · cases SourceId.new value with
      | ok source => exact .inl (control_quiet _)
      | error message => exact .inl .refl
    · exact .inl .refl
  | refreshSourceCatalog => exact .inl requestSourceCatalog_reads.quiet
  | closeRequested => exact .inl ⟨rfl, rfl, rfl, rfl, .same rfl rfl⟩

end Window

end Update

end DenonAvr.Gui
