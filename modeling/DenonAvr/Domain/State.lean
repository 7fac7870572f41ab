import DenonAvr.Domain.Receiver

/-!
# The canonical receiver state

`FieldState`, `ReceiverState` and the transitions a session applies to them: `reduce`,
`markDisconnected`, `establishEpoch`, `expireFields`, `markQueryFailed` and the synchronization marks.
The source repeats each of the last four for seven fields of different types; here a transition of one
field is a `FieldUpdate`, the same at every type, and `mapField` / `mapFields` apply it.

`ReceiverState.fieldAt` reads the values of all seven fields as frames. What the session layer proves about
freshness, connection and origin (`Current`, the epoch and the value of the last good observation) is a statement
about `state.fieldAt field`, so one lemma serves all seven fields.
-/

namespace DenonAvr.Domain

/-! ### One field -/

inductive ObservationOrigin
  | receiverFrame
  | receiverFrameInQueryWindow (query : ℕ)
deriving DecidableEq, Repr

structure Observation (α : Type) where
  receiver : ReceiverId
  epoch : Epoch
  frameSeq : FrameSeq
  observedAt : MonotonicMillis
  origin : ObservationOrigin
  value : α
deriving DecidableEq

inductive StaleReason
  | disconnected | queryFailed | expired | receiverChanged
deriving DecidableEq, Repr

inductive FieldValidity
  | unknown
  | current (validUntil : MonotonicMillis)
  | stale (reason : StaleReason)
  | unavailable (evidence : String)
deriving DecidableEq, Repr

inductive SyncCause
  | initial | localControl | receiverEvent | periodicSweep | manualRefresh
deriving DecidableEq, Repr

inductive FieldSynchronization
  | notStarted
  | converging (cycle : SyncCycleId) (cause : SyncCause) (reconcileBy : MonotonicMillis)
  | settled (cycle : SyncCycleId) (observedAt : MonotonicMillis)
  | suspended (reason : String)
deriving DecidableEq, Repr

structure FieldState (α : Type) where
  lastGood : Option (Observation α) := none
  validity : FieldValidity := .unknown
  synchronization : FieldSynchronization := .notStarted
  lastIssue : Option String := none
deriving DecidableEq

namespace FieldState

variable {α β : Type}

/-- `validity` is `Current`: the field may be presented as usable. -/
def Current (field : FieldState α) : Prop := ∃ validUntil, field.validity = .current validUntil

instance (field : FieldState α) : Decidable field.Current :=
  match h : field.validity with
  | .current validUntil => .isTrue ⟨validUntil, h⟩
  | .unknown => .isFalse (by simp [Current, h])
  | .stale _ => .isFalse (by simp [Current, h])
  | .unavailable _ => .isFalse (by simp [Current, h])

def observe (field : FieldState α) (observation : Observation α) (validUntil : MonotonicMillis) :
    FieldState α :=
  { field with lastGood := some observation, validity := .current validUntil, lastIssue := none }

def stale (field : FieldState α) (reason : StaleReason) (message : String) : FieldState α :=
  { field with validity := .stale reason, lastIssue := some message }

/-- Whether `expire_if_due` expires the field. -/
def due (field : FieldState α) (now : MonotonicMillis) : Bool :=
  match field.validity with
  | .current validUntil => decide (validUntil ≤ now)
  | _ => false

def expireIfDue (now : MonotonicMillis) (field : FieldState α) : FieldState α :=
  if field.due now then field.stale .expired "receiver observation validity expired" else field

def staleIfObserved (field : FieldState α) : FieldState α :=
  if field.lastGood.isSome then field.stale .disconnected "receiver session disconnected" else field

def markFailed (message : String) (field : FieldState α) : FieldState α :=
  if field.lastGood.isSome then field.stale .queryFailed message
  else { field with lastIssue := some message }

def setSynchronization (value : FieldSynchronization) (field : FieldState α) : FieldState α :=
  { field with synchronization := value }

/-- The same field with its value read as another type's. -/
def map (as : α → β) (field : FieldState α) : FieldState β where
  lastGood := field.lastGood.map fun o => { o with value := as o.value }
  validity := field.validity
  synchronization := field.synchronization
  lastIssue := field.lastIssue

end FieldState

/-! ### The receiver -/

structure MainZoneState where
  power : FieldState ZonePower := {}
  source : FieldState SourceId := {}
  volume : FieldState MasterVolume := {}
  mute : FieldState MuteState := {}
  soundMode : FieldState SoundModeStatus := {}
deriving DecidableEq

structure ReceiverState where
  receiver : ReceiverId
  revision : StateRevision := 0
  epoch : Option Epoch := none
  systemPower : FieldState SystemPower := {}
  mainZone : MainZoneState := {}
  zone2Power : FieldState ZonePower := {}
  diagnostics : List String := []
deriving DecidableEq

/-- A transition of one field that does not depend on the type of its value. -/
abbrev FieldUpdate := ∀ {α : Type}, FieldState α → FieldState α

namespace ReceiverState

/-- `ReceiverState::new`. -/
def new (receiver : ReceiverId) : ReceiverState := { receiver }

/-- Apply an update to every field. -/
def mapFields (state : ReceiverState) (update : FieldUpdate) : ReceiverState :=
  { state with
    systemPower := update state.systemPower
    mainZone :=
      { power := update state.mainZone.power
        source := update state.mainZone.source
        volume := update state.mainZone.volume
        mute := update state.mainZone.mute
        soundMode := update state.mainZone.soundMode }
    zone2Power := update state.zone2Power }

/-- Apply an update to one field. -/
def mapField (state : ReceiverState) (field : CoreField) (update : FieldUpdate) : ReceiverState :=
  match field with
  | .systemPower => { state with systemPower := update state.systemPower }
  | .mainZonePower => { state with mainZone.power := update state.mainZone.power }
  | .zone2Power => { state with zone2Power := update state.zone2Power }
  | .source => { state with mainZone.source := update state.mainZone.source }
  | .volume => { state with mainZone.volume := update state.mainZone.volume }
  | .mute => { state with mainZone.mute := update state.mainZone.mute }
  | .soundMode => { state with mainZone.soundMode := update state.mainZone.soundMode }

/-- `self.revision.0 = self.revision.0.saturating_add(1)`. -/
def bump (state : ReceiverState) : ReceiverState := { state with revision := state.revision + 1 }

def maxDiagnostics : ℕ := 32

def recordDiagnostic (state : ReceiverState) (frame : String) : ReceiverState :=
  let diagnostics := state.diagnostics ++ [frame]
  bump { state with diagnostics := diagnostics.drop (diagnostics.length - maxDiagnostics) }

def markDisconnected (state : ReceiverState) : ReceiverState :=
  bump { state.mapFields FieldState.staleIfObserved with epoch := none }

/-- Whether `expire_fields` expires anything. -/
def anyDue (state : ReceiverState) (now : MonotonicMillis) : Bool :=
  state.systemPower.due now || state.mainZone.power.due now || state.mainZone.source.due now ||
    state.mainZone.volume.due now || state.mainZone.mute.due now || state.mainZone.soundMode.due now ||
    state.zone2Power.due now

def expireFields (state : ReceiverState) (now : MonotonicMillis) : ReceiverState :=
  if state.anyDue now then bump (state.mapFields (FieldState.expireIfDue now)) else state

def establishEpoch (state : ReceiverState) (epoch : Epoch) : ReceiverState :=
  if state.epoch.any (epoch ≤ ·) then state else bump { state with epoch := some epoch }

def markConverging (state : ReceiverState) (field : CoreField) (cycle : SyncCycleId) (cause : SyncCause)
    (reconcileBy : MonotonicMillis) : ReceiverState :=
  bump (state.mapField field (FieldState.setSynchronization (.converging cycle cause reconcileBy)))

def markSettled (state : ReceiverState) (field : CoreField) (cycle : SyncCycleId)
    (observedAt : MonotonicMillis) : ReceiverState :=
  bump (state.mapField field (FieldState.setSynchronization (.settled cycle observedAt)))

def markQueryFailed (state : ReceiverState) (field : CoreField) (message : String) : ReceiverState :=
  bump (state.mapField field (FieldState.markFailed message))

/-- What `reduce` stamps an observation with, besides its value. -/
structure Stamp where
  receiver : ReceiverId
  epoch : Epoch
  frameSeq : FrameSeq
  observedAt : MonotonicMillis
  origin : ObservationOrigin
deriving DecidableEq

/-- The observation of `value` under a stamp. -/
def Stamp.observed {α : Type} (stamp : Stamp) (value : α) : Observation α :=
  { receiver := stamp.receiver, epoch := stamp.epoch, frameSeq := stamp.frameSeq,
    observedAt := stamp.observedAt, origin := stamp.origin, value }

/-- The field a frame speaks about, changed as the frame says. -/
def applyFrame (state : ReceiverState) (stamp : Stamp) (validUntil : MonotonicMillis) :
    CoreFrame → ReceiverState
  | .systemPower value =>
    { state with systemPower := state.systemPower.observe (stamp.observed value) validUntil }
  | .mainZonePower value =>
    { state with mainZone.power := state.mainZone.power.observe (stamp.observed value) validUntil }
  | .zone2Power value =>
    { state with zone2Power := state.zone2Power.observe (stamp.observed value) validUntil }
  | .source value =>
    { state with mainZone.source := state.mainZone.source.observe (stamp.observed value) validUntil }
  | .volume value =>
    { state with mainZone.volume := state.mainZone.volume.observe (stamp.observed value) validUntil }
  | .mute value =>
    { state with mainZone.mute := state.mainZone.mute.observe (stamp.observed value) validUntil }
  | .soundMode value =>
    { state with
      mainZone.soundMode := state.mainZone.soundMode.observe (stamp.observed value) validUntil }
  | .volumeUnavailable raw => { state with mainZone.volume.validity := .unavailable raw }

/-- Whether `reduce` accepts evidence with this stamp: it is the selected receiver's, on the current
established connection. -/
def accepts (state : ReceiverState) (stamp : Stamp) : Bool :=
  state.receiver == stamp.receiver && state.epoch == some stamp.epoch

/-- `ReceiverState::reduce`, the pure canonical reducer. -/
def reduce (state : ReceiverState) (stamp : Stamp) (validUntil : MonotonicMillis) (frame : CoreFrame) :
    ReceiverState :=
  if state.accepts stamp then bump (state.applyFrame stamp validUntil frame) else state

/-! ### Fields of one type -/

/-- A field with its value as the frame that says it. -/
def fieldAt (state : ReceiverState) : CoreField → FieldState CoreFrame
  | .systemPower => state.systemPower.map .systemPower
  | .mainZonePower => state.mainZone.power.map .mainZonePower
  | .zone2Power => state.zone2Power.map .zone2Power
  | .source => state.mainZone.source.map .source
  | .volume => state.mainZone.volume.map .volume
  | .mute => state.mainZone.mute.map .mute
  | .soundMode => state.mainZone.soundMode.map .soundMode

section FieldAt
variable {state : ReceiverState} {f g : CoreField} {stamp : Stamp} {validUntil : MonotonicMillis}
  {frame : CoreFrame}

/-- An update that looks at nothing but whether there is a value. -/
def Natural (update : FieldUpdate) : Prop :=
  ∀ {α β : Type} (as : α → β) (field : FieldState α), (update field).map as = update (field.map as)

theorem natural_staleIfObserved : Natural FieldState.staleIfObserved := by
  intro α β as field
  cases h : field.lastGood <;> simp [FieldState.staleIfObserved, FieldState.map, FieldState.stale, h]

theorem natural_markFailed (message : String) : Natural (FieldState.markFailed message) := by
  intro α β as field
  cases h : field.lastGood <;> simp [FieldState.markFailed, FieldState.map, FieldState.stale, h]

theorem natural_setSynchronization (value : FieldSynchronization) :
    Natural (FieldState.setSynchronization value) :=
  fun _ _ => rfl

theorem natural_expireIfDue (now : MonotonicMillis) : Natural (FieldState.expireIfDue now) := by
  intro α β as field
  have hdue : (field.map as).due now = field.due now := rfl
  show (if field.due now then _ else field).map as = if (field.map as).due now then _ else field.map as
  rw [hdue]
  split_ifs <;> rfl

@[simp] theorem fieldAt_bump : state.bump.fieldAt f = state.fieldAt f := by cases f <;> rfl

@[simp] theorem fieldAt_setEpoch (epoch : Option Epoch) :
    ({ state with epoch } : ReceiverState).fieldAt f = state.fieldAt f := by
  cases f <;> rfl

@[simp] theorem fieldAt_recordDiagnostic (text : String) :
    (state.recordDiagnostic text).fieldAt f = state.fieldAt f := by
  cases f <;> rfl

theorem fieldAt_mapFields {update : FieldUpdate} (h : Natural update) :
    (state.mapFields update).fieldAt f = update (state.fieldAt f) := by
  cases f <;> exact h _ _

theorem fieldAt_mapField {update : FieldUpdate} (h : Natural update) :
    (state.mapField f update).fieldAt f = update (state.fieldAt f) := by
  cases f <;> exact h _ _

theorem fieldAt_mapField_of_ne {update : FieldUpdate} (h : g ≠ f) :
    (state.mapField f update).fieldAt g = state.fieldAt g := by
  cases f <;> cases g <;> first | rfl | exact absurd rfl h

/-- A frame touches no other field than its own. -/
theorem fieldAt_applyFrame_of_ne (h : f ≠ frame.field) :
    (state.applyFrame stamp validUntil frame).fieldAt f = state.fieldAt f := by
  cases frame <;> cases f <;> first | rfl | exact absurd rfl h

/-- Its own field it observes as it says, unless it says that there is no volume. -/
theorem fieldAt_applyFrame (state : ReceiverState) (stamp : Stamp) (validUntil : MonotonicMillis)
    (frame : CoreFrame) :
    (state.applyFrame stamp validUntil frame).fieldAt frame.field =
        (state.fieldAt frame.field).observe (stamp.observed frame) validUntil ∨
      ∃ raw, frame = .volumeUnavailable raw ∧
        (state.applyFrame stamp validUntil frame).fieldAt frame.field =
          { state.fieldAt frame.field with validity := .unavailable raw } := by
  cases frame with
  | volumeUnavailable raw => exact .inr ⟨raw, rfl, rfl⟩
  | _ => exact .inl rfl

@[simp] theorem applyFrame_epoch : (state.applyFrame stamp validUntil frame).epoch = state.epoch := by
  cases frame <;> rfl

@[simp] theorem applyFrame_receiver :
    (state.applyFrame stamp validUntil frame).receiver = state.receiver := by
  cases frame <;> rfl

@[simp] theorem mapField_epoch {update : FieldUpdate} : (state.mapField f update).epoch = state.epoch := by
  cases f <;> rfl

@[simp] theorem mapField_receiver {update : FieldUpdate} :
    (state.mapField f update).receiver = state.receiver := by
  cases f <;> rfl

@[simp] theorem reduce_epoch : (state.reduce stamp validUntil frame).epoch = state.epoch := by
  unfold reduce
  split_ifs
  · exact applyFrame_epoch
  · rfl

@[simp] theorem recordDiagnostic_epoch (text : String) : (state.recordDiagnostic text).epoch = state.epoch :=
  rfl

@[simp] theorem markDisconnected_epoch (state : ReceiverState) : state.markDisconnected.epoch = none := rfl

@[simp] theorem fieldAt_markDisconnected :
    state.markDisconnected.fieldAt f = (state.fieldAt f).staleIfObserved := by
  unfold markDisconnected
  rw [fieldAt_bump, fieldAt_setEpoch, fieldAt_mapFields natural_staleIfObserved]

@[simp] theorem fieldAt_establishEpoch (epoch : Epoch) :
    (state.establishEpoch epoch).fieldAt f = state.fieldAt f := by
  unfold establishEpoch
  split_ifs
  · rfl
  · rw [fieldAt_bump, fieldAt_setEpoch]

theorem establishEpoch_epoch_of_none (epoch : Epoch) (h : state.epoch = none) :
    (state.establishEpoch epoch).epoch = some epoch := by
  simp [establishEpoch, h, bump]

end FieldAt

end ReceiverState

end DenonAvr.Domain
