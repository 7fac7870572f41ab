import DenonAvr.Domain.Precondition

/-!
# The state on the wire

A receiver's state is served as a view. Views are generic in the text they carry: an agent's has none (`NoText`), the
operator's has the issue, the evidence and the raw text of each field (`FieldText`) and the diagnostics. A client turns a
view back into a state, with placeholders for the stamps.

Whatever text a view carries, the state that it is turned back into has the epoch, the revision and the baselines of the
original (`intoState_ofState`). The text decides only what else is kept: everything for the operator, nothing for an agent.
-/

namespace DenonAvr.ApiContract

open Domain

/-! ### Receiver ids -/

def parseReceiverId (text : String) : Except String ReceiverId :=
  if ReceiverId.isReservedName text = true then
    -- the reserved prefix ends at its colon; what follows is the host
    ReceiverId.adHoc (String.ofList ((text.toList.dropWhile (· ≠ ':')).drop 1))
  else ReceiverId.new text

/-- The id of a receiver reads back. -/
theorem parseReceiverId_value (receiver : ReceiverId) : parseReceiverId receiver.value = .ok receiver := by
  obtain ⟨value, hvalid⟩ := receiver
  unfold parseReceiverId
  dsimp only
  unfold ReceiverId.isWellFormed at hvalid
  by_cases hreserved : ReceiverId.isReservedName value = true
  · rw [if_pos hreserved] at hvalid ⊢
    obtain ⟨rest, hrest⟩ : adHocPrefix.toList <+: value.toList := List.isPrefixOf_iff_prefix.mp hreserved
    have hhost : (value.toList.dropWhile (· ≠ ':')).drop 1 = rest := by
      rw [← hrest]
      rfl
    have hplain : isPlainText (String.ofList rest) = true := by
      rw [← hrest, ← String.length_toList, List.drop_left] at hvalid
      exact hvalid
    have hvalue : adHocPrefix ++ String.ofList rest = value := by
      apply String.toList_injective
      rw [String.toList_append, String.toList_ofList, hrest]
    rw [hhost]
    unfold ReceiverId.adHoc
    rw [dif_pos hplain]
    congr
  · rw [if_neg hreserved] at hvalid ⊢
    unfold ReceiverId.new
    rw [dif_pos hvalid, dif_neg hreserved]

/-! ### Values -/

inductive SystemPowerDto
  | on | standby
deriving DecidableEq

inductive ZonePowerDto
  | on | off
deriving DecidableEq

inductive MuteDto
  | on | off
deriving DecidableEq

/-- The receiver's `minimum`, or a level in half decibels. -/
inductive VolumeDto
  | minimum
  | halfSteps (steps : ℤ)
deriving DecidableEq

structure SoundModeValueDto where
  id : String
deriving DecidableEq

def SystemPowerDto.of : SystemPower → SystemPowerDto
  | .on => .on
  | .standby => .standby

def SystemPowerDto.power : SystemPowerDto → SystemPower
  | .on => .on
  | .standby => .standby

def ZonePowerDto.of : ZonePower → ZonePowerDto
  | .on => .on
  | .off => .off

def ZonePowerDto.power : ZonePowerDto → ZonePower
  | .on => .on
  | .off => .off

def MuteDto.of : MuteState → MuteDto
  | .on => .on
  | .off => .off

def MuteDto.mute : MuteDto → MuteState
  | .on => .on
  | .off => .off

def VolumeDto.of : MasterVolume → VolumeDto
  | .minimum => .minimum
  | .dbHalfSteps steps => .halfSteps steps.val

def VolumeDto.volume : VolumeDto → Except String MasterVolume
  | .minimum => .ok .minimum
  | .halfSteps steps => MasterVolume.ofHalfSteps steps

@[simp] theorem SystemPowerDto.power_of (value : SystemPower) : (SystemPowerDto.of value).power = value := by
  cases value <;> rfl

@[simp] theorem ZonePowerDto.power_of (value : ZonePower) : (ZonePowerDto.of value).power = value := by
  cases value <;> rfl

@[simp] theorem MuteDto.mute_of (value : MuteState) : (MuteDto.of value).mute = value := by
  cases value <;> rfl

@[simp] theorem VolumeDto.volume_of (value : MasterVolume) : (VolumeDto.of value).volume = .ok value := by
  cases value with
  | minimum => rfl
  | dbHalfSteps steps => exact dif_pos steps.property

@[simp] theorem sourceId_new (source : SourceId) : SourceId.new source.value = .ok source := dif_pos source.valid

/-! ### The text of a view -/

/-- What a view adds to each field. -/
class Detail (F : Type) where
  about : {α : Type} → FieldState α → Option String → F
  issue : F → Option String := fun _ => none
  evidence : F → Option String := fun _ => none
  raw : F → Option String := fun _ => none

/-- What a view adds to the state as a whole. -/
class Extras (E : Type) where
  of : ReceiverState → E
  diagnostics : E → List String := fun _ => []

/-- Where a view has nothing to add: no field to hold a string. -/
structure NoText where
deriving DecidableEq

instance : Detail NoText where
  about _ _ := {}

instance : Extras NoText where
  of _ := {}

structure FieldText where
  /-- The message of the last failed query. -/
  issue : Option String := none
  /-- The receiver's own status text, when it reported the field unavailable. -/
  evidence : Option String := none
  /-- The receiver's own name for the value. -/
  raw : Option String := none
deriving DecidableEq

structure Diagnostics where
  diagnostics : List String := []
deriving DecidableEq

def evidenceOf : FieldValidity → Option String
  | .unavailable evidence => some evidence
  | _ => none

instance : Detail FieldText where
  about field raw := { issue := field.lastIssue, evidence := evidenceOf field.validity, raw }
  issue := FieldText.issue
  evidence := FieldText.evidence
  raw := FieldText.raw

instance : Extras Diagnostics where
  of state := ⟨state.diagnostics⟩
  diagnostics := Diagnostics.diagnostics

/-! ### Views -/

inductive ValidityDto
  | current | stale | unknown | unavailable
deriving DecidableEq

inductive ReasonDto
  | disconnected | queryFailed | expired | receiverChanged
deriving DecidableEq

def ReasonDto.of : StaleReason → ReasonDto
  | .disconnected => .disconnected
  | .queryFailed => .queryFailed
  | .expired => .expired
  | .receiverChanged => .receiverChanged

def ReasonDto.reason : ReasonDto → StaleReason
  | .disconnected => .disconnected
  | .queryFailed => .queryFailed
  | .expired => .expired
  | .receiverChanged => .receiverChanged

@[simp] theorem ReasonDto.reason_of (reason : StaleReason) : (ReasonDto.of reason).reason = reason := by
  cases reason <;> rfl

structure FieldView (α F : Type) where
  value : Option α
  validity : ValidityDto
  reason : Option ReasonDto
  text : F
deriving DecidableEq

structure MainZoneView (F : Type) where
  power : FieldView ZonePowerDto F
  source : FieldView String F
  volume : FieldView VolumeDto F
  mute : FieldView MuteDto F
  soundMode : FieldView SoundModeValueDto F
deriving DecidableEq

structure StateView (F E : Type) where
  receiver : String
  revision : ℕ
  epoch : Option ℕ
  systemPower : FieldView SystemPowerDto F
  mainZone : MainZoneView F
  zone2Power : FieldView ZonePowerDto F
  extras : E
deriving DecidableEq

abbrev AgentStateView := StateView NoText NoText

abbrev OperatorStateView := StateView FieldText Diagnostics

section Views
variable {α β F E : Type} [Detail F] [Extras E]

def validityOf : FieldValidity → ValidityDto × Option ReasonDto
  | .current _ => (.current, none)
  | .stale reason => (.stale, some (ReasonDto.of reason))
  | .unknown => (.unknown, none)
  | .unavailable _ => (.unavailable, none)

/-- What a view says about a field beyond its value. -/
def textOf (F : Type) [Detail F] (field : FieldState α) (raw : Option (α → String)) : F :=
  Detail.about field (field.lastGood.bind fun observation => raw.map fun raw => raw observation.value)

def view (field : FieldState α) (value : α → β) (raw : Option (α → String)) : FieldView β F :=
  let (validity, reason) := validityOf field.validity
  { value := field.lastGood.map fun observation => value observation.value, validity, reason, text := textOf F field raw }

/-- `From<&ReceiverState>`. -/
def StateView.ofState (state : ReceiverState) : StateView F E where
  receiver := state.receiver.value
  revision := state.revision
  epoch := state.epoch
  systemPower := view state.systemPower SystemPowerDto.of none
  mainZone :=
    { power := view state.mainZone.power ZonePowerDto.of none
      source := view state.mainZone.source SourceId.value none
      volume := view state.mainZone.volume VolumeDto.of none
      mute := view state.mainZone.mute MuteDto.of none
      soundMode := view state.mainZone.soundMode (fun mode => ⟨mode.id⟩) (some SoundModeStatus.raw) }
  zone2Power := view state.zone2Power ZonePowerDto.of none
  extras := Extras.of state

/-- A current field never expires here. -/
def neverExpires : MonotonicMillis := 2 ^ 64 - 1

def rebuildValidity (view : FieldView β F) : Except String FieldValidity :=
  match view.validity with
  | .current => .ok (.current neverExpires)
  | .stale =>
    match view.reason with
    | some reason => .ok (.stale reason.reason)
    | none => .error "a stale field says why it is stale"
  | .unknown => .ok .unknown
  | .unavailable => .ok (.unavailable ((Detail.evidence view.text).getD ""))

/-- A placeholder for what a view does not carry of an observation. -/
def placeholder (receiver : ReceiverId) (epoch : Epoch) (value : α) : Observation α :=
  { receiver, epoch, frameSeq := 0, observedAt := 0, origin := .receiverFrame, value }

def rebuild (receiver : ReceiverId) (epoch : Epoch) (view : FieldView β F) (convert : β → F → Except String α) :
    Except String (FieldState α) := do
  let lastGood ← match view.value with
    | some value => (convert value view.text).map fun value => some (placeholder receiver epoch value)
    | none => .ok none
  let validity ← rebuildValidity view
  return { lastGood, validity, lastIssue := Detail.issue view.text }

/-- The state this view describes, with placeholder stamps. -/
def StateView.intoState (view : StateView F E) : Except String ReceiverState := do
  let receiver ← parseReceiverId view.receiver
  let epoch := view.epoch.getD 0
  let systemPower ← rebuild receiver epoch view.systemPower fun value _ => .ok value.power
  let zone2Power ← rebuild receiver epoch view.zone2Power fun value _ => .ok value.power
  let power ← rebuild receiver epoch view.mainZone.power fun value _ => .ok value.power
  let source ← rebuild receiver epoch view.mainZone.source fun value _ => SourceId.new value
  let volume ← rebuild receiver epoch view.mainZone.volume fun value _ => value.volume
  let mute ← rebuild receiver epoch view.mainZone.mute fun value _ => .ok value.mute
  let soundMode ← rebuild receiver epoch view.mainZone.soundMode fun value text =>
    .ok ⟨value.id, (Detail.raw text).getD value.id⟩
  return {
    receiver
    revision := view.revision
    epoch := view.epoch
    systemPower
    mainZone := { power, source, volume, mute, soundMode }
    zone2Power
    diagnostics := Extras.diagnostics view.extras }

/-! ### There and back -/

/-- What becomes of a validity. -/
def rebuiltValidity (text : F) : FieldValidity → FieldValidity
  | .current _ => .current neverExpires
  | .stale reason => .stale reason
  | .unknown => .unknown
  | .unavailable _ => .unavailable ((Detail.evidence text).getD "")

/-- What becomes of a field, with its value read `back`. -/
def rebuiltField (receiver : ReceiverId) (epoch : Epoch) (back : α → α) (text : F) (field : FieldState α) :
    FieldState α where
  lastGood := field.lastGood.map fun observation => placeholder receiver epoch (back observation.value)
  validity := rebuiltValidity text field.validity
  lastIssue := Detail.issue text

/-- What becomes of a sound mode. -/
def rebuiltMode (text : F) (mode : SoundModeStatus) : SoundModeStatus := ⟨mode.id, (Detail.raw text).getD mode.id⟩

/-- What becomes of a state. -/
def rebuiltState (F E : Type) [Detail F] [Extras E] (state : ReceiverState) : ReceiverState :=
  let epoch := state.epoch.getD 0
  let modeText := textOf F state.mainZone.soundMode (some SoundModeStatus.raw)
  { receiver := state.receiver
    revision := state.revision
    epoch := state.epoch
    systemPower := rebuiltField state.receiver epoch id (textOf F state.systemPower none) state.systemPower
    mainZone :=
      { power := rebuiltField state.receiver epoch id (textOf F state.mainZone.power none) state.mainZone.power
        source := rebuiltField state.receiver epoch id (textOf F state.mainZone.source none) state.mainZone.source
        volume := rebuiltField state.receiver epoch id (textOf F state.mainZone.volume none) state.mainZone.volume
        mute := rebuiltField state.receiver epoch id (textOf F state.mainZone.mute none) state.mainZone.mute
        soundMode := rebuiltField state.receiver epoch (rebuiltMode modeText) modeText state.mainZone.soundMode }
    zone2Power := rebuiltField state.receiver epoch id (textOf F state.zone2Power none) state.zone2Power
    diagnostics := Extras.diagnostics (Extras.of state : E) }

theorem rebuildValidity_view (field : FieldState α) (value : α → β) (raw : Option (α → String)) :
    rebuildValidity (view field value raw : FieldView β F) =
      .ok (rebuiltValidity (textOf F field raw) field.validity) := by
  unfold rebuildValidity view
  cases hvalidity : field.validity with
  | stale reason => simp [validityOf, rebuiltValidity]
  | current | unknown | unavailable => simp [validityOf, rebuiltValidity]

/-- A field's view is turned back into the field, with placeholders for its stamps. -/
theorem rebuild_view (receiver : ReceiverId) (epoch : Epoch) (field : FieldState α) (value : α → β)
    (raw : Option (α → String)) {convert : β → F → Except String α} {back : α → α}
    (h : ∀ good, convert (value good) (textOf F field raw) = .ok (back good)) :
    rebuild receiver epoch (view field value raw) convert =
      .ok (rebuiltField receiver epoch back (textOf F field raw) field) := by
  have htext : (view field value raw : FieldView β F).text = textOf F field raw := rfl
  have hvalue : (view field value raw : FieldView β F).value = field.lastGood.map fun observation => value observation.value :=
    rfl
  unfold rebuild rebuiltField
  rw [rebuildValidity_view, htext, hvalue]
  cases field.lastGood with
  | none => rfl
  | some observation =>
    simp only [Option.map_some, h]
    rfl

theorem intoState_ofState (state : ReceiverState) :
    (StateView.ofState state : StateView F E).intoState = .ok (rebuiltState F E state) := by
  have hplain : ∀ {α β : Type} (field : FieldState α) (value : α → β) {convert : β → F → Except String α},
      (∀ good, convert (value good) (textOf F field none) = .ok good) →
        rebuild state.receiver (state.epoch.getD 0) (view field value none) convert =
          .ok (rebuiltField state.receiver (state.epoch.getD 0) id (textOf F field none) field) :=
    fun field value _ h => rebuild_view _ _ field value none h
  unfold StateView.intoState StateView.ofState
  dsimp only
  rw [parseReceiverId_value]
  have hbind : ∀ {α β : Type} (value : α) (next : α → Except String β), (Except.ok value >>= next) = next value :=
    fun _ _ => rfl
  rw [hbind, hplain _ _ (by simp), hbind, hplain _ _ (by simp), hbind, hplain _ _ (by simp), hbind,
    hplain _ _ (by simp), hbind, hplain _ _ (by simp), hbind, hplain _ _ (by simp), hbind, rebuild_view, hbind]
  · rfl
  · intro good
    rfl

/-! ### What is carried -/

/-- The state that a view is turned back into decides like the original. -/
structure CarriesBaseline (state rebuilt : ReceiverState) : Prop where
  receiver : rebuilt.receiver = state.receiver
  epoch : rebuilt.epoch = state.epoch
  revision : rebuilt.revision = state.revision
  capture : ∀ field, FieldBaseline.capture rebuilt field = FieldBaseline.capture state field

/-- The text of the original, too. -/
structure KeepsText (state rebuilt : ReceiverState) : Prop where
  issue : ∀ field, (rebuilt.fieldAt field).lastIssue = (state.fieldAt field).lastIssue
  evidence : ∀ field, evidenceOf (rebuilt.fieldAt field).validity = evidenceOf (state.fieldAt field).validity
  /-- Only a sound mode has a raw text. -/
  raw : rebuilt.mainZone.soundMode.lastGood.map (fun observation => observation.value.raw) =
    state.mainZone.soundMode.lastGood.map fun observation => observation.value.raw
  diagnostics : rebuilt.diagnostics = state.diagnostics

theorem usable_rebuiltField (receiver : ReceiverId) (epoch : Epoch) {back : α → α} (text : F) (field : FieldState α)
    {value : α → FieldValue} (h : ∀ good, value (back good) = value good) :
    usable (rebuiltField receiver epoch back text field) value = usable field value := by
  unfold usable rebuiltField
  cases field.validity with
  | current validUntil =>
    cases field.lastGood with
    | none => rfl
    | some observation => simp [rebuiltValidity, placeholder, h]
  | unknown | stale | unavailable => rfl

theorem usableIn_rebuiltState (state : ReceiverState) (field : CoreField) :
    FieldBaseline.usableIn (rebuiltState F E state) field = FieldBaseline.usableIn state field := by
  cases field with
  | soundMode =>
    simp only [FieldBaseline.usableIn]
    exact usable_rebuiltField _ _ _ _ fun good => rfl
  | _ => exact usable_rebuiltField _ _ _ _ fun good => rfl

theorem carriesBaseline_rebuiltState (F E : Type) [Detail F] [Extras E] (state : ReceiverState) :
    CarriesBaseline state (rebuiltState F E state) := by
  refine ⟨rfl, rfl, rfl, fun field => ?_⟩
  unfold FieldBaseline.capture
  rw [usableIn_rebuiltState]

end Views

theorem evidenceOf_rebuiltValidity {α : Type} (field : FieldState α) (raw : Option (α → String)) :
    evidenceOf (rebuiltValidity (textOf FieldText field raw) field.validity) = evidenceOf field.validity := by
  have htext : Detail.evidence (textOf FieldText field raw) = evidenceOf field.validity := rfl
  cases hvalidity : field.validity with
  | unavailable evidence => simp [rebuiltValidity, htext, hvalidity, evidenceOf]
  | current | stale | unknown => rfl

theorem keepsText_rebuiltState (state : ReceiverState) : KeepsText state (rebuiltState FieldText Diagnostics state) := by
  refine ⟨fun field => ?_, fun field => ?_, ?_, rfl⟩
  · cases field <;> rfl
  · cases field <;> exact evidenceOf_rebuiltValidity _ _
  · unfold rebuiltState rebuiltField rebuiltMode textOf
    cases hgood : state.mainZone.soundMode.lastGood with
    | none => rfl
    | some observation => simp [placeholder, Detail.raw, Detail.about]

/-! ### What an agent is not shown -/

/-- A field without its texts. -/
def withoutText {α : Type} (field : FieldState α) : FieldState α :=
  { field with
    lastIssue := none
    validity :=
      match field.validity with
      | .unavailable _ => .unavailable ""
      | validity => validity }

/-- A state without issues, evidence, raw texts and diagnostics. -/
def eraseText (state : ReceiverState) : ReceiverState :=
  let bare := state.mapFields withoutText
  { bare with
    mainZone.soundMode.lastGood := bare.mainZone.soundMode.lastGood.map fun observation =>
      { observation with value := { observation.value with raw := "" } }
    diagnostics := [] }

theorem view_withoutText {α β : Type} (field : FieldState α) (value : α → β) :
    (view (withoutText field) value none : FieldView β NoText) = view field value none := by
  unfold view withoutText
  cases field.validity <;> rfl

/-- An agent's view has nothing to do with the texts. -/
theorem ofState_eraseText (state : ReceiverState) :
    (StateView.ofState (eraseText state) : AgentStateView) = StateView.ofState state := by
  have hmode : ∀ field : FieldState SoundModeStatus,
      (view { withoutText field with lastGood := field.lastGood.map fun observation =>
          { observation with value := { observation.value with raw := "" } } }
        (fun mode => SoundModeValueDto.mk mode.id) (some SoundModeStatus.raw) : FieldView SoundModeValueDto NoText) =
      view field (fun mode => ⟨mode.id⟩) (some SoundModeStatus.raw) := by
    intro field
    unfold view withoutText
    cases field.lastGood <;> cases field.validity <;> rfl
  unfold StateView.ofState eraseText ReceiverState.mapFields
  dsimp only
  rw [view_withoutText, view_withoutText, view_withoutText, view_withoutText, view_withoutText, view_withoutText]
  simp only [StateView.mk.injEq, MainZoneView.mk.injEq, true_and, and_true]
  exact hmode state.mainZone.soundMode

/-- **State views carry the baseline.** A view is turned back into a state with the epoch, the revision and the baselines
of the original. The operator's keeps the texts as well, and an agent's is the same for every state that differs in the
texts only. -/
theorem views_carry_baseline (state : ReceiverState) :
    (∃ rebuilt, (StateView.ofState state : AgentStateView).intoState = .ok rebuilt ∧ CarriesBaseline state rebuilt) ∧
    (∃ rebuilt, (StateView.ofState state : OperatorStateView).intoState = .ok rebuilt ∧
      CarriesBaseline state rebuilt ∧ KeepsText state rebuilt) ∧
    ∀ other, eraseText other = eraseText state →
      (StateView.ofState other : AgentStateView) = StateView.ofState state := by
  refine ⟨⟨_, intoState_ofState state, carriesBaseline_rebuiltState _ _ state⟩,
    ⟨_, intoState_ofState state, carriesBaseline_rebuiltState _ _ state, keepsText_rebuiltState state⟩, fun other h => ?_⟩
  rw [← ofState_eraseText other, h, ofState_eraseText]

end DenonAvr.ApiContract
