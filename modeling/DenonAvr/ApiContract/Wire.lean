import DenonAvr.ApiContract.Operations
import DenonAvr.Library.Record

/-!
# The contract's types as JSON

Every type of the contract has its coding: the names of a choice, the fields of a record, what is left out when it is
empty. What a server writes of an operation or of a state is read by a client as what it was, as long as its numbers are
of 64 bits.
-/

namespace DenonAvr.ApiContract

open Domain Application Library

/-! ### Values -/

def SystemPowerDto.name : SystemPowerDto → String
  | .on => "on"
  | .standby => "standby"

def SystemPowerDto.coding : Coding SystemPowerDto := .choice [.on, .standby] name

def ZonePowerDto.name : ZonePowerDto → String
  | .on => "on"
  | .off => "off"

def ZonePowerDto.coding : Coding ZonePowerDto := .choice [.on, .off] name

def MuteDto.name : MuteDto → String
  | .on => "on"
  | .off => "off"

def MuteDto.coding : Coding MuteDto := .choice [.on, .off] name

/-- An `i16`. -/
def stepsCoding : Coding ℤ := .number (-2 ^ 15) (2 ^ 15 - 1)

/-- `"minimum"` or `{"half_steps": n}`. -/
def VolumeDto.coding : Coding VolumeDto where
  write
    | .minimum => .string "minimum"
    | .halfSteps steps => .object [("half_steps", stepsCoding.write steps)]
  read
    | .string "minimum" | .object [("minimum", .null)] => some .minimum
    | .object [("half_steps", value)] => (stepsCoding.read value).map .halfSteps
    | _ => none
  write_ne_null volume := by cases volume <;> simp

def SoundModeDto.named : List (String × SoundModeDto) :=
  [("auto", .auto), ("direct", .direct), ("pure_direct", .pureDirect), ("stereo", .stereo), ("recall_movie", .recallMovie),
    ("recall_music", .recallMusic), ("recall_game", .recallGame)]

/-- A name, or `{"select": "name"}`. -/
def SoundModeDto.coding : Coding SoundModeDto where
  write
    | .select name => .object [("select", .string name)]
    | .auto => .string "auto"
    | .direct => .string "direct"
    | .pureDirect => .string "pure_direct"
    | .stereo => .string "stereo"
    | .recallMovie => .string "recall_movie"
    | .recallMusic => .string "recall_music"
    | .recallGame => .string "recall_game"
  read
    | .object [("select", .string name)] => some (.select name)
    | .string name | .object [(name, .null)] => named.lookup name
    | _ => none
  write_ne_null mode := by cases mode <;> simp

/-! ### Operations -/

namespace IntentDto

/-- An intent has its kind and one field. -/
def tagged (kind key : String) (value : Json) : Json := .object [("kind", .string kind), (key, value)]

def write : IntentDto → Json
  | .systemPower value => tagged "system_power" "value" (SystemPowerDto.coding.write value)
  | .mainZonePower value => tagged "main_zone_power" "value" (ZonePowerDto.coding.write value)
  | .zone2Power value => tagged "zone2_power" "value" (ZonePowerDto.coding.write value)
  | .source id => tagged "source" "id" (.string id)
  | .volume level => tagged "volume" "level" (VolumeDto.coding.write level)
  | .mute value => tagged "mute" "value" (MuteDto.coding.write value)
  | .soundMode mode => tagged "sound_mode" "mode" (SoundModeDto.coding.write mode)

/-- The field of an intent, which has no other. -/
def only (fields : List (String × Json)) (key : String) : Option Json :=
  if ∀ field ∈ fields, field.1 = "kind" ∨ field.1 = key then Json.get fields key else none

def readKind (fields : List (String × Json)) : String → Option IntentDto
  | "system_power" => (only fields "value").bind fun value => (SystemPowerDto.coding.read value).map .systemPower
  | "main_zone_power" => (only fields "value").bind fun value => (ZonePowerDto.coding.read value).map .mainZonePower
  | "zone2_power" => (only fields "value").bind fun value => (ZonePowerDto.coding.read value).map .zone2Power
  | "source" => (only fields "id").bind fun value => (Coding.text.read value).map .source
  | "volume" => (only fields "level").bind fun value => (VolumeDto.coding.read value).map .volume
  | "mute" => (only fields "value").bind fun value => (MuteDto.coding.read value).map .mute
  | "sound_mode" => (only fields "mode").bind fun value => (SoundModeDto.coding.read value).map .soundMode
  | _ => none

/-- A field that an intent does not have is refused, and so is a field that stands twice. -/
def read : Json → Option IntentDto
  | .object fields =>
    if (fields.map Prod.fst).Nodup then
      ((Json.get fields "kind").bind Json.asStr).bind (readKind fields)
    else none
  | _ => none

def coding : Coding IntentDto := ⟨write, read, fun intent => by cases intent <;> simp [write, tagged]⟩

end IntentDto

def StatusDto.all : List StatusDto :=
  [.submitted, .allowed, .awaitingApproval, .approved, .inSession, .denied, .approvalUnavailable, .approvalRejected,
    .expired, .cancelled, .completed, .alreadyInState, .rejected, .superseded, .indeterminate]

def StatusDto.name : StatusDto → String
  | .submitted => "submitted"
  | .allowed => "allowed"
  | .awaitingApproval => "awaiting_approval"
  | .approved => "approved"
  | .inSession => "in_session"
  | .denied => "denied"
  | .approvalUnavailable => "approval_unavailable"
  | .approvalRejected => "approval_rejected"
  | .expired => "expired"
  | .cancelled => "cancelled"
  | .completed => "completed"
  | .alreadyInState => "already_in_state"
  | .rejected => "rejected"
  | .superseded => "superseded"
  | .indeterminate => "indeterminate"

def StatusDto.coding : Coding StatusDto := .choice all name

def DispatchDto.name : DispatchDto → String
  | .notDispatched => "not_dispatched"
  | .possiblyDispatched => "possibly_dispatched"
  | .completeWrite => "complete_write"
  | .unknown => "unknown"

def DispatchDto.coding : Coding DispatchDto :=
  .choice [.notDispatched, .possiblyDispatched, .completeWrite, .unknown] name

def OperationDto.record : Record OperationDto :=
  .map
    (.and (.field "id" .u64) <| .and (.field "receiver" .text) <| .and (.field "intent" IntentDto.coding) <|
      .and (.field "status" StatusDto.coding) <| .and (.optional "superseded_by" .u64) <|
      .and (.field "dispatch" DispatchDto.coding) <| .and (.field "confirmed" .flag) <| .and (.optional "reason" .text) <|
      .optional "observation" .text)
    (fun (id, receiver, intent, status, supersededBy, dispatch, confirmed, reason, observation) =>
      ⟨id, receiver, intent, status, supersededBy, dispatch, confirmed, reason, observation⟩)
    (fun dto => (dto.id, dto.receiver, dto.intent, dto.status, dto.supersededBy, dto.dispatch, dto.confirmed, dto.reason,
      dto.observation))

/-! ### States -/

def ValidityDto.name : ValidityDto → String
  | .current => "current"
  | .stale => "stale"
  | .unknown => "unknown"
  | .unavailable => "unavailable"

def ValidityDto.coding : Coding ValidityDto := .choice [.current, .stale, .unknown, .unavailable] name

def ReasonDto.name : ReasonDto → String
  | .disconnected => "disconnected"
  | .queryFailed => "query_failed"
  | .expired => "expired"
  | .receiverChanged => "receiver_changed"

def ReasonDto.coding : Coding ReasonDto := .choice [.disconnected, .queryFailed, .expired, .receiverChanged] name

/-- The keys of a field and of a state. -/
def viewKeys : List String :=
  ["value", "validity", "reason", "receiver", "revision", "epoch", "system_power", "main_zone", "zone2_power"]

/-- What a view adds. Its fields stand among those of the field, or of the state. -/
class Flat (F : Type) where
  record : Record F
  apart : ∀ key ∈ viewKeys, key ∉ record.keys
  readsBack : ∀ text, record.ReadsBack text

instance : Flat NoText where
  record := .nothing {}
  apart := by decide
  readsBack _ := by simp

def FieldText.record : Record FieldText :=
  .map (.and (.optional "issue" .text) <| .and (.optional "evidence" .text) <| .optional "raw" .text)
    (fun (issue, evidence, raw) => ⟨issue, evidence, raw⟩) (fun text => (text.issue, text.evidence, text.raw))

instance : Flat FieldText where
  record := FieldText.record
  apart := by decide
  readsBack _ := Record.ReadsBack.map (by simp) rfl

def Diagnostics.record : Record Diagnostics := .map (.listOf "diagnostics" .text false) mk diagnostics

instance : Flat Diagnostics where
  record := Diagnostics.record
  apart := by decide
  readsBack _ := Record.ReadsBack.map (Record.readsBack_listOf (by simp)) rfl

section Views
variable {α F E : Type} [Flat F] [Flat E]

/-- The fields of a record, and what a view adds. -/
def flattened (r : Record α) (F : Type) [Flat F]
    (h : (r.keys.all fun key => viewKeys.contains key) = true := by exact of_decide_eq_true (Eq.refl true)) :
    Record (α × F) :=
  r.and Flat.record <| by
    unfold Record.apartFrom
    rw [List.all_eq_true] at h ⊢
    intro key hkey
    have hviewKey : key ∈ viewKeys := by simpa using h key hkey
    simpa using Flat.apart (F := F) key hviewKey

def FieldView.record (c : Coding α) : Record (FieldView α F) :=
  .map
    (flattened (.and (.optional "value" c) <| .and (.field "validity" ValidityDto.coding) <|
      .optional "reason" ReasonDto.coding) F)
    (fun ((value, validity, reason), text) => ⟨value, validity, reason, text⟩)
    (fun view => ((view.value, view.validity, view.reason), view.text))

/-- A field of a state. Its reader is not strict. -/
def fieldOf (key : String) (c : Coding α) : Record (FieldView α F) := .field key ((FieldView.record c).coding false)

def SoundModeValueDto.record : Record SoundModeValueDto := .map (.field "id" .text) SoundModeValueDto.mk SoundModeValueDto.id

def MainZoneView.record : Record (MainZoneView F) :=
  .map
    (.and (fieldOf "power" ZonePowerDto.coding) <| .and (fieldOf "source" .text) <|
      .and (fieldOf "volume" VolumeDto.coding) <| .and (fieldOf "mute" MuteDto.coding) <|
      fieldOf "sound_mode" (SoundModeValueDto.record.coding false))
    (fun (power, source, volume, mute, soundMode) => ⟨power, source, volume, mute, soundMode⟩)
    (fun view => (view.power, view.source, view.volume, view.mute, view.soundMode))

def StateView.record : Record (StateView F E) :=
  .map
    (flattened (.and (.field "receiver" .text) <| .and (.field "revision" .u64) <| .and (.optional "epoch" .u64) <|
      .and (fieldOf "system_power" SystemPowerDto.coding) <| .and (.field "main_zone" (MainZoneView.record.coding false)) <|
      fieldOf "zone2_power" ZonePowerDto.coding) E)
    (fun ((receiver, revision, epoch, systemPower, mainZone, zone2Power), extras) =>
      ⟨receiver, revision, epoch, systemPower, mainZone, zone2Power, extras⟩)
    (fun view => ((view.receiver, view.revision, view.epoch, view.systemPower, view.mainZone, view.zone2Power), view.extras))

end Views

/-! ### What is read back -/

@[simp] theorem SystemPowerDto.readsBack (value : SystemPowerDto) : coding.ReadsBack value :=
  Coding.readsBack_choice (by cases value <;> simp) (by cases value <;> decide)

@[simp] theorem ZonePowerDto.readsBack (value : ZonePowerDto) : coding.ReadsBack value :=
  Coding.readsBack_choice (by cases value <;> simp) (by cases value <;> decide)

@[simp] theorem MuteDto.readsBack (value : MuteDto) : coding.ReadsBack value :=
  Coding.readsBack_choice (by cases value <;> simp) (by cases value <;> decide)

@[simp] theorem StatusDto.readsBack (value : StatusDto) : coding.ReadsBack value :=
  Coding.readsBack_choice (by cases value <;> simp [all]) (by cases value <;> decide)

@[simp] theorem DispatchDto.readsBack (value : DispatchDto) : coding.ReadsBack value :=
  Coding.readsBack_choice (by cases value <;> simp) (by cases value <;> decide)

@[simp] theorem ValidityDto.readsBack (value : ValidityDto) : coding.ReadsBack value :=
  Coding.readsBack_choice (by cases value <;> simp) (by cases value <;> decide)

@[simp] theorem ReasonDto.readsBack (value : ReasonDto) : coding.ReadsBack value :=
  Coding.readsBack_choice (by cases value <;> simp) (by cases value <;> decide)

@[simp] theorem SoundModeDto.readsBack (mode : SoundModeDto) : coding.ReadsBack mode := by
  cases mode <;> rfl

@[simp] theorem VolumeDto.readsBack_of (volume : MasterVolume) : coding.ReadsBack (.of volume) := by
  cases volume with
  | minimum => rfl
  | dbHalfSteps steps =>
    have hsteps : stepsCoding.ReadsBack steps.val := by
      unfold stepsCoding
      rw [Coding.readsBack_number]
      have hrange := steps.property
      omega
    show (stepsCoding.read (stepsCoding.write steps.val)).map VolumeDto.halfSteps = some (.halfSteps steps.val)
    rw [hsteps]
    rfl

/-- An intent is read back when its field is. -/
theorem IntentDto.read_tagged {α : Type} (kind key : String) (c : Coding α) (make : α → IntentDto) (hkey : key ≠ "kind")
    (hkind : ∀ fields, readKind fields kind = (only fields key).bind fun value => (c.read value).map make) {a : α}
    (h : c.ReadsBack a) : read (tagged kind key (c.write a)) = some (make a) := by
  have hread : c.read (c.write a) = some a := h
  have hnodup : (["kind", key] : List String).Nodup := by simp [hkey.symm]
  have honly : only [("kind", .string kind), (key, c.write a)] key = some (c.write a) := by
    unfold only
    rw [if_pos (by simp)]
    simp [Json.get, List.lookup_cons, beq_false_of_ne hkey]
  unfold read tagged
  dsimp only
  rw [if_pos (by simpa using hnodup)]
  show readKind _ kind = _
  rw [hkind, honly, Option.bind_some, hread, Option.map_some]

@[simp] theorem IntentDto.readsBack_of (intent : ReceiverIntent) : coding.ReadsBack (.of intent) := by
  cases intent with
  | systemPower value => exact read_tagged "system_power" "value" SystemPowerDto.coding .systemPower (by decide) (fun _ => rfl) (SystemPowerDto.readsBack _)
  | mainZonePower value => exact read_tagged "main_zone_power" "value" ZonePowerDto.coding .mainZonePower (by decide) (fun _ => rfl) (ZonePowerDto.readsBack _)
  | zone2Power value => exact read_tagged "zone2_power" "value" ZonePowerDto.coding .zone2Power (by decide) (fun _ => rfl) (ZonePowerDto.readsBack _)
  | source id => exact read_tagged "source" "id" .text .source (by decide) (fun _ => rfl) (Coding.readsBack_text _)
  | volume level => exact read_tagged "volume" "level" VolumeDto.coding .volume (by decide) (fun _ => rfl) (VolumeDto.readsBack_of level)
  | mute value => exact read_tagged "mute" "value" MuteDto.coding .mute (by decide) (fun _ => rfl) (MuteDto.readsBack _)
  | soundMode mode => exact read_tagged "sound_mode" "mode" SoundModeDto.coding .soundMode (by decide) (fun _ => rfl) (SoundModeDto.readsBack _)

/-- The numbers of a snapshot are of 64 bits. -/
structure FitsWire (snapshot : OperationSnapshot) : Prop where
  id : snapshot.id < 2 ^ 64
  replacement : ∀ other, snapshot.status = .superseded other → other < 2 ^ 64

theorem OperationDto.readsBack_of {snapshot : OperationSnapshot} (h : FitsWire snapshot) : record.ReadsBack (.of snapshot) := by
  have hreplacement : ∀ other ∈ (statusOf snapshot.status).2, other < 2 ^ 64 := by
    intro other hmem
    cases hstatus : snapshot.status with
    | superseded replacement =>
      rw [hstatus] at hmem
      exact Option.some.inj hmem ▸ h.replacement replacement hstatus
    | _ =>
      rw [hstatus] at hmem
      cases hmem
  apply Record.ReadsBack.map _ rfl
  simp only [Record.readsBack_and, Record.readsBack_field, Record.readsBack_optional, Coding.readsBack_u64,
    Coding.readsBack_text, Coding.readsBack_flag, StatusDto.readsBack, DispatchDto.readsBack]
  exact ⟨h.id, trivial, IntentDto.readsBack_of _, trivial, hreplacement, trivial, trivial, fun _ _ => trivial, fun _ _ => trivial⟩

section States
variable {α β F E : Type} [Flat F] [Flat E]

theorem FieldView.readsBack {c : Coding α} {field : FieldView α F} (h : ∀ value ∈ field.value, c.ReadsBack value) :
    (FieldView.record c).ReadsBack field := by
  apply Record.ReadsBack.map _ rfl
  unfold flattened
  simp only [Record.readsBack_and, Record.readsBack_field, Record.readsBack_optional, ValidityDto.readsBack]
  exact ⟨⟨h, trivial, fun reason _ => ReasonDto.readsBack reason⟩, Flat.readsBack _⟩

/-- A field whose every value is read back. -/
theorem readsBack_fieldOf {key : String} {c : Coding α} (h : ∀ value, c.ReadsBack value) (field : FieldView α F) :
    (fieldOf key c).ReadsBack field :=
  Record.readsBack_field.mpr (Record.coding_readsBack (FieldView.readsBack fun value _ => h value))

/-- The numbers of a state are of 64 bits. -/
structure StateFits (state : ReceiverState) : Prop where
  revision : state.revision < 2 ^ 64
  epoch : ∀ epoch ∈ state.epoch, epoch < 2 ^ 64

theorem StateView.readsBack_of [Detail F] [Extras E] {state : ReceiverState} (h : StateFits state) :
    StateView.record.ReadsBack (StateView.ofState state : StateView F E) := by
  have hmode : ∀ value, (SoundModeValueDto.record.coding false).ReadsBack value := fun value =>
    Record.coding_readsBack (Record.ReadsBack.map (by simp) rfl)
  have hvolume : (fieldOf "volume" VolumeDto.coding).ReadsBack
      (view state.mainZone.volume VolumeDto.of none : FieldView VolumeDto F) := by
    refine Record.readsBack_field.mpr (Record.coding_readsBack (FieldView.readsBack fun value hvalue => ?_))
    obtain ⟨observation, -, rfl⟩ := Option.map_eq_some_iff.mp hvalue
    exact VolumeDto.readsBack_of _
  have hzone : MainZoneView.record.ReadsBack (StateView.ofState state : StateView F E).mainZone := by
    apply Record.ReadsBack.map _ rfl
    simp only [Record.readsBack_and]
    exact ⟨readsBack_fieldOf ZonePowerDto.readsBack _, readsBack_fieldOf Coding.readsBack_text _, hvolume,
      readsBack_fieldOf MuteDto.readsBack _, readsBack_fieldOf hmode _⟩
  apply Record.ReadsBack.map _ rfl
  unfold flattened
  simp only [Record.readsBack_and, Record.readsBack_field, Record.readsBack_optional, Coding.readsBack_u64,
    Coding.readsBack_text]
  exact ⟨⟨trivial, h.revision, h.epoch, readsBack_fieldOf SystemPowerDto.readsBack _, Record.coding_readsBack hzone,
    readsBack_fieldOf ZonePowerDto.readsBack _⟩, Flat.readsBack _⟩

end States

end DenonAvr.ApiContract
