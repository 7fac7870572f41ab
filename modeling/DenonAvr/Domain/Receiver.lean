import Mathlib.Tactic
import Mathlib.Data.Fintype.Basic

/-!
# Receiver values, intents, frames and outcomes

The value types of the `domain` crate. A validated newtype carries its validation as a field, so a
`SourceId` or a `MasterVolume` out of range cannot be written down. Counters and clock readings are
`ℕ`; none of them is brought near `2 ^ 64` by a run.
-/

namespace DenonAvr.Domain

/-! ### Text checks -/

/-- `char::is_whitespace`: the Unicode `White_Space` property. -/
def isWhitespace (c : Char) : Bool :=
  (0x09 ≤ c.toNat && c.toNat ≤ 0x0D) || c.toNat == 0x20 || c.toNat == 0x85 || c.toNat == 0xA0 ||
    c.toNat == 0x1680 || (0x2000 ≤ c.toNat && c.toNat ≤ 0x200A) || c.toNat == 0x2028 ||
    c.toNat == 0x2029 || c.toNat == 0x202F || c.toNat == 0x205F || c.toNat == 0x3000

/-- `char::is_control`: the Unicode general category `Cc`. -/
def isControl (c : Char) : Bool := c.toNat < 0x20 || (0x7F ≤ c.toNat && c.toNat < 0xA0)

/-- `value.trim().is_empty()`. -/
def isBlank (value : String) : Bool := value.toList.all isWhitespace

/-- The check a receiver id and a source id share: something visible, and no control character. -/
def isPlainText (value : String) : Bool := !isBlank value && !value.toList.any isControl

/-! ### Identifiers and clocks -/

/-- Milliseconds since the Unix epoch. -/
abbrev WallTime := ℕ

/-- `WallTime::saturating_sub`: this time minus a duration in milliseconds, or the epoch when that
would be earlier. -/
def WallTime.saturatingSub (time : WallTime) (duration : ℕ) : WallTime := time - duration

abbrev MonotonicMillis := ℕ
abbrev Epoch := ℕ
abbrev FrameSeq := ℕ
abbrev StateRevision := ℕ
abbrev OperationId := ℕ
abbrev SyncCycleId := ℕ

/-- Prefix of the ids derived for receivers chosen only by address. -/
def adHocPrefix : String := "adhoc:"

/-- Whether a configuration entry name would collide with an ad hoc id. -/
def ReceiverId.isReservedName (name : String) : Bool := adHocPrefix.toList.isPrefixOf name.toList

/-- What `ReceiverId::new` makes of a name, or `ReceiverId::ad_hoc` of an address. -/
def ReceiverId.isWellFormed (value : String) : Bool :=
  if isReservedName value then isPlainText (String.ofList (value.toList.drop adHocPrefix.length)) else isPlainText value

/-- The id of a receiver, saved or ad hoc. -/
structure ReceiverId where
  value : String
  valid : ReceiverId.isWellFormed value = true
deriving DecidableEq

namespace ReceiverId

def isAdHoc (receiver : ReceiverId) : Bool := isReservedName receiver.value

theorem isReservedName_append (host : String) : isReservedName (adHocPrefix ++ host) = true := by
  unfold isReservedName
  rw [String.toList_append, List.isPrefixOf_iff_prefix]
  exact List.prefix_append _ _

theorem isWellFormed_append {host : String} (h : isPlainText host = true) : isWellFormed (adHocPrefix ++ host) = true := by
  unfold isWellFormed
  rw [if_pos (isReservedName_append host), String.toList_append, ← String.length_toList, List.drop_left,
    String.ofList_toList]
  exact h

/-- `validate`'s message. -/
def notPlainText : String := "receiver ID must be non-empty and contain no control characters"

/-- `ReceiverId::new`. -/
def new (value : String) : Except String ReceiverId :=
  if hplain : isPlainText value = true then
    if hreserved : isReservedName value = true then .error "receiver ID must not use the reserved ad hoc prefix"
    else .ok ⟨value, by rw [isWellFormed, if_neg hreserved]; exact hplain⟩
  else .error notPlainText

/-- `ReceiverId::ad_hoc`. -/
def adHoc (host : String) : Except String ReceiverId :=
  if hplain : isPlainText host = true then .ok ⟨adHocPrefix ++ host, isWellFormed_append hplain⟩
  else .error notPlainText

end ReceiverId

/-- A receiver source id: non-blank text without control characters. -/
structure SourceId where
  value : String
  valid : isPlainText value = true
deriving DecidableEq

def SourceId.new (value : String) : Except String SourceId :=
  if h : isPlainText value = true then .ok ⟨value, h⟩
  else .error "source ID must be non-empty and contain no control characters"

/-! ### Values -/

inductive SystemPower
  | on | standby
deriving DecidableEq, Repr

inductive ZonePower
  | on | off
deriving DecidableEq, Repr

inductive MuteState
  | on | off
deriving DecidableEq, Repr

/-- Half decibels a numbered master volume can take. -/
abbrev VolumeStep := {step : ℤ // -159 ≤ step ∧ step ≤ 36}

/-- -40, -38 and -37 dB. -/
def minus40 : VolumeStep := ⟨-80, by decide⟩
def minus38 : VolumeStep := ⟨-76, by decide⟩
def minus37 : VolumeStep := ⟨-74, by decide⟩

/-- Exact X3800H master-volume values. `minimum` is not -79.5 dB. -/
inductive MasterVolume
  | minimum
  | dbHalfSteps (step : VolumeStep)
deriving DecidableEq

namespace MasterVolume

def lowestHalfStep : ℤ := -159
def highestHalfStep : ℤ := 36

/-- `MasterVolume::db_half_steps`, the only way a numbered volume is made. -/
def ofHalfSteps (value : ℤ) : Except String MasterVolume :=
  if h : lowestHalfStep ≤ value ∧ value ≤ highestHalfStep then .ok (.dbHalfSteps ⟨value, h⟩)
  else .error "X3800H volume must be Minimum or -79.5 through +18.0 dB"

end MasterVolume

structure SoundModeStatus where
  id : String
  raw : String
deriving DecidableEq, Repr

inductive SoundModeIntent
  | auto | direct | pureDirect | stereo | recallMovie | recallMusic | recallGame
  | select (name : String)
deriving DecidableEq, Repr

inductive ReceiverIntent
  | systemPower (value : SystemPower)
  | mainZonePower (value : ZonePower)
  | zone2Power (value : ZonePower)
  | source (value : SourceId)
  | volume (value : MasterVolume)
  | mute (value : MuteState)
  | soundMode (value : SoundModeIntent)
deriving DecidableEq

/-- A core receiver field, independent of the value a caller wants to write. -/
inductive CoreField
  | systemPower | mainZonePower | zone2Power | source | volume | mute | soundMode
deriving DecidableEq, Repr

namespace CoreField

/-- Every field, in the derived order of the source's enumeration. -/
def all : List CoreField :=
  [.systemPower, .mainZonePower, .zone2Power, .source, .volume, .mute, .soundMode]

@[simp] theorem mem_all (field : CoreField) : field ∈ all := by cases field <;> decide

instance : Fintype CoreField := ⟨⟨all, by decide⟩, mem_all⟩

end CoreField

def ReceiverIntent.field : ReceiverIntent → CoreField
  | .systemPower _ => .systemPower
  | .mainZonePower _ => .mainZonePower
  | .zone2Power _ => .zone2Power
  | .source _ => .source
  | .volume _ => .volume
  | .mute _ => .mute
  | .soundMode _ => .soundMode

/-! ### Capabilities -/

def x3800hInputs : List String :=
  ["PHONO", "CD", "TUNER", "DVD", "BD", "GAME", "MEDIA PLAYER", "TV AUDIO", "AUX1", "AUX2", "AUX3", "AUX4",
    "AUX5", "AUX6", "AUX7"]

def x3800hMovieModes : List String :=
  ["DOLBY SURROUND", "DTS NEURAL:X", "DTS VIRTUAL:X", "AURO-3D", "MULTI CH IN", "MONO MOVIE", "VIRTUAL"]

def x3800hMusicModes : List String :=
  ["STEREO", "DOLBY SURROUND", "DTS NEURAL:X", "DTS VIRTUAL:X", "AURO-3D", "MULTI CH IN", "MCH STEREO",
    "ROCK ARENA", "JAZZ CLUB", "MATRIX"]

def x3800hGameModes : List String :=
  ["DOLBY SURROUND", "DTS NEURAL:X", "DTS VIRTUAL:X", "AURO-3D", "MULTI CH IN", "MCH STEREO", "VIDEO GAME"]

def x3800hPureModes : List String := ["AUTO", "DIRECT", "PURE DIRECT", "STEREO"]

/-- `str::eq_ignore_ascii_case`. -/
def eqIgnoreAsciiCase (a b : String) : Bool := a.toList.map Char.toLower == b.toList.map Char.toLower

def supportsX3800hSource (value : String) : Bool :=
  x3800hInputs.any fun candidate => eqIgnoreAsciiCase candidate value

def canonicalX3800hSource (value : String) : Option String :=
  x3800hInputs.find? fun candidate => eqIgnoreAsciiCase candidate value

def supportsX3800hSoundMode (value : String) : Bool :=
  (x3800hMovieModes ++ x3800hMusicModes ++ x3800hGameModes ++ x3800hPureModes).any fun candidate =>
    eqIgnoreAsciiCase candidate value

inductive SoundModeCategory
  | movie | music | game | pure
deriving DecidableEq, Repr

def x3800hSoundModeInCategory (value : String) (category : SoundModeCategory) : Bool :=
  let modes :=
    match category with
    | .movie => x3800hMovieModes
    | .music => x3800hMusicModes
    | .game => x3800hGameModes
    | .pure => x3800hPureModes
  modes.any fun candidate => eqIgnoreAsciiCase candidate value

/-! ### Frames -/

/-- Typed protocol evidence after parsing. -/
inductive CoreFrame
  | systemPower (value : SystemPower)
  | mainZonePower (value : ZonePower)
  | zone2Power (value : ZonePower)
  | source (value : SourceId)
  | volume (value : MasterVolume)
  | mute (value : MuteState)
  | soundMode (value : SoundModeStatus)
  | volumeUnavailable (raw : String)
deriving DecidableEq

def CoreFrame.field : CoreFrame → CoreField
  | .systemPower _ => .systemPower
  | .mainZonePower _ => .mainZonePower
  | .zone2Power _ => .zone2Power
  | .source _ => .source
  | .volume _ => .volume
  | .volumeUnavailable _ => .volume
  | .mute _ => .mute
  | .soundMode _ => .soundMode

/-! ### Outcomes -/

inductive DispatchCertainty
  | notDispatched
  | possiblyDispatched
  /-- The local write completed; the receiver may not have applied it. -/
  | completeWrite
  /-- Writing began but completion could not be established. -/
  | unknown
deriving DecidableEq, Repr

/-- Why a precondition no longer holds. -/
inductive PreconditionMismatch
  | epoch
  | field (field : CoreField)
deriving DecidableEq, Repr

/-- Why a session refused an operation before writing anything. -/
inductive RejectionCause
  | unsupportedIntent
  | observationFailed
  | preconditionMismatch (mismatch : PreconditionMismatch)
  | commandRefused
  | sessionStopped
deriving DecidableEq, Repr

inductive OperationOutcome
  | alreadyObserved (operation : OperationId) (observation : String)
  | observedRequestedValue (operation : OperationId) (dispatch : DispatchCertainty)
      (observation : String)
  | rejectedBeforeDispatch (operation : OperationId) (cause : RejectionCause) (reason : String)
  | cancelled (operation : OperationId)
  | supersededBeforeDispatch (operation : OperationId) (replacement : OperationId)
  | indeterminate (operation : OperationId) (dispatch : DispatchCertainty) (reason : String)
deriving DecidableEq, Repr

end DenonAvr.Domain
