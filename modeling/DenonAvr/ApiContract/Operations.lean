import DenonAvr.ApiContract.State
import DenonAvr.Application.Control

/-!
# Operations on the wire

Intents and operation snapshots have a wire form each, one variant for one variant. What a snapshot is written as reads
back as that snapshot (`toSnapshot_of`), whatever its status.
-/

namespace DenonAvr.ApiContract

open Domain Application

inductive SoundModeDto
  | auto | direct | pureDirect | stereo | recallMovie | recallMusic | recallGame
  | select (name : String)
deriving DecidableEq

def SoundModeDto.of : SoundModeIntent → SoundModeDto
  | .auto => .auto
  | .direct => .direct
  | .pureDirect => .pureDirect
  | .stereo => .stereo
  | .recallMovie => .recallMovie
  | .recallMusic => .recallMusic
  | .recallGame => .recallGame
  | .select name => .select name

def SoundModeDto.mode : SoundModeDto → SoundModeIntent
  | .auto => .auto
  | .direct => .direct
  | .pureDirect => .pureDirect
  | .stereo => .stereo
  | .recallMovie => .recallMovie
  | .recallMusic => .recallMusic
  | .recallGame => .recallGame
  | .select name => .select name

/-- What a caller asks the receiver to do. -/
inductive IntentDto
  | systemPower (value : SystemPowerDto)
  | mainZonePower (value : ZonePowerDto)
  | zone2Power (value : ZonePowerDto)
  | source (id : String)
  | volume (level : VolumeDto)
  | mute (value : MuteDto)
  | soundMode (mode : SoundModeDto)
deriving DecidableEq

def IntentDto.of : ReceiverIntent → IntentDto
  | .systemPower value => .systemPower (.of value)
  | .mainZonePower value => .mainZonePower (.of value)
  | .zone2Power value => .zone2Power (.of value)
  | .source id => .source id.value
  | .volume level => .volume (.of level)
  | .mute value => .mute (.of value)
  | .soundMode mode => .soundMode (.of mode)

def IntentDto.intent : IntentDto → Except String ReceiverIntent
  | .systemPower value => .ok (.systemPower value.power)
  | .mainZonePower value => .ok (.mainZonePower value.power)
  | .zone2Power value => .ok (.zone2Power value.power)
  | .source id => (SourceId.new id).map .source
  | .volume level => level.volume.map .volume
  | .mute value => .ok (.mute value.mute)
  | .soundMode mode => .ok (.soundMode mode.mode)

/-- Where an operation is. `superseded` has its replacement in `OperationDto.supersededBy`. -/
inductive StatusDto
  | submitted | allowed | awaitingApproval | approved | inSession | denied | approvalUnavailable | approvalRejected
  | expired | cancelled | completed | alreadyInState | rejected | superseded | indeterminate
deriving DecidableEq

inductive DispatchDto
  | notDispatched | possiblyDispatched | completeWrite | unknown
deriving DecidableEq

def DispatchDto.of : DispatchCertainty → DispatchDto
  | .notDispatched => .notDispatched
  | .possiblyDispatched => .possiblyDispatched
  | .completeWrite => .completeWrite
  | .unknown => .unknown

def DispatchDto.certainty : DispatchDto → DispatchCertainty
  | .notDispatched => .notDispatched
  | .possiblyDispatched => .possiblyDispatched
  | .completeWrite => .completeWrite
  | .unknown => .unknown

structure OperationDto where
  id : ℕ
  receiver : String
  intent : IntentDto
  status : StatusDto
  supersededBy : Option ℕ
  dispatch : DispatchDto
  confirmed : Bool
  reason : Option String
  observation : Option String
deriving DecidableEq

/-- A status and, when it was replaced, the operation that replaced it. -/
def statusOf : OperationStatus → StatusDto × Option ℕ
  | .submitted => (.submitted, none)
  | .allowed => (.allowed, none)
  | .awaitingApproval => (.awaitingApproval, none)
  | .approved => (.approved, none)
  | .inSession => (.inSession, none)
  | .denied => (.denied, none)
  | .approvalUnavailable => (.approvalUnavailable, none)
  | .approvalRejected => (.approvalRejected, none)
  | .expired => (.expired, none)
  | .cancelled => (.cancelled, none)
  | .completed => (.completed, none)
  | .alreadyInState => (.alreadyInState, none)
  | .rejected => (.rejected, none)
  | .superseded replacement => (.superseded, some replacement)
  | .indeterminate => (.indeterminate, none)

def StatusDto.status (supersededBy : Option ℕ) : StatusDto → Except String OperationStatus
  | .submitted => .ok .submitted
  | .allowed => .ok .allowed
  | .awaitingApproval => .ok .awaitingApproval
  | .approved => .ok .approved
  | .inSession => .ok .inSession
  | .denied => .ok .denied
  | .approvalUnavailable => .ok .approvalUnavailable
  | .approvalRejected => .ok .approvalRejected
  | .expired => .ok .expired
  | .cancelled => .ok .cancelled
  | .completed => .ok .completed
  | .alreadyInState => .ok .alreadyInState
  | .rejected => .ok .rejected
  | .superseded =>
    match supersededBy with
    | some replacement => .ok (.superseded replacement)
    | none => .error "a superseded operation names the one that replaced it"
  | .indeterminate => .ok .indeterminate

def OperationDto.of (snapshot : OperationSnapshot) : OperationDto :=
  let (status, supersededBy) := statusOf snapshot.status
  { id := snapshot.id
    receiver := snapshot.receiver.value
    intent := .of snapshot.intent
    status
    supersededBy
    dispatch := .of snapshot.dispatch
    confirmed := snapshot.confirmed
    reason := snapshot.reason
    observation := snapshot.observation }

def OperationDto.toSnapshot (dto : OperationDto) : Except String OperationSnapshot := do
  let status ← dto.status.status dto.supersededBy
  let receiver ← parseReceiverId dto.receiver
  let intent ← dto.intent.intent
  return {
    id := dto.id
    receiver
    intent
    status
    dispatch := dto.dispatch.certainty
    confirmed := dto.confirmed
    reason := dto.reason
    observation := dto.observation }

/-! ### There and back -/

@[simp] theorem SoundModeDto.mode_of (mode : SoundModeIntent) : (SoundModeDto.of mode).mode = mode := by
  cases mode <;> rfl

@[simp] theorem DispatchDto.certainty_of (dispatch : DispatchCertainty) : (DispatchDto.of dispatch).certainty = dispatch := by
  cases dispatch <;> rfl

@[simp] theorem IntentDto.intent_of (intent : ReceiverIntent) : (IntentDto.of intent).intent = .ok intent := by
  cases intent <;> simp [IntentDto.of, IntentDto.intent, Except.map]

@[simp] theorem StatusDto.status_of (status : OperationStatus) :
    (statusOf status).1.status (statusOf status).2 = .ok status := by
  cases status <;> rfl

/-- The wire form of a snapshot reads back as it. -/
theorem OperationDto.toSnapshot_of (snapshot : OperationSnapshot) : (OperationDto.of snapshot).toSnapshot = .ok snapshot := by
  unfold OperationDto.toSnapshot OperationDto.of
  simp only [StatusDto.status_of, parseReceiverId_value, IntentDto.intent_of, DispatchDto.certainty_of, bind, Except.bind,
    pure, Except.pure]

end DenonAvr.ApiContract
