import DenonAvr.Library.Machine
import DenonAvr.Session.Feed
import DenonAvr.Session.Reader

/-!
# The operate path

One call of `operate` on the session actor, from its first look at the request to its outcome. The control
points are the places where the code waits (`Pc`), and an action carries what it is given there: the reply of
the transport, the generation the transport shows, the clock, whether the requester is gone. What the code does
between two waits is one step.

The order is part of the session contract: admit the intent, re-observe the target, re-observe and compare the
precondition, see whether the target is there already, and only then write.
-/

namespace DenonAvr.Session

open Domain Protocol Library

structure OperationRequest where
  id : OperationId
  intent : ReceiverIntent
  precondition : Option Precondition
deriving DecidableEq

/-- The fields `verify_precondition` asks for: those of the precondition besides the target. -/
def OperationRequest.verifyFields (request : OperationRequest) : List CoreField :=
  request.precondition.elim [] fun p => p.fields.filter (· ≠ request.intent.field)

/-- The `Debug` text of a field. -/
def debugField : CoreField → String
  | .systemPower => "SystemPower"
  | .mainZonePower => "MainZonePower"
  | .zone2Power => "Zone2Power"
  | .source => "Source"
  | .volume => "Volume"
  | .mute => "Mute"
  | .soundMode => "SoundMode"

def dependencyFields : CoreField → List CoreField
  | .systemPower => [.systemPower, .mainZonePower, .source, .volume, .mute, .soundMode, .zone2Power]
  | .mainZonePower => [.mainZonePower, .source, .volume, .mute, .soundMode]
  | .source => [.source, .soundMode]
  | .volume => [.volume]
  | .mute => [.mute]
  | .soundMode => [.soundMode]
  | .zone2Power => [.zone2Power]

def admitIntent : ReceiverIntent → Except String Unit
  | .source source =>
    if supportsX3800hSource source.value then .ok ()
    else .error "source is not supported by the X3800H profile"
  | .soundMode (.select mode) =>
    if supportsX3800hSoundMode mode then .ok ()
    else .error "sound mode is not supported by the X3800H profile"
  | _ => .ok ()

def currentMatches {α : Type} (field : FieldState α) (predicate : α → Bool) : Bool :=
  match field.validity, field.lastGood with
  | .current _, some item => predicate item.value
  | _, _ => false

def soundModeMatches (id : String) : SoundModeIntent → Bool
  | .auto => eqIgnoreAsciiCase id "AUTO"
  | .direct => eqIgnoreAsciiCase id "DIRECT"
  | .pureDirect => eqIgnoreAsciiCase id "PURE DIRECT"
  | .stereo => eqIgnoreAsciiCase id "STEREO"
  | .recallMovie => x3800hSoundModeInCategory id .movie
  | .recallMusic => x3800hSoundModeInCategory id .music
  | .recallGame => x3800hSoundModeInCategory id .game
  | .select value => eqIgnoreAsciiCase id value

def stateMatches (state : ReceiverState) : ReceiverIntent → Bool
  | .systemPower value => currentMatches state.systemPower (· == value)
  | .mainZonePower value => currentMatches state.mainZone.power (· == value)
  | .zone2Power value => currentMatches state.zone2Power (· == value)
  | .source value => currentMatches state.mainZone.source (· == value)
  | .volume value => currentMatches state.mainZone.volume (· == value)
  | .mute value => currentMatches state.mainZone.mute (· == value)
  | .soundMode mode => currentMatches state.mainZone.soundMode fun item => soundModeMatches item.id mode

def describeMismatch : PreconditionMismatch → String
  | .epoch => "the receiver connection changed since the request was evaluated"
  | .field field => s!"{debugField field} no longer shows what the request was evaluated against"

/-! ### Control points -/

/-- What a query of the operate path is for. -/
inductive Purpose
  /-- The target, before anything else. -/
  | preflight
  /-- A field of the precondition, with the ones still to come. -/
  | verify (field : CoreField) (rest : List CoreField)
  /-- The target, after a write of which it is not known whether it was delivered. -/
  | ambiguous (error : AvrSessionError)
  /-- The target, in the confirmation window. -/
  | confirm
deriving DecidableEq

inductive Pc
  | start
  /-- About to run `query_and_reduce`. -/
  | ask (purpose : Purpose)
  /-- Its request is with the transport. -/
  | await (purpose : Purpose)
  /-- About to give the command to the transport. -/
  | send (command : AvrCommand)
  /-- The command is with the transport. -/
  | sent (command : AvrCommand)
  /-- Between two queries of the confirmation window. -/
  | pause
  | done (outcome : OperationOutcome)
deriving DecidableEq

structure Call where
  request : OperationRequest
  cycle : SyncCycleId
  feed : Feed
  pc : Pc := .start
deriving DecidableEq

inductive CallAction
  | begin (now : MonotonicMillis) (replyClosed : Bool)
  /-- The generation is read and the query handed to the transport. -/
  | ask (generation : ℕ)
  /-- The transport answers the query; then the generation, the clock, the requester and the deadline of the
  confirmation window are looked at. -/
  | answer (result : Except AvrSessionError String) (generation : ℕ) (now : MonotonicMillis)
      (replyClosed expired : Bool)
  | send
  | sent (result : Except AvrSessionError Unit)
  /-- The recheck interval passes. -/
  | wake
  /-- An event of the transport comes first, or its end. -/
  | event (event : Option SessionEvent) (now : MonotonicMillis)
deriving DecidableEq

namespace Call

def target (call : Call) : CoreField := call.request.intent.field

/-- `reject`. -/
def reject (call : Call) (cause : RejectionCause) (reason : String) : Pc :=
  .done (.rejectedBeforeDispatch call.request.id cause reason)

def indeterminate (call : Call) (dispatch : DispatchCertainty) (reason : String) : Pc :=
  .done (.indeterminate call.request.id dispatch reason)

def observed (call : Call) (dispatch : DispatchCertainty) (observation : String) : Pc :=
  .done (.observedRequestedValue call.request.id dispatch observation)

/-- The field a query is about. -/
def fieldOf (call : Call) : Purpose → CoreField
  | .verify field _ => field
  | .preflight | .ambiguous _ | .confirm => call.target

/-- Mark every dependency of the target. -/
def markAll (call : Call) (mark : Feed → CoreField → Feed) : Feed :=
  (dependencyFields call.target).foldl mark call.feed

/-- After everything was re-observed: see whether the target is there already, whether the requester still
waits, and what there is to send. -/
def beforeWrite (call : Call) (now : MonotonicMillis) (replyClosed : Bool) : Call :=
  if stateMatches call.feed.state call.request.intent then
    { call with
      feed := call.markAll fun feed field => feed.markSettled field call.cycle now
      pc := .done (.alreadyObserved call.request.id "targeted preflight observation") }
  else if replyClosed then { call with pc := .done (.cancelled call.request.id) }
  else
    match encode call.request.intent with
    | .ok command => { call with pc := .send command }
    | .error error => { call with pc := call.reject .commandRefused error.text }

/-- Ask for the next field of the precondition, or compare them all when there is none left. -/
def verifyNext (call : Call) (rest : List CoreField) (now : MonotonicMillis) (replyClosed : Bool) : Call :=
  match rest with
  | field :: rest => { call with pc := .ask (.verify field rest) }
  | [] =>
    match call.request.precondition.bind (·.mismatch call.feed.state) with
    | some mismatch =>
      { call with pc := call.reject (.preconditionMismatch mismatch) (describeMismatch mismatch) }
    | none => call.beforeWrite now replyClosed

/-- What follows a query that failed. -/
def queryFailed (call : Call) (purpose : Purpose) (error : AvrSessionError) : Call :=
  let text := operationErrorText error
  match purpose with
  | .preflight =>
    { call with
      feed := call.feed.markQueryFailed call.target text
      pc := call.reject .observationFailed s!"preflight failed: {text}" }
  | .verify field _ =>
    { call with
      feed := call.feed.markQueryFailed field text
      pc := call.reject .observationFailed
        s!"could not re-observe {debugField field} before writing: {text}" }
  | .ambiguous writeError =>
    let reason := s!"write began but delivery is ambiguous ({writeError.text}); confirmation failed: {text}"
    { call with pc := call.indeterminate .unknown reason }
  | .confirm =>
    { call with
      feed := call.feed.markQueryFailed call.target text
      pc := call.indeterminate .completeWrite s!"post-dispatch observation failed: {text}" }

/-- What follows a query that was answered, once the reply is reduced. -/
def queryAnswered (call : Call) (purpose : Purpose) (now : MonotonicMillis) (replyClosed expired : Bool) :
    Call :=
  match purpose with
  | .preflight => call.verifyNext call.request.verifyFields now replyClosed
  | .verify _ rest => call.verifyNext rest now replyClosed
  | .ambiguous error =>
    if stateMatches call.feed.state call.request.intent then
      { call with pc := call.observed .unknown "receiver observation after ambiguous write" }
    else
      { call with
        pc := call.indeterminate .unknown s!"write began but delivery is ambiguous: {error.text}" }
  | .confirm =>
    if stateMatches call.feed.state call.request.intent then
      { call with pc := call.observed .completeWrite "post-dispatch receiver observation" }
    else if expired then
      { call with
        pc := call.indeterminate .completeWrite
          "requested value was not observed within the confirmation window" }
    else { call with pc := .pause }

def begin (call : Call) (now : MonotonicMillis) (replyClosed : Bool) : Call :=
  if replyClosed then { call with pc := .done (.cancelled call.request.id) }
  else
    match admitIntent call.request.intent with
    | .error reason => { call with pc := call.reject .unsupportedIntent reason }
    | .ok () =>
      { call with
        feed := call.markAll fun feed field => feed.markConverging field .localControl call.cycle now
        pc := .ask .preflight }

/-- What follows the transport's answer to the command. -/
def dispatched (call : Call) : Except AvrSessionError Unit → Call
  | .ok () => { call with pc := .ask .confirm }
  | .error (.invalidCommand message) =>
    { call with pc := call.reject .commandRefused s!"command was not dispatched: {message}" }
  | .error .sessionStopped =>
    { call with pc := call.reject .sessionStopped "session stopped before command dispatch" }
  | .error error => { call with pc := .ask (.ambiguous error) }

/-- Whether the transport returns this as the answer to the query of a field: `request` gives back only a
line of the queried family. -/
def answers (field : CoreField) : Except AvrSessionError String → Bool
  | .ok line => responseMatches (familyOf field) line
  | .error _ => true

def step (call : Call) : CallAction → Option Call
  | .begin now replyClosed => if call.pc = .start then some (call.begin now replyClosed) else none
  | .ask generation =>
    match call.pc with
    | .ask purpose =>
      some { call with feed := call.feed.synchronizeGeneration generation, pc := .await purpose }
    | _ => none
  | .answer result generation now replyClosed expired =>
    match call.pc with
    | .await purpose =>
      if answers (call.fieldOf purpose) result then
        match result with
        | .error error => some (call.queryFailed purpose error)
        | .ok line =>
          let feed := ((call.feed.synchronizeGeneration generation).reduceLine now line true).1
          some ({ call with feed }.queryAnswered purpose now replyClosed expired)
      else none
    | _ => none
  | .send =>
    match call.pc with
    | .send command => some { call with pc := .sent command }
    | _ => none
  | .sent result =>
    match call.pc with
    | .sent _ => some (call.dispatched result)
    | _ => none
  | .wake => if call.pc = .pause then some { call with pc := .ask .confirm } else none
  | .event event now =>
    if call.pc = .pause then
      match event with
      | some event =>
        some { call with feed := (call.feed.applyEvent now event).1, pc := .ask .confirm }
      | none =>
        some { call with
          pc := call.indeterminate .completeWrite
            "receiver session stopped during confirmation window" }
    else none

end Call

/-- Every branch of `Call.step`, with the place it starts from. -/
inductive CallStep (call : Call) : CallAction → Call → Prop
  | begin (now : MonotonicMillis) (replyClosed : Bool) (hpc : call.pc = .start) :
      CallStep call (.begin now replyClosed) (call.begin now replyClosed)
  | ask (generation : ℕ) (purpose : Purpose) (hpc : call.pc = .ask purpose) :
      CallStep call (.ask generation)
        { call with feed := call.feed.synchronizeGeneration generation, pc := .await purpose }
  | failed (purpose : Purpose) (error : AvrSessionError) (generation : ℕ) (now : MonotonicMillis)
      (replyClosed expired : Bool) (hpc : call.pc = .await purpose)
      (hanswers : Call.answers (call.fieldOf purpose) (.error error) = true) :
      CallStep call (.answer (.error error) generation now replyClosed expired) (call.queryFailed purpose error)
  | answered (purpose : Purpose) (line : String) (generation : ℕ) (now : MonotonicMillis) (replyClosed expired : Bool)
      (hpc : call.pc = .await purpose) (hanswers : Call.answers (call.fieldOf purpose) (.ok line) = true) :
      CallStep call (.answer (.ok line) generation now replyClosed expired)
        ({ call with
          feed := ((call.feed.synchronizeGeneration generation).reduceLine now line true).1 }.queryAnswered purpose now
            replyClosed expired)
  | send (command : AvrCommand) (hpc : call.pc = .send command) : CallStep call .send { call with pc := .sent command }
  | sent (command : AvrCommand) (result : Except AvrSessionError Unit) (hpc : call.pc = .sent command) :
      CallStep call (.sent result) (call.dispatched result)
  | wake (hpc : call.pc = .pause) : CallStep call .wake { call with pc := .ask .confirm }
  | event (event : SessionEvent) (now : MonotonicMillis) (hpc : call.pc = .pause) :
      CallStep call (.event (some event) now)
        { call with feed := (call.feed.applyEvent now event).1, pc := .ask .confirm }
  | stopped (now : MonotonicMillis) (hpc : call.pc = .pause) :
      CallStep call (.event none now)
        { call with
          pc := call.indeterminate .completeWrite "receiver session stopped during confirmation window" }

theorem callStep_of_step {call call' : Call} {a : CallAction} (hstep : call.step a = some call') :
    CallStep call a call' := by
  cases a with
  | begin now replyClosed =>
    simp only [Call.step] at hstep
    split_ifs at hstep with hpc
    cases hstep
    exact .begin now replyClosed hpc
  | ask generation =>
    simp only [Call.step] at hstep
    split at hstep
    · rename_i purpose hpc
      cases hstep
      exact .ask generation purpose hpc
    · cases hstep
  | answer result generation now replyClosed expired =>
    simp only [Call.step] at hstep
    split at hstep
    · rename_i purpose hpc
      split_ifs at hstep with hanswers
      cases result with
      | error error =>
        cases hstep
        exact .failed purpose error generation now replyClosed expired hpc hanswers
      | ok line =>
        cases hstep
        exact .answered purpose line generation now replyClosed expired hpc hanswers
    · cases hstep
  | send =>
    simp only [Call.step] at hstep
    split at hstep
    · rename_i command hpc
      cases hstep
      exact .send command hpc
    · cases hstep
  | sent result =>
    simp only [Call.step] at hstep
    split at hstep
    · rename_i command hpc
      cases hstep
      exact .sent command result hpc
    · cases hstep
  | wake =>
    simp only [Call.step] at hstep
    split_ifs at hstep with hpc
    cases hstep
    exact .wake hpc
  | event event now =>
    simp only [Call.step] at hstep
    split_ifs at hstep with hpc
    cases event with
    | some event =>
      cases hstep
      exact .event event now hpc
    | none =>
      cases hstep
      exact .stopped now hpc

/-- One call of `operate`, begun on a given feed. -/
def operate (request : OperationRequest) (cycle : SyncCycleId) (feed : Feed) : Machine Call CallAction where
  init call := call = { request, cycle, feed }
  step := Call.step

/-- Raise the volume to -38 dB, as long as it is still -40 dB. -/
def raiseVolume : OperationRequest where
  id := 1
  intent := .volume (.dbHalfSteps minus38)
  precondition := some ((Precondition.new 1).with_ (.value (.volume (.dbHalfSteps minus40))))

end DenonAvr.Session
