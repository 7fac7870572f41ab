import DenonAvr.Domain.Precondition

/-!
# The control port

What callers and the service exchange: who calls, what is asked, where an operation is in its life, and how a
request is refused.
-/

namespace DenonAvr.Application

open Domain

def maxLabelLen : ℕ := 64
def maxKeyLen : ℕ := 128

/-- `validate_text`: visible text of at most `max` bytes without control characters. -/
def validateText (value : String) (max : ℕ) : Bool :=
  !isBlank value && !value.toList.any isControl && decide (value.utf8ByteSize ≤ max)

/-- The label an agent's token is registered under. -/
structure AgentLabel where
  value : String
  valid : validateText value maxLabelLen = true
deriving DecidableEq

/-- Makes a retry of the same request find the operation it made before. -/
structure IdempotencyKey where
  value : String
  valid : validateText value maxKeyLen = true
deriving DecidableEq

/-- Who is calling. -/
inductive Principal
  | operator
  | agent (label : AgentLabel)
deriving DecidableEq

structure OperationSubmission where
  intent : ReceiverIntent
  idempotencyKey : Option IdempotencyKey := none
deriving DecidableEq

inductive OperationStatus
  | submitted
  | allowed
  | awaitingApproval
  | approved
  /-- The session is executing it. It can no longer be cancelled. -/
  | inSession
  | denied
  | approvalUnavailable
  | approvalRejected
  | expired
  | cancelled
  | completed
  | alreadyInState
  | rejected
  | superseded (replacement : OperationId)
  | indeterminate
deriving DecidableEq

namespace OperationStatus

/-- Whether the operation has finished. -/
def isTerminal : OperationStatus → Bool
  | submitted | allowed | awaitingApproval | approved | inSession => false
  | _ => true

/-- `is_cancellable`. -/
def isCancellable : OperationStatus → Bool
  | submitted | allowed | awaitingApproval | approved => true
  | _ => false

/-- The stable name. -/
def text : OperationStatus → String
  | submitted => "submitted"
  | allowed => "allowed"
  | awaitingApproval => "awaiting_approval"
  | approved => "approved"
  | inSession => "in_session"
  | denied => "denied"
  | approvalUnavailable => "approval_unavailable"
  | approvalRejected => "approval_rejected"
  | expired => "expired"
  | cancelled => "cancelled"
  | completed => "completed"
  | alreadyInState => "already_in_state"
  | rejected => "rejected"
  | superseded _ => "superseded"
  | indeterminate => "indeterminate"

end OperationStatus

/-- One operation as its readers see it. -/
structure OperationSnapshot where
  id : OperationId
  receiver : ReceiverId
  intent : ReceiverIntent
  status : OperationStatus
  dispatch : DispatchCertainty := .notDispatched
  confirmed : Bool := false
  reason : Option String := none
  observation : Option String := none
deriving DecidableEq

inductive OperationErrorKind
  | configuration | discovery | invalidSelection | connection | timeout | disconnected | malformed | unavailable
  | unsupported | stopped | conflict
deriving DecidableEq

/-- How a port below the service fails. -/
structure OperationError where
  kind : OperationErrorKind
  context : String
  message : String
deriving DecidableEq

/-- What an error is shown as. -/
def OperationError.text (error : OperationError) : String := error.context ++ ": " ++ error.message

/-- How a request is refused. -/
inductive ControlError
  | notFound (what : String)
  | forbidden
  | invalidRequest (message : String)
  | unavailable (message : String)
  | tooLate (snapshot : OperationSnapshot)
  | rateLimited (retryAfter : Option ℕ)
  | receiver (error : OperationError)
deriving DecidableEq

end DenonAvr.Application
