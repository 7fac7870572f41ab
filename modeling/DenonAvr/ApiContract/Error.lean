import DenonAvr.ApiContract.Operations

/-!
# Errors on the wire

`ApiError.of` is what a server makes of a `ControlError`, and `intoControlError` what a client makes of the answer. The
caller of the port is to see the same error on either side, but for what the wire has no room for: the wording of what was
not found, fractions of a second, the context of a session's error (`normalised`).

A delay is a count of units of which `second` are a second. Whole seconds are written as 64 bits, and a fraction on top of
the greatest number of them is lost, with all the rest.
-/

namespace DenonAvr.ApiContract

open Domain Application

def notFoundWords : List String := ["receiver", "operation", "token"]

def clientContext : String := "control service"

structure ErrorDetail where
  code : String
  message : String
  /-- What was not found. -/
  what : Option String := none
  /-- The kind of the session's error. -/
  kind : Option String := none
  /-- Whole seconds to wait, rounded up. -/
  retryAfterSecs : Option ℕ := none
  /-- The operation as it actually is. -/
  operation : Option OperationDto := none
deriving DecidableEq

/-- A status and the body that goes with it. -/
structure ApiError where
  status : ℕ
  error : ErrorDetail
deriving DecidableEq

def kindName : OperationErrorKind → String
  | .configuration => "configuration"
  | .discovery => "discovery"
  | .invalidSelection => "invalid_selection"
  | .connection => "connection"
  | .timeout => "timeout"
  | .disconnected => "disconnected"
  | .malformed => "malformed"
  | .unavailable => "unavailable"
  | .unsupported => "unsupported"
  | .stopped => "stopped"
  | .conflict => "conflict"

def allKinds : List OperationErrorKind :=
  [.configuration, .discovery, .invalidSelection, .connection, .timeout, .disconnected, .malformed, .unavailable,
    .unsupported, .stopped, .conflict]

def parseKind (name : String) : Option OperationErrorKind := allKinds.find? fun kind => kindName kind == name

/-- What a `ControlError` is shown as. -/
def controlErrorText : ControlError → String
  | .notFound what => what ++ " not found"
  | .forbidden => "not permitted"
  | .invalidRequest message => "invalid request: " ++ message
  | .unavailable message => "service unavailable: " ++ message
  | .tooLate snapshot => "too late to cancel: operation is " ++ snapshot.status.text
  | .rateLimited _ => "rate limited"
  | .receiver error => error.text

/-- `duration.as_secs() + u64::from(duration.subsec_nanos() > 0)`, a sum of 64 bits that wraps (or panics, in a build that
checks for it). -/
def wholeSecondsRoundedUp (second : ℕ+) (delay : ℕ) : ℕ :=
  (delay / second + if 0 < delay % second then 1 else 0) % 2 ^ 64

def ApiError.of (second : ℕ+) (error : ControlError) : ApiError :=
  match error with
  | .notFound what => ⟨404, { code := "not_found", message := controlErrorText error, what := some what }⟩
  | .forbidden => ⟨403, { code := "forbidden", message := "not permitted" }⟩
  | .invalidRequest message => ⟨400, { code := "invalid_request", message }⟩
  | .unavailable message => ⟨503, { code := "unavailable", message }⟩
  | .tooLate snapshot =>
    ⟨409, { code := "too_late", message := controlErrorText error, operation := some (.of snapshot) }⟩
  | .rateLimited retryAfter =>
    ⟨429, {
      code := "rate_limited"
      message := "rate limited"
      retryAfterSecs := retryAfter.map (wholeSecondsRoundedUp second) }⟩
  | .receiver inner => ⟨502, { code := "receiver_error", message := inner.text, kind := some (kindName inner.kind) }⟩

/-- `Duration::from_secs`. -/
def fromSecs (second : ℕ+) (secs : ℕ) : ℕ := secs * second

/-- The client's reading of an error response. -/
def ApiError.intoControlError (second : ℕ+) (api : ApiError) : ControlError :=
  let detail := api.error
  match detail.code with
  | "not_found" => .notFound ((notFoundWords.find? fun word => some word == detail.what).getD "resource")
  | "forbidden" | "unauthenticated" => .forbidden
  | "invalid_request" => .invalidRequest detail.message
  | "unavailable" | "shutting_down" => .unavailable detail.message
  | "too_late" =>
    match detail.operation.map OperationDto.toSnapshot with
    | some (.ok snapshot) => .tooLate snapshot
    | _ => .unavailable "the server's answer could not be read"
  | "rate_limited" | "too_many_streams" => .rateLimited (detail.retryAfterSecs.map (fromSecs second))
  | "receiver_error" =>
    .receiver {
      kind := (detail.kind.bind parseKind).getD .unavailable
      context := clientContext
      message := detail.message }
  | _ =>
    -- codes that a server adds outside the port read as an invalid request, except by status
    if api.status = 401 ∨ api.status = 403 then .forbidden
    else if api.status = 404 then .notFound "resource"
    else if api.status = 429 then .rateLimited (detail.retryAfterSecs.map (fromSecs second))
    else if 500 ≤ api.status ∧ api.status ≤ 599 then .unavailable detail.message
    else .invalidRequest detail.message

/-! ### What the wire has no room for -/

/-- The least number of whole seconds that is not shorter. -/
def roundedUp (second : ℕ+) (delay : ℕ) : ℕ := (delay + second - 1) / second

/-- An error as it is seen behind the wire. -/
def normalised (second : ℕ+) : ControlError → ControlError
  | .notFound what => .notFound (if what ∈ notFoundWords then what else "resource")
  | .rateLimited retryAfter => .rateLimited (retryAfter.map fun delay => roundedUp second delay * second)
  | .receiver error => .receiver ⟨error.kind, clientContext, error.text⟩
  | error => error

/-- An error is seen behind the wire as it was, but for what the wire has no room for, and no delay is shorter. -/
structure RoundTrips (second : ℕ+) (error : ControlError) : Prop where
  back : (ApiError.of second error).intoControlError second = normalised second error
  notShorter : ∀ delay, error = .rateLimited (some delay) →
    ∃ delay', (ApiError.of second error).intoControlError second = .rateLimited (some delay') ∧ delay ≤ delay'

/-- The whole seconds of the delay, rounded up, are a number of 64 bits. -/
def delayFits (second : ℕ+) : ControlError → Bool
  | .rateLimited (some delay) => decide (delay ≤ (2 ^ 64 - 1) * second)
  | _ => true

section RoundTrip
variable {second : ℕ+} {delay : ℕ}

theorem roundedUp_eq : delay / second + (if 0 < delay % second then 1 else 0) = roundedUp second delay := by
  have hpos : 0 < (second : ℕ) := second.pos
  have hdelay := Nat.div_add_mod delay second
  have hlt := Nat.mod_lt delay hpos
  symm
  unfold roundedUp
  generalize delay / (second : ℕ) = q at hdelay ⊢
  generalize delay % (second : ℕ) = r at hdelay hlt ⊢
  have hsum : delay + second - 1 = r + second - 1 + second * q := by omega
  rw [hsum, Nat.add_mul_div_left _ _ hpos, add_comm]
  congr 1
  split_ifs with hr
  · rw [show r + (second : ℕ) - 1 = r - 1 + second by omega, Nat.add_div_right _ hpos, Nat.div_eq_of_lt (by omega)]
  · rw [show r = 0 by omega, Nat.div_eq_of_lt (by omega)]

theorem wholeSecondsRoundedUp_eq : wholeSecondsRoundedUp second delay = roundedUp second delay % 2 ^ 64 := by
  unfold wholeSecondsRoundedUp
  rw [roundedUp_eq]

theorem le_roundedUp : delay ≤ roundedUp second delay * second := by
  have hpos : 0 < (second : ℕ) := second.pos
  unfold roundedUp
  have hlt := Nat.lt_div_mul_add (a := delay + second - 1) hpos
  omega

theorem roundedUp_lt_iff : roundedUp second delay < 2 ^ 64 ↔ delay ≤ (2 ^ 64 - 1) * second := by
  have hpos : 0 < (second : ℕ) := second.pos
  unfold roundedUp
  rw [Nat.div_lt_iff_lt_mul hpos]
  omega

theorem kind_of (kind : OperationErrorKind) : parseKind (kindName kind) = some kind := by
  cases kind <;> decide

theorem find_notFoundWords (what : String) :
    (notFoundWords.find? fun word => some word == some what).getD "resource" =
      if what ∈ notFoundWords then what else "resource" := by
  split_ifs with h
  · have hall : ∀ word ∈ notFoundWords, (notFoundWords.find? fun w => some w == some word).getD "resource" = word := by
      decide
    exact hall what h
  · have hnone : (notFoundWords.find? fun word => some word == some what) = none := by
      rw [List.find?_eq_none]
      intro word hword heq
      obtain rfl : word = what := by simpa using heq
      exact h hword
    rw [hnone]
    rfl

theorem back_of_ne {error : ControlError} (h : ∀ retryAfter, error ≠ .rateLimited retryAfter) :
    (ApiError.of second error).intoControlError second = normalised second error := by
  cases error with
  | notFound what => exact congrArg ControlError.notFound (find_notFoundWords what)
  | forbidden => rfl
  | invalidRequest message => rfl
  | unavailable message => rfl
  | tooLate snapshot =>
    simp only [ApiError.of, ApiError.intoControlError, Option.map_some, OperationDto.toSnapshot_of]
    rfl
  | rateLimited retryAfter => exact absurd rfl (h retryAfter)
  | receiver inner =>
    show ControlError.receiver ⟨(parseKind (kindName inner.kind)).getD .unavailable, clientContext, inner.text⟩ = _
    rw [kind_of]
    rfl

theorem back_rateLimited (retryAfter : Option ℕ) :
    (ApiError.of second (.rateLimited retryAfter)).intoControlError second =
      .rateLimited (retryAfter.map fun delay => roundedUp second delay % 2 ^ 64 * second) := by
  show ControlError.rateLimited ((retryAfter.map (wholeSecondsRoundedUp second)).map (fromSecs second)) = _
  rw [Option.map_map]
  congr 2
  funext delay
  show wholeSecondsRoundedUp second delay * second = _
  rw [wholeSecondsRoundedUp_eq]

/-- **Errors round trip**, all but the delays whose whole seconds do not fit. -/
theorem roundTrips_iff (second : ℕ+) (error : ControlError) : RoundTrips second error ↔ delayFits second error = true := by
  by_cases hlimited : ∀ retryAfter, error ≠ .rateLimited retryAfter
  · refine iff_of_true ⟨back_of_ne hlimited, fun delay heq => absurd heq (hlimited _)⟩ ?_
    cases error with
    | rateLimited retryAfter => exact absurd rfl (hlimited retryAfter)
    | _ => rfl
  · push Not at hlimited
    obtain ⟨retryAfter, rfl⟩ := hlimited
    cases retryAfter with
    | none => exact iff_of_true ⟨back_rateLimited none, fun delay heq => by cases heq⟩ rfl
    | some delay =>
      have hback : (ApiError.of second (.rateLimited (some delay))).intoControlError second =
          .rateLimited ((some delay).map fun delay => roundedUp second delay % 2 ^ 64 * second) := back_rateLimited (some delay)
      have hfits : delayFits second (.rateLimited (some delay)) = true ↔ roundedUp second delay < 2 ^ 64 := by
        rw [roundedUp_lt_iff]
        exact decide_eq_true_iff
      rw [hfits]
      constructor
      · intro h
        have heq : some (roundedUp second delay % 2 ^ 64 * second) = some (roundedUp second delay * second) :=
          ControlError.rateLimited.inj (hback.symm.trans h.back)
        have hmod := Nat.eq_of_mul_eq_mul_right second.pos (Option.some.inj heq)
        rw [← hmod]
        exact Nat.mod_lt _ (by decide)
      · intro hlt
        rw [Option.map_some, Nat.mod_eq_of_lt hlt] at hback
        refine ⟨hback, fun delay' heq => ⟨_, hback, ?_⟩⟩
        obtain rfl := Option.some.inj (ControlError.rateLimited.inj heq)
        exact le_roundedUp

end RoundTrip

/-- A nanosecond more than the greatest number of whole seconds. -/
def overlong : ControlError := .rateLimited (some ((2 ^ 64 - 1) * 1000000000 + 1))

/-- The client is told not to wait. -/
theorem not_roundTrips_overlong :
    (ApiError.of 1000000000 overlong).intoControlError 1000000000 = .rateLimited (some 0) ∧
      ¬ RoundTrips 1000000000 overlong := by
  have hback : (ApiError.of 1000000000 overlong).intoControlError 1000000000 = .rateLimited (some 0) := by
    decide
  refine ⟨hback, fun h => ?_⟩
  obtain ⟨delay', hdelay', hle⟩ := h.notShorter _ rfl
  rw [hback] at hdelay'
  cases hdelay'
  exact absurd hle (by decide)

end DenonAvr.ApiContract
