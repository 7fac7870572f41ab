import DenonAvr.Session.Operate

/-!
# The session at its boundary

Three parties of one session. Callers put commands into the mailbox of the actor, stop waiting, or close the
session; the actor runs one operation at a time; the transport takes requests from a queue of its own and writes
them. They meet in the mailbox, the request queue and the one-shot channels of the replies, and the close can end
the actor, and with it the transport, at any of their waits.

`wire` records the calls of whose state-changing command a byte was written. The question is whether an outcome
that denies the dispatch is true (`Honest`): of everything written before the return and of everything after it.
-/

namespace DenonAvr.Session

open Domain Protocol Library

/-! ### The parties -/

/-- What callers put into the mailbox. A call is known by its number. -/
inductive Command
  | operate (call : ℕ) (request : OperationRequest)
  /-- `Observe` and `Synchronize`: the actor asks for fields. -/
  | refresh
  | close
deriving DecidableEq

/-- What the actor puts into the transport's queue. -/
inductive Request
  | query (field : CoreField)
  | dispatch (call : ℕ) (command : AvrCommand)
deriving DecidableEq

/-- Where the actor is (`run_actor`). -/
inductive Actor
  | idle
  /-- It has asked for a field on its own account. -/
  | asking (field : CoreField)
  | operating (number : ℕ) (call : Call)
  /-- It has taken the close and waits for the transport to end. -/
  | closing
  | ended
deriving DecidableEq

/-- Where the transport is (`run_session`). -/
inductive Transport
  | waiting
  /-- It has taken a request; `begun` when a byte of it was written. -/
  | writing (request : Request) (begun : Bool)
  | responding (field : CoreField)
  /-- The connection is lost and being made again. -/
  | down
  | stopped
deriving DecidableEq

structure X3800hSession where
  mailbox : List Command := []
  mailboxOpen : Bool := true
  /-- `close` was called. -/
  closed : Bool := false
  /-- That close still waits for its reply. -/
  closePending : Bool := false
  actor : Actor := .idle
  feed : Feed
  cycle : SyncCycleId := 0
  requests : List Request := []
  transport : Transport := .waiting
  /-- The transport's task was aborted and ends at its next wait. -/
  aborted : Bool := false
  /-- The reply to the query with the transport. -/
  response : Option (Except AvrSessionError String) := none
  /-- The reply to the command with the transport. -/
  dispatched : Option (Except AvrSessionError Unit) := none
  nextCall : ℕ := 0
  /-- The calls whose caller still waits, each with the operation it is for. -/
  waiting : List (ℕ × OperationId) := []
  returned : List (ℕ × OperationOutcome) := []
  wire : List ℕ := []
deriving DecidableEq

inductive CallerAction
  | operate (request : OperationRequest)
  | refresh
  | close
  /-- The caller gives up waiting. -/
  | drop (call : ℕ)
  /-- The caller finds its reply channel closed. -/
  | abandoned (call : ℕ) (operation : OperationId)
  /-- The close has waited long enough and ends the actor's task. -/
  | abort
deriving DecidableEq

inductive ActorAction
  | receive
  /-- Every handle on the session is gone. -/
  | released
  /-- It asks for a field on its own account; some of these are marked before. -/
  | ask (field : CoreField) (mark : Option (SyncCause × MonotonicMillis)) (generation : ℕ)
  | answer (generation : ℕ) (now : MonotonicMillis)
  | event (event : Option SessionEvent) (now : MonotonicMillis)
  | sweep (now : MonotonicMillis)
  | begin (now : MonotonicMillis)
  | callAsk (generation : ℕ)
  | callAnswer (generation : ℕ) (now : MonotonicMillis) (expired : Bool)
  | callSend
  | callSent
  | callWake
  | callEvent (event : Option SessionEvent) (now : MonotonicMillis)
  | finish
  | closeDone
deriving DecidableEq

inductive TransportAction
  | take
  /-- The first byte of the request is written. -/
  | write
  | written
  | writeFailed (timedOut : Bool) (message : String)
  | respond (result : Except AvrSessionError String)
  /-- The connection fails while the transport waits for a request. -/
  | lose
  | reconnect
  /-- Every attempt to reconnect has failed. -/
  | giveUp
  /-- The abort takes effect. -/
  | kill
deriving DecidableEq

inductive SessionAction
  | caller (action : CallerAction)
  | actor (action : ActorAction)
  | transport (action : TransportAction)
deriving DecidableEq

namespace X3800hSession

def mailboxCapacity : ℕ := 32

def mailboxHasRoom (s : X3800hSession) : Bool := s.mailbox.length < mailboxCapacity

/-- What a caller is told whose command was not taken or whose reply never came. -/
def neverDispatched (operation : OperationId) (reason : String) : OperationOutcome :=
  .indeterminate operation .notDispatched reason

/-- `reply.is_closed()`. -/
def replyClosed (s : X3800hSession) (call : ℕ) : Bool := !s.waiting.any (·.1 = call)

def stopWaiting (s : X3800hSession) (call : ℕ) : List (ℕ × OperationId) := s.waiting.filter (·.1 ≠ call)

/-- The actor's task ends: its mailbox goes with it, and the handle of the transport, which aborts its task. -/
def endActor (s : X3800hSession) : X3800hSession :=
  { s with actor := .ended, mailbox := [], mailboxOpen := false, closePending := false, aborted := true }

def stepCaller (s : X3800hSession) : CallerAction → Option X3800hSession
  | .operate request =>
    if s.mailboxOpen = false then
      some { s with
        returned := s.returned ++
          [(s.nextCall, neverDispatched request.id "receiver session stopped before operation admission")]
        nextCall := s.nextCall + 1 }
    else if s.mailboxHasRoom then
      some { s with
        mailbox := s.mailbox ++ [.operate s.nextCall request]
        waiting := (s.nextCall, request.id) :: s.waiting
        nextCall := s.nextCall + 1 }
    else none
  | .refresh =>
    if s.mailboxOpen = true ∧ s.mailboxHasRoom = true then
      some { s with mailbox := s.mailbox ++ [.refresh] }
    else none
  | .close =>
    if s.closed then some s
    else if s.mailboxOpen = false then some { s with closed := true }
    else if s.mailboxHasRoom then
      some { s with mailbox := s.mailbox ++ [.close], closed := true, closePending := true }
    else none
  | .drop call => some { s with waiting := s.stopWaiting call }
  | .abandoned call operation =>
    -- The sender of the reply went with the actor or with its mailbox.
    if s.actor = .ended ∧ (call, operation) ∈ s.waiting then
      some { s with
        returned := s.returned ++
          [(call, neverDispatched operation "receiver session stopped before operation completion")]
        waiting := s.stopWaiting call }
    else none
  | .abort => if s.closePending = true ∧ s.actor ≠ .ended then some s.endActor else none

/-- Hand a query to the transport, with a fresh channel for its reply. -/
def askFor (s : X3800hSession) (field : CoreField) : X3800hSession :=
  { s with
    requests := if s.transport = .stopped then s.requests else s.requests ++ [.query field]
    response := none }

/-- Hand a command to the transport, with a fresh channel for its reply. -/
def dispatch (s : X3800hSession) (call : ℕ) (command : AvrCommand) : X3800hSession :=
  { s with
    requests := if s.transport = .stopped then s.requests else s.requests ++ [.dispatch call command]
    dispatched := none }

/-- What is found in a reply channel: the reply, or that the transport has gone without one. -/
def reply? {α : Type} (s : X3800hSession) (channel : Option (Except AvrSessionError α)) :
    Option (Except AvrSessionError α) :=
  match channel with
  | some reply => some reply
  | none => if s.transport = .stopped then some (.error .sessionStopped) else none

/-- The call in progress takes the step `a`. -/
def stepCall (s : X3800hSession) (a : ℕ → CallAction) (also : X3800hSession → ℕ → Call → X3800hSession) :
    Option X3800hSession :=
  match s.actor with
  | .operating number call =>
    (call.step (a number)).map fun next => { also s number call with actor := .operating number next }
  | _ => none

def stepActor (s : X3800hSession) : ActorAction → Option X3800hSession
  | .receive =>
    match s.actor, s.mailbox with
    | .idle, .operate number request :: mailbox =>
      some { s with
        mailbox
        cycle := s.cycle + 1
        actor := .operating number { request, cycle := s.cycle + 1, feed := s.feed } }
    | .idle, .refresh :: mailbox => some { s with mailbox, cycle := s.cycle + 1 }
    | .idle, .close :: mailbox => some { s with mailbox, actor := .closing, aborted := true }
    | _, _ => none
  | .released =>
    if s.actor = .idle ∧ s.mailbox = [] ∧ s.waiting = [] ∧ s.closePending = false then
      some { s with actor := .closing, mailboxOpen := false, aborted := true }
    else none
  | .ask field mark generation =>
    if s.actor = .idle then
      let marked := mark.elim s.feed fun (cause, now) => s.feed.markConverging field cause s.cycle now
      some { s.askFor field with actor := .asking field, feed := marked.synchronizeGeneration generation }
    else none
  | .answer generation now =>
    match s.actor, s.reply? s.response with
    | .asking field, some (.error error) =>
      some { s with actor := .idle, feed := s.feed.markQueryFailed field (operationErrorText error) }
    | .asking field, some (.ok line) =>
      let feed := ((s.feed.synchronizeGeneration generation).reduceLine now line true).1
      some { s with actor := .idle, feed := feed.markSettled field s.cycle now }
    | _, _ => none
  | .event (some event) now =>
    if s.actor = .idle then some { s with feed := (s.feed.applyEvent now event).1 } else none
  | .event none _ => if s.actor = .idle ∧ s.transport = .stopped then some s.endActor else none
  | .sweep now => if s.actor = .idle then some { s with feed := s.feed.expire now, cycle := s.cycle + 1 } else none
  | .begin now => s.stepCall (fun number => .begin now (s.replyClosed number)) fun s _ _ => s
  | .callAsk generation =>
    s.stepCall (fun _ => .ask generation) fun s _ call =>
      match call.pc with
      | .ask purpose => s.askFor (call.fieldOf purpose)
      | _ => s
  | .callAnswer generation now expired =>
    (s.reply? s.response).bind fun result =>
      s.stepCall (fun number => .answer result generation now (s.replyClosed number) expired) fun s _ _ => s
  | .callSend =>
    s.stepCall (fun _ => .send) fun s number call =>
      match call.pc with
      | .send command => s.dispatch number command
      | _ => s
  | .callSent => (s.reply? s.dispatched).bind fun result => s.stepCall (fun _ => .sent result) fun s _ _ => s
  | .callWake => s.stepCall (fun _ => .wake) fun s _ _ => s
  | .callEvent event now =>
    if event.isNone ∧ s.transport ≠ .stopped then none
    else s.stepCall (fun _ => .event event now) fun s _ _ => s
  | .finish =>
    match s.actor with
    | .operating number { pc := .done outcome, feed, .. } =>
      some { s with
        actor := .idle
        feed
        returned := if s.replyClosed number then s.returned else s.returned ++ [(number, outcome)]
        waiting := s.stopWaiting number }
    | _ => none
  | .closeDone => if s.actor = .closing ∧ s.transport = .stopped then some s.endActor else none

def writeError (timedOut : Bool) (message : String) : AvrSessionError :=
  if timedOut then .timeout message else .disconnected message

def stepTransport (s : X3800hSession) : TransportAction → Option X3800hSession
  | .take =>
    match s.transport, s.requests with
    | .waiting, request :: requests => some { s with requests, transport := .writing request false }
    | _, _ => none
  | .write =>
    match s.transport with
    | .writing (.query field) false => some { s with transport := .writing (.query field) true }
    | .writing (.dispatch call command) false =>
      some { s with transport := .writing (.dispatch call command) true, wire := call :: s.wire }
    | _ => none
  | .written =>
    match s.transport with
    | .writing (.query field) true => some { s with transport := .responding field }
    | .writing (.dispatch _ _) true => some { s with transport := .waiting, dispatched := some (.ok ()) }
    | _ => none
  | .writeFailed timedOut message =>
    match s.transport with
    | .writing (.query _) _ =>
      some { s with transport := .down, response := some (.error (writeError timedOut message)) }
    | .writing (.dispatch _ _) _ =>
      some { s with transport := .down, dispatched := some (.error (writeError timedOut message)) }
    | _ => none
  | .respond result =>
    match s.transport with
    | .responding field =>
      if Call.answers field result then
        match result with
        | .error (.timeout _) | .error (.disconnected _) | .error (.malformedFrame _) =>
          some { s with transport := .down, response := some result }
        | _ => some { s with transport := .waiting, response := some result }
      else none
    | _ => none
  | .lose => if s.transport = .waiting then some { s with transport := .down } else none
  | .reconnect => if s.transport = .down then some { s with transport := .waiting } else none
  | .giveUp => if s.transport = .down then some { s with transport := .stopped, requests := [] } else none
  | .kill =>
    if s.aborted = true ∧ s.transport ≠ .stopped then some { s with transport := .stopped, requests := [] }
    else none

def step (s : X3800hSession) : SessionAction → Option X3800hSession
  | .caller action => s.stepCaller action
  | .actor action => s.stepActor action
  | .transport action => s.stepTransport action

end X3800hSession

/-- A connected session. -/
def x3800hSession (receiver : ReceiverId) : Machine X3800hSession SessionAction where
  init s := s = { feed := Feed.new receiver }
  step := X3800hSession.step

/-! ### What is asked of it -/

/-- The outcome says that the state-changing command was not dispatched. -/
def deniesDispatch : OperationOutcome → Bool
  | .alreadyObserved _ _ | .rejectedBeforeDispatch _ _ _ | .cancelled _ | .supersededBeforeDispatch _ _ => true
  | .observedRequestedValue _ dispatch _ | .indeterminate _ dispatch _ => dispatch = .notDispatched

/-- No byte was written for a call whose outcome denies it. -/
def Honest (s : X3800hSession) : Prop :=
  ∀ call outcome, (call, outcome) ∈ s.returned → deniesDispatch outcome = true → call ∉ s.wire

/-- The step breaks off a call of which something was written, or writes the first byte for a call that was
broken off. -/
def breaksOff (s : X3800hSession) : SessionAction → Bool
  | .caller .abort =>
    match s.actor with
    | .operating number _ => number ∈ s.wire && !s.replyClosed number
    | _ => false
  | .transport .write =>
    match s.transport with
    | .writing (.dispatch _ _) _ => s.actor = .ended
    | _ => false
  | _ => false

/-! ### What a call keeps -/

/-- The call has handed its command to the transport and does not deny it. -/
def Pc.handedOver : Pc → Bool
  | .sent _ | .pause | .ask (.ambiguous _) | .await (.ambiguous _) | .ask .confirm | .await .confirm => true
  | .done outcome => !deniesDispatch outcome
  | _ => false

/-- What the transport answers a command with: it was written, or the writing failed. -/
def Credible : Except AvrSessionError Unit → Prop
  | .ok () | .error (.timeout _) | .error (.disconnected _) => True
  | _ => False

section Call
variable {call call' : Call} {a : CallAction} {command : AvrCommand}

theorem step_send_eq_some (h : call.step .send = some call') :
    ∃ command, call.pc = .send command ∧ call' = { call with pc := .sent command } := by
  cases callStep_of_step h with
  | send command hpc => exact ⟨command, hpc, rfl⟩

theorem beforeWrite_pc_ne_sent (now : MonotonicMillis) (replyClosed : Bool) :
    (call.beforeWrite now replyClosed).pc ≠ .sent command := by
  unfold Call.beforeWrite
  split_ifs
  · simp
  · simp
  · split <;> simp [Call.reject]

theorem verifyNext_pc_ne_sent (rest : List CoreField) (now : MonotonicMillis) (replyClosed : Bool) :
    (call.verifyNext rest now replyClosed).pc ≠ .sent command := by
  unfold Call.verifyNext
  split
  · simp
  · split
    · simp [Call.reject]
    · exact beforeWrite_pc_ne_sent now replyClosed

/-- Only the step that hands the command over leads to waiting for its reply. -/
theorem step_pc_ne_sent (h : call.step a = some call') (hsend : a ≠ .send) : call'.pc ≠ .sent command := by
  cases callStep_of_step h with
  | send => exact absurd rfl hsend
  | begin now replyClosed =>
    unfold Call.begin
    split_ifs
    · simp
    · split <;> simp [Call.reject]
  | failed purpose => cases purpose <;> simp [Call.queryFailed, Call.reject, Call.indeterminate]
  | answered purpose line generation now replyClosed =>
    cases purpose with
    | preflight => exact verifyNext_pc_ne_sent _ now replyClosed
    | verify field rest => exact verifyNext_pc_ne_sent _ now replyClosed
    | ambiguous error =>
      unfold Call.queryAnswered
      dsimp only
      split_ifs <;> simp [Call.observed, Call.indeterminate]
    | confirm =>
      unfold Call.queryAnswered
      dsimp only
      split_ifs <;> simp [Call.observed, Call.indeterminate]
  | sent command result =>
    unfold Call.dispatched
    split <;> simp [Call.reject]
  | ask | wake | event => simp
  | stopped => simp [Call.indeterminate]

/-- **A command once handed over is not denied**, whatever the call is given next, as long as the transport
answers for what it does. -/
theorem handedOver_step (h : call.step a = some call') (hover : call.pc.handedOver = true)
    (hsent : ∀ result, a = .sent result → Credible result) : call'.pc.handedOver = true := by
  cases callStep_of_step h with
  | begin now replyClosed hpc =>
    rw [hpc] at hover
    cases hover
  | ask generation purpose hpc =>
    rw [hpc] at hover
    cases purpose <;> first | rfl | cases hover
  | failed purpose error generation now replyClosed expired hpc =>
    rw [hpc] at hover
    cases purpose <;> first | rfl | cases hover
  | answered purpose line generation now replyClosed expired hpc =>
    rw [hpc] at hover
    cases purpose with
    | preflight => cases hover
    | verify field rest => cases hover
    | ambiguous error =>
      unfold Call.queryAnswered
      dsimp only
      split_ifs <;> rfl
    | confirm =>
      unfold Call.queryAnswered
      dsimp only
      split_ifs <;> rfl
  | sent command result =>
    have hcredible := hsent result rfl
    unfold Call.dispatched
    split
    · rfl
    · cases hcredible
    · cases hcredible
    · rfl
  | send | wake | event | stopped => rfl

end Call

/-! ### What every run keeps -/

/-- The call a command of the mailbox is. -/
def Command.call? : Command → Option ℕ
  | .operate call _ => some call
  | _ => none

/-- The call and the command a request is for. -/
def Request.dispatch? : Request → Option (ℕ × AvrCommand)
  | .dispatch call command => some (call, command)
  | .query _ => none

def Actor.call? : Actor → Option ℕ
  | .operating number _ => some number
  | _ => none

namespace X3800hSession

/-- The commands with the transport of which not all is written. -/
def pending (s : X3800hSession) : List (ℕ × AvrCommand) :=
  (match s.transport with
    | .writing request _ => request.dispatch?.toList
    | _ => []) ++ s.requests.filterMap Request.dispatch?

/-- The calls that are to be answered yet, the one in progress first. -/
def upcoming (s : X3800hSession) : List ℕ := s.actor.call?.toList ++ s.mailbox.filterMap Command.call?

end X3800hSession

/-- What the three parties keep between them: of the command with the transport, of the numbers of the calls,
and of the calls something was written for. -/
structure Sound (s : X3800hSession) : Prop where
  /-- An actor that has ended has dropped its mailbox. -/
  ended : s.actor = .ended → s.mailbox = [] ∧ s.mailboxOpen = false
  aborted : s.aborted = true → s.actor = .closing ∨ s.actor = .ended
  stopped : s.transport = .stopped → s.requests = []
  /-- Unless the actor has ended, a command with the transport is the one it waits for. -/
  handed : s.actor = .ended ∨ s.pending = [] ∨ ∃ number call command, s.pending = [(number, command)] ∧
    s.actor = .operating number call ∧ call.pc = .sent command ∧ s.dispatched = none
  credible : ∀ result, s.dispatched = some result → Credible result
  /-- What was written of a command still waited for is being written. -/
  unreplied : ∀ number call command, s.actor = .operating number call → call.pc = .sent command →
    number ∈ s.wire → s.dispatched = none → ∃ command', s.transport = .writing (.dispatch number command') true
  written : ∀ number call, s.actor = .operating number call → number ∈ s.wire → call.pc.handedOver = true
  awaited : ∀ number operation, (number, operation) ∈ s.waiting → number ∈ s.wire →
    s.actor.call? = some number
  nodup : s.upcoming.Nodup
  unanswered : ∀ number ∈ s.upcoming, number < s.nextCall ∧ ∀ outcome, (number, outcome) ∉ s.returned
  unwritten : ∀ number ∈ s.mailbox.filterMap Command.call?, number ∉ s.wire
  numbered : ∀ number, (number ∈ s.wire ∨ (∃ outcome, (number, outcome) ∈ s.returned) ∨
    (∃ operation, (number, operation) ∈ s.waiting) ∨ ∃ command, (number, command) ∈ s.pending) →
      number < s.nextCall
  honest : Honest s

section Sound
variable {s s' : X3800hSession}

theorem mem_stopWaiting {number call : ℕ} {operation : OperationId} :
    (number, operation) ∈ s.stopWaiting call ↔ (number, operation) ∈ s.waiting ∧ number ≠ call := by
  simp [X3800hSession.stopWaiting]

theorem stepCall_eq_some {a : ℕ → CallAction} {also : X3800hSession → ℕ → Call → X3800hSession}
    (h : s.stepCall a also = some s') : ∃ number call next, s.actor = .operating number call ∧
      call.step (a number) = some next ∧ s' = { also s number call with actor := .operating number next } := by
  unfold X3800hSession.stepCall at h
  split at h
  · rename_i number call hactor
    obtain ⟨next, hnext, rfl⟩ := Option.map_eq_some_iff.mp h
    exact ⟨number, call, next, hactor, hnext, rfl⟩
  · cases h

/-- Ending the actor is sound when nothing was written for a call whose caller still waits. -/
theorem Sound.endActor (h : Sound s)
    (hwire : ∀ number operation, (number, operation) ∈ s.waiting → number ∉ s.wire) : Sound s.endActor where
  ended _ := ⟨rfl, rfl⟩
  aborted _ := .inr rfl
  stopped := h.stopped
  handed := .inl rfl
  credible := h.credible
  unreplied _ _ _ hactor := by cases hactor
  written _ _ hactor := by cases hactor
  awaited number operation hwaits hwritten := absurd hwritten (hwire number operation hwaits)
  nodup := List.nodup_nil
  unanswered _ hmem := by cases hmem
  unwritten _ hmem := by cases hmem
  numbered := h.numbered
  honest := h.honest

/-- Without a call in progress every caller who waits is one of a call nothing was written for. -/
theorem Sound.not_mem_wire (h : Sound s) (hactor : s.actor.call? = none) (number : ℕ) (operation : OperationId)
    (hwaits : (number, operation) ∈ s.waiting) : number ∉ s.wire := by
  intro hwritten
  have hcall := h.awaited number operation hwaits hwritten
  rw [hactor] at hcall
  cases hcall

theorem Sound.admitted (h : Sound s) (request : OperationRequest) (hactor : s.actor ≠ .ended) :
    Sound { s with
      mailbox := s.mailbox ++ [.operate s.nextCall request]
      waiting := (s.nextCall, request.id) :: s.waiting
      nextCall := s.nextCall + 1 } := by
  have hfresh : ∀ number, s.nextCall ≤ number → number ∉ s.wire := fun number hle hmem =>
    absurd (h.numbered number (.inl hmem)) (Nat.not_lt.mpr hle)
  have hupcoming : ∀ number, number ∈ s.actor.call?.toList ++ (s.mailbox ++
      [Command.operate s.nextCall request]).filterMap Command.call? ↔
        number ∈ s.upcoming ∨ number = s.nextCall := by
    intro number
    simp [X3800hSession.upcoming, Command.call?, or_assoc]
  exact {
    ended := fun hended => absurd hended hactor
    aborted := h.aborted
    stopped := h.stopped
    handed := h.handed
    credible := h.credible
    unreplied := h.unreplied
    written := h.written
    awaited := by
      intro number operation hwaits hwritten
      rcases List.mem_cons.mp hwaits with heq | hwaits
      · cases heq
        exact absurd hwritten (hfresh _ le_rfl)
      · exact h.awaited number operation hwaits hwritten
    nodup := by
      show (s.actor.call?.toList ++ (s.mailbox ++ [Command.operate s.nextCall request]).filterMap
        Command.call?).Nodup
      rw [List.filterMap_append, ← List.append_assoc]
      refine List.nodup_append.mpr ⟨h.nodup, List.nodup_singleton _, fun number hmem other hother => ?_⟩
      obtain rfl : other = s.nextCall := by simpa [Command.call?] using hother
      exact (h.unanswered number hmem).1.ne
    unanswered := by
      intro number hmem
      rcases (hupcoming number).mp hmem with hmem | rfl
      · exact ⟨(h.unanswered number hmem).1.trans (Nat.lt_succ_self _), (h.unanswered number hmem).2⟩
      · refine ⟨Nat.lt_succ_self _, fun outcome hreturned => ?_⟩
        exact absurd (h.numbered _ (.inr (.inl ⟨outcome, hreturned⟩))) (lt_irrefl _)
    unwritten := by
      intro number hmem
      rw [List.filterMap_append, List.mem_append] at hmem
      rcases hmem with hmem | hmem
      · exact h.unwritten number hmem
      · obtain rfl : number = s.nextCall := by simpa [Command.call?] using hmem
        exact hfresh _ le_rfl
    numbered := by
      rintro number (hmem | hmem | ⟨operation, hmem⟩ | hmem)
      · exact (h.numbered number (.inl hmem)).trans (Nat.lt_succ_self _)
      · exact (h.numbered number (.inr (.inl hmem))).trans (Nat.lt_succ_self _)
      · rcases List.mem_cons.mp hmem with heq | hmem
        · cases heq
          exact Nat.lt_succ_self _
        · exact (h.numbered number (.inr (.inr (.inl ⟨operation, hmem⟩)))).trans (Nat.lt_succ_self _)
      · exact (h.numbered number (.inr (.inr (.inr hmem)))).trans (Nat.lt_succ_self _)
    honest := h.honest }

theorem Sound.wait (h : Sound s) (waiting : List (ℕ × OperationId)) (nextCall : ℕ)
    (hwaiting : ∀ w ∈ waiting, w ∈ s.waiting) (hnext : s.nextCall ≤ nextCall) :
    Sound { s with waiting, nextCall } :=
  { h with
    awaited := fun number operation hwaits => h.awaited number operation (hwaiting _ hwaits)
    unanswered := fun number hmem => ⟨(h.unanswered number hmem).1.trans_le hnext, (h.unanswered number hmem).2⟩
    numbered := by
      rintro number (hmem | hmem | ⟨operation, hmem⟩ | hmem)
      · exact (h.numbered number (.inl hmem)).trans_le hnext
      · exact (h.numbered number (.inr (.inl hmem))).trans_le hnext
      · exact (h.numbered number (.inr (.inr (.inl ⟨operation, hwaiting _ hmem⟩)))).trans_le hnext
      · exact (h.numbered number (.inr (.inr (.inr hmem)))).trans_le hnext }

/-- An answer to a call that is neither in progress nor in the mailbox and that, if it is denied, nothing was
written for. -/
theorem Sound.return (h : Sound s) {call : ℕ} (outcome : OperationOutcome) (hnumber : call < s.nextCall)
    (hupcoming : call ∉ s.upcoming) (htrue : deniesDispatch outcome = true → call ∉ s.wire) :
    Sound { s with returned := s.returned ++ [(call, outcome)] } :=
  { h with
    unanswered := by
      intro number hmem
      refine ⟨(h.unanswered number hmem).1, fun other hreturned => ?_⟩
      rcases List.mem_append.mp hreturned with hreturned | hreturned
      · exact (h.unanswered number hmem).2 other hreturned
      · obtain ⟨rfl, -⟩ : number = call ∧ other = outcome := by simpa using hreturned
        exact hupcoming hmem
    numbered := by
      rintro number (hmem | ⟨other, hmem⟩ | hmem | hmem)
      · exact h.numbered number (.inl hmem)
      · rcases List.mem_append.mp hmem with hmem | hmem
        · exact h.numbered number (.inr (.inl ⟨other, hmem⟩))
        · obtain ⟨rfl, -⟩ : number = call ∧ other = outcome := by simpa using hmem
          exact hnumber
      · exact h.numbered number (.inr (.inr (.inl hmem)))
      · exact h.numbered number (.inr (.inr (.inr hmem)))
    honest := by
      intro number other hreturned hdenies
      rcases List.mem_append.mp hreturned with hreturned | hreturned
      · exact h.honest number other hreturned hdenies
      · obtain ⟨rfl, rfl⟩ : number = call ∧ other = outcome := by simpa using hreturned
        exact htrue hdenies }

theorem Sound.pop (h : Sound s) {command : Command} {mailbox : List Command}
    (hmailbox : s.mailbox = command :: mailbox) (hcall : command.call? = none) :
    Sound { s with mailbox } := by
  have hsame : mailbox.filterMap Command.call? = s.mailbox.filterMap Command.call? := by
    rw [hmailbox, List.filterMap_cons_none hcall]
  have hupcoming : ({ s with mailbox } : X3800hSession).upcoming = s.upcoming := by
    unfold X3800hSession.upcoming
    rw [hsame]
  exact { h with
    ended := fun hended => by
      have hempty := (h.ended hended).1
      rw [hmailbox] at hempty
      cases hempty
    nodup := hupcoming ▸ h.nodup
    unanswered := fun number hmem => h.unanswered number (hupcoming ▸ hmem)
    unwritten := fun number hmem => h.unwritten number (hsame ▸ hmem) }

theorem Sound.put (h : Sound s) {command : Command} (closed closePending : Bool)
    (hcall : command.call? = none) (hactor : s.actor ≠ .ended) :
    Sound { s with mailbox := s.mailbox ++ [command], closed, closePending } := by
  have hsame : (s.mailbox ++ [command]).filterMap Command.call? = s.mailbox.filterMap Command.call? := by
    rw [List.filterMap_append, List.filterMap_cons_none hcall, List.filterMap_nil, List.append_nil]
  have hupcoming : ({ s with mailbox := s.mailbox ++ [command] } : X3800hSession).upcoming = s.upcoming := by
    unfold X3800hSession.upcoming
    rw [hsame]
  exact { h with
    ended := fun hended => absurd hended hactor
    nodup := hupcoming ▸ h.nodup
    unanswered := fun number hmem => h.unanswered number (hupcoming ▸ hmem)
    unwritten := fun number hmem => h.unwritten number (hsame ▸ hmem) }

theorem Sound.rest (h : Sound s) (actor : Actor) (feed : Feed) (cycle : SyncCycleId)
    (mailboxOpen aborted : Bool) (hpending : s.pending = [])
    (hwire : ∀ number operation, (number, operation) ∈ s.waiting → number ∉ s.wire)
    (hactor : actor.call? = none) (hended : actor ≠ .ended) (haborted : aborted = true → actor = .closing) :
    Sound { s with actor, feed, cycle, mailboxOpen, aborted } := by
  have hupcoming : ∀ number, number ∈ actor.call?.toList ++ s.mailbox.filterMap Command.call? →
      number ∈ s.upcoming := by
    intro number hmem
    rw [hactor] at hmem
    exact List.mem_append_right _ hmem
  exact { h with
    ended := fun hend => absurd hend hended
    aborted := fun habort => .inl (haborted habort)
    handed := .inr (.inl hpending)
    unreplied := fun number call command hoperating => by
      cases hoperating
      cases hactor
    written := fun number call hoperating => by
      cases hoperating
      cases hactor
    awaited := fun number operation hwaits hwritten => absurd hwritten (hwire number operation hwaits)
    nodup := by
      show (actor.call?.toList ++ s.mailbox.filterMap Command.call?).Nodup
      rw [hactor]
      exact (List.nodup_append.mp h.nodup).2.1
    unanswered := fun number hmem => h.unanswered number (hupcoming number hmem) }

/-- While a call is in progress the transport has not been told to stop. -/
theorem Sound.not_aborted (h : Sound s) {number : ℕ} {call : Call} (hactor : s.actor = .operating number call) :
    s.aborted ≠ true := by
  intro haborted
  rcases h.aborted haborted with hclosing | hended
  · rw [hactor] at hclosing
    cases hclosing
  · rw [hactor] at hended
    cases hended

/-- The actor goes on with the call in progress, with no command with the transport. -/
theorem Sound.proceed (h : Sound s) {number : ℕ} {call : Call} (next : Call) (hactor : s.actor = .operating number call)
    (hpending : s.pending = []) (hpc : ∀ command, next.pc ≠ .sent command)
    (hover : number ∈ s.wire → next.pc.handedOver = true) :
    Sound { s with actor := .operating number next } :=
  { h with
    ended := fun hended => by cases hended
    aborted := fun haborted => absurd haborted (h.not_aborted hactor)
    handed := .inr (.inl hpending)
    unreplied := fun _ _ command hoperating hsent => by
      cases hoperating
      exact absurd hsent (hpc command)
    written := fun _ _ hoperating hwritten => by
      cases hoperating
      exact hover hwritten
    awaited := fun other operation hwaits hwritten => by
      have hcall := h.awaited other operation hwaits hwritten
      rw [hactor] at hcall
      exact hcall
    nodup := by
      have hnodup := h.nodup
      unfold X3800hSession.upcoming at hnodup
      rw [hactor] at hnodup
      exact hnodup
    unanswered := fun other hmem => by
      refine h.unanswered other ?_
      unfold X3800hSession.upcoming
      rw [hactor]
      exact hmem }

theorem pending_askFor (field : CoreField) : (s.askFor field).pending = s.pending := by
  unfold X3800hSession.askFor X3800hSession.pending
  dsimp only
  split_ifs
  · rfl
  · rw [List.filterMap_append]
    simp [Request.dispatch?]

theorem Sound.askFor (h : Sound s) (field : CoreField) : Sound (s.askFor field) :=
  { h with
    stopped := fun hstopped => (if_pos hstopped).trans (h.stopped hstopped)
    handed := by
      rw [pending_askFor]
      exact h.handed
    numbered := by
      rw [pending_askFor]
      exact h.numbered }

theorem Sound.dispatch (h : Sound s) {number : ℕ} {call : Call} {command : AvrCommand}
    (hactor : s.actor = .operating number call) (hpc : call.pc = .send command) :
    Sound { s.dispatch number command with actor := .operating number { call with pc := .sent command } } := by
  have hunsent : number ∉ s.wire := fun hwritten => by
    have hover := h.written number call hactor hwritten
    rw [hpc] at hover
    cases hover
  have hpending : s.pending = [] := by
    rcases h.handed with hended | hempty | ⟨other, call', command', -, hother, hsent, -⟩
    · rw [hactor] at hended
      cases hended
    · exact hempty
    · rw [hactor] at hother
      cases hother
      rw [hpc] at hsent
      cases hsent
  have hpending' : (s.dispatch number command).pending = [] ∨
      (s.dispatch number command).pending = [(number, command)] := by
    have happend : (s.dispatch number command).pending = s.pending ∨
        (s.dispatch number command).pending = s.pending ++ [(number, command)] := by
      unfold X3800hSession.dispatch X3800hSession.pending
      dsimp only
      split_ifs
      · exact .inl rfl
      · right
        rw [List.filterMap_append, List.append_assoc]
        simp [Request.dispatch?]
    rw [hpending] at happend
    exact happend
  have hmine : number ∈ s.upcoming := by
    unfold X3800hSession.upcoming
    rw [hactor]
    exact List.mem_append_left _ (List.mem_singleton_self _)
  have hcalls := h.proceed { call with pc := .start } hactor hpending (by simp)
    (fun hwritten => absurd hwritten hunsent)
  exact {
    ended := fun hended => by cases hended
    aborted := fun haborted => absurd haborted (h.not_aborted hactor)
    stopped := fun hstopped => (if_pos hstopped).trans (h.stopped hstopped)
    handed := by
      rcases hpending' with hempty | hone
      · exact .inr (.inl hempty)
      · exact .inr (.inr ⟨number, _, command, hone, rfl, rfl, rfl⟩)
    credible := fun result hresult => by cases hresult
    unreplied := fun _ _ _ hoperating _ hwritten => by
      cases hoperating
      exact absurd hwritten hunsent
    written := fun _ _ hoperating hwritten => by
      cases hoperating
      exact absurd hwritten hunsent
    awaited := hcalls.awaited
    nodup := hcalls.nodup
    unanswered := hcalls.unanswered
    unwritten := h.unwritten
    numbered := by
      rintro other (hmem | hmem | hmem | ⟨command', hmem⟩)
      · exact h.numbered other (.inl hmem)
      · exact h.numbered other (.inr (.inl hmem))
      · exact h.numbered other (.inr (.inr (.inl hmem)))
      · have hmem' : (other, command') ∈ (s.dispatch number command).pending := hmem
        rcases hpending' with hempty | hone
        · rw [hempty] at hmem'
          cases hmem'
        · rw [hone] at hmem'
          cases List.mem_singleton.mp hmem'
          exact (h.unanswered number hmine).1
    honest := h.honest }

/-- No command is with the transport while the actor is not waiting for its reply. -/
theorem Sound.pending_eq_nil (h : Sound s) (hended : s.actor ≠ .ended)
    (hsent : ∀ number call command, s.actor = .operating number call → call.pc ≠ .sent command) :
    s.pending = [] := by
  rcases h.handed with hend | hempty | ⟨number, call, command, -, hactor, hpc, -⟩
  · exact absurd hend hended
  · exact hempty
  · exact absurd hpc (hsent number call command hactor)

theorem Sound.stepCaller (h : Sound s) {a : CallerAction} (hbreaks : breaksOff s (.caller a) = false)
    (hstep : s.stepCaller a = some s') : Sound s' := by
  have hopen : s.mailboxOpen ≠ false → s.actor ≠ .ended := fun hopen hended => hopen (h.ended hended).2
  cases a with
  | operate request =>
    simp only [X3800hSession.stepCaller] at hstep
    split_ifs at hstep with hclosed hroom
    · cases hstep
      have hmore := h.wait s.waiting (s.nextCall + 1) (fun _ hw => hw) (Nat.le_succ _)
      have hfresh : s.nextCall ∉ s.upcoming := fun hmem => lt_irrefl _ (h.unanswered _ hmem).1
      have hunwritten : s.nextCall ∉ s.wire := fun hmem => lt_irrefl _ (h.numbered _ (.inl hmem))
      exact hmore.return _ (Nat.lt_succ_self s.nextCall) hfresh fun _ => hunwritten
    · cases hstep
      exact h.admitted request (hopen hclosed)
  | refresh =>
    simp only [X3800hSession.stepCaller] at hstep
    split_ifs at hstep with hopened
    cases hstep
    exact h.put s.closed s.closePending rfl (hopen (by simp [hopened.1]))
  | close =>
    simp only [X3800hSession.stepCaller] at hstep
    split_ifs at hstep with hclosed hshut hroom
    · cases hstep
      exact h
    · cases hstep
      exact { h with }
    · cases hstep
      exact h.put true true rfl (hopen hshut)
  | drop call =>
    cases hstep
    exact h.wait _ s.nextCall (fun w hw => (List.mem_filter.mp hw).1) le_rfl
  | abandoned call operation =>
    simp only [X3800hSession.stepCaller] at hstep
    split_ifs at hstep with hcond
    cases hstep
    obtain ⟨hended, hwaits⟩ := hcond
    have hempty : s.upcoming = [] := by
      unfold X3800hSession.upcoming
      rw [hended, (h.ended hended).1]
      rfl
    have hunwritten : call ∉ s.wire := h.not_mem_wire (by rw [hended]; rfl) call operation hwaits
    have hreturned := h.return
      (X3800hSession.neverDispatched operation "receiver session stopped before operation completion")
      (h.numbered call (.inr (.inr (.inl ⟨operation, hwaits⟩)))) (by simp [hempty]) fun _ => hunwritten
    exact hreturned.wait _ s.nextCall (fun w hw => (List.mem_filter.mp hw).1) le_rfl
  | abort =>
    simp only [X3800hSession.stepCaller] at hstep
    split_ifs at hstep
    cases hstep
    refine h.endActor fun number operation hwaits hwritten => ?_
    have hcall := h.awaited number operation hwaits hwritten
    -- The call in progress is the only one that could be broken off, and nothing of it was written.
    cases hactor : s.actor with
    | operating other call =>
      rw [hactor] at hcall
      obtain rfl : other = number := Option.some.inj hcall
      have hopen : s.replyClosed other = false := by
        simp only [X3800hSession.replyClosed, Bool.not_eq_false', List.any_eq_true, decide_eq_true_eq]
        exact ⟨_, hwaits, rfl⟩
      simp [breaksOff, hactor, hopen, hwritten] at hbreaks
    | _ =>
      rw [hactor] at hcall
      cases hcall

/-- A call that waits for no reply to its command, or has it, has no command with the transport. -/
theorem Sound.pending_of_operating (h : Sound s) {number : ℕ} {call : Call}
    (hactor : s.actor = .operating number call) (hpc : ∀ command, call.pc ≠ .sent command) : s.pending = [] := by
  refine h.pending_eq_nil (by simp [hactor]) fun number' call' command hactor' => ?_
  rw [hactor] at hactor'
  cases hactor'
  exact hpc command

/-- A step of the call in progress that does not concern its command. -/
theorem Sound.stepCall (h : Sound s) {a : ℕ → CallAction} (hstep : s.stepCall a (fun s _ _ => s) = some s')
    (hsend : ∀ number, a number ≠ .send) (hsent : ∀ number result, a number ≠ .sent result) : Sound s' := by
  obtain ⟨number, call, next, hactor, hnext, rfl⟩ := stepCall_eq_some hstep
  have hpc : ∀ command, call.pc ≠ .sent command := by
    intro command hpc
    -- Only the reply to the command moves a call that waits for it.
    cases ha : a number with
    | send => exact hsend number ha
    | sent result => exact hsent number result ha
    | begin => simp [ha, Call.step, hpc] at hnext
    | ask => simp [ha, Call.step, hpc] at hnext
    | answer => simp [ha, Call.step, hpc] at hnext
    | wake => simp [ha, Call.step, hpc] at hnext
    | event => simp [ha, Call.step, hpc] at hnext
  refine h.proceed next hactor (h.pending_of_operating hactor hpc) (fun _ => step_pc_ne_sent hnext (hsend number))
    fun hwritten => ?_
  exact handedOver_step hnext (h.written number call hactor hwritten) fun result ha => absurd ha (hsent _ _)

/-- The reply to the command reaches its call, or the end of the transport does. -/
theorem Sound.callSent (h : Sound s) (hstep : s.stepActor .callSent = some s') : Sound s' := by
  obtain ⟨result, hresult, hcall⟩ := Option.bind_eq_some_iff.mp hstep
  obtain ⟨number, call, next, hactor, hnext, rfl⟩ := stepCall_eq_some hcall
  obtain ⟨command, hpc⟩ : ∃ command, call.pc = .sent command := by
    cases callStep_of_step hnext with
    | sent command _ hpc => exact ⟨command, hpc⟩
  have hpc' : ∀ command, next.pc ≠ .sent command := fun _ => step_pc_ne_sent hnext (by simp)
  cases hdispatched : s.dispatched with
  | some reply =>
    obtain rfl : reply = result := by
      rw [hdispatched] at hresult
      exact Option.some.inj hresult
    have hpending : s.pending = [] := by
      rcases h.handed with hended | hempty | ⟨_, _, _, -, -, -, hnone⟩
      · rw [hactor] at hended
        cases hended
      · exact hempty
      · rw [hdispatched] at hnone
        cases hnone
    refine h.proceed next hactor hpending hpc' fun hwritten => ?_
    refine handedOver_step hnext (h.written number call hactor hwritten) fun result ha => ?_
    cases ha
    exact h.credible _ hdispatched
  | none =>
    have hstopped : s.transport = .stopped := by
      rw [hdispatched] at hresult
      simp only [X3800hSession.reply?] at hresult
      split_ifs at hresult with hstopped
      exact hstopped
    have hpending : s.pending = [] := by
      unfold X3800hSession.pending
      rw [hstopped, h.stopped hstopped]
      rfl
    refine h.proceed next hactor hpending hpc' fun hwritten => ?_
    obtain ⟨command', hwriting⟩ := h.unreplied number call command hactor hpc hwritten hdispatched
    rw [hstopped] at hwriting
    cases hwriting

theorem Sound.finish (h : Sound s) (hstep : s.stepActor .finish = some s') : Sound s' := by
  simp only [X3800hSession.stepActor] at hstep
  split at hstep
  · rename_i number request cycle feed outcome hactor
    cases hstep
    have hpending : s.pending = [] := h.pending_of_operating hactor (by simp)
    have hmine : number ∈ s.upcoming := by
      unfold X3800hSession.upcoming
      rw [hactor]
      exact List.mem_append_left _ (List.mem_singleton_self _)
    have hnodup := h.nodup
    unfold X3800hSession.upcoming at hnodup
    rw [hactor] at hnodup
    have hwaiting := h.wait (s.stopWaiting number) s.nextCall (fun w hw => (List.mem_filter.mp hw).1) le_rfl
    have hrest : Sound { s with actor := .idle, feed, waiting := s.stopWaiting number } := by
      refine hwaiting.rest .idle feed s.cycle s.mailboxOpen s.aborted hpending (fun other operation hwaits hwritten => ?_) rfl
        (by simp) fun haborted => absurd haborted (h.not_aborted hactor)
      obtain ⟨hwaits, hne⟩ := mem_stopWaiting.mp hwaits
      have hcall := h.awaited other operation hwaits hwritten
      rw [hactor] at hcall
      exact hne (Option.some.inj hcall).symm
    show Sound { s with
      actor := .idle, feed, waiting := s.stopWaiting number,
      returned := if s.replyClosed number then s.returned else s.returned ++ [(number, outcome)] }
    split_ifs
    · exact hrest
    · refine hrest.return outcome (h.unanswered number hmine).1 ?_ fun hdenies hwritten => ?_
      · exact (List.nodup_cons.mp hnodup).1
      · have hover := h.written number _ hactor hwritten
        simp [Pc.handedOver, hdenies] at hover
  · cases hstep

theorem Sound.receive (h : Sound s) {number : ℕ} {request : OperationRequest} {mailbox : List Command}
    (hactor : s.actor = .idle) (hmailbox : s.mailbox = .operate number request :: mailbox)
    (cycle : SyncCycleId) (feed : Feed) :
    Sound { s with mailbox, cycle, actor := .operating number { request, cycle, feed } } := by
  have hmem : number ∈ s.mailbox.filterMap Command.call? := by
    rw [hmailbox]
    exact List.mem_cons_self
  have hupcoming : s.upcoming = number :: mailbox.filterMap Command.call? := by
    unfold X3800hSession.upcoming
    rw [hactor, hmailbox]
    rfl
  exact { h with
    ended := fun hended => by cases hended
    aborted := fun haborted => by
      rcases h.aborted haborted with hclosing | hended
      · rw [hactor] at hclosing
        cases hclosing
      · rw [hactor] at hended
        cases hended
    handed := .inr (.inl (h.pending_eq_nil (by simp [hactor]) (by simp [hactor])))
    unreplied := fun _ _ _ hoperating hsent => by
      cases hoperating
      cases hsent
    written := fun _ _ hoperating hwritten => by
      cases hoperating
      exact absurd hwritten (h.unwritten number hmem)
    awaited := fun other operation hwaits hwritten =>
      absurd hwritten (h.not_mem_wire (by rw [hactor]; rfl) other operation hwaits)
    nodup := by
      have hnodup := h.nodup
      rw [hupcoming] at hnodup
      exact hnodup
    unanswered := fun other hother => h.unanswered other (by
      rw [hupcoming]
      exact hother)
    unwritten := fun other hother => h.unwritten other (by
      rw [hmailbox]
      exact List.mem_cons_of_mem _ hother) }

theorem Sound.stepActor (h : Sound s) {a : ActorAction} (hstep : s.stepActor a = some s') : Sound s' := by
  -- Outside of a call nothing is with the transport, and nobody waits for whom something was written.
  have hidle : s.actor.call? = none → s.actor ≠ .ended → s.pending = [] ∧
      ∀ number operation, (number, operation) ∈ s.waiting → number ∉ s.wire := fun hnone hended =>
    ⟨h.pending_eq_nil hended (fun number call command hactor => by simp [hactor, Actor.call?] at hnone),
      h.not_mem_wire hnone⟩
  have haborted : s.actor = .idle → s.aborted ≠ true := fun hactor habort => by
    rcases h.aborted habort with hclosing | hended
    · rw [hactor] at hclosing
      cases hclosing
    · rw [hactor] at hended
      cases hended
  cases a with
  | receive =>
    simp only [X3800hSession.stepActor] at hstep
    split at hstep
    · rename_i number request mailbox hactor hmailbox
      cases hstep
      exact h.receive hactor hmailbox _ s.feed
    · rename_i mailbox hactor hmailbox
      cases hstep
      obtain ⟨hpending, hwire⟩ := hidle (by rw [hactor]; rfl) (by simp [hactor])
      have hrest := h.rest s.actor s.feed (s.cycle + 1) s.mailboxOpen s.aborted hpending hwire
        (by rw [hactor]; rfl) (by simp [hactor]) fun habort => absurd habort (haborted hactor)
      exact hrest.pop hmailbox rfl
    · rename_i mailbox hactor hmailbox
      cases hstep
      obtain ⟨hpending, hwire⟩ := hidle (by rw [hactor]; rfl) (by simp [hactor])
      have hrest := h.rest .closing s.feed s.cycle s.mailboxOpen true hpending hwire rfl
        (by simp) fun _ => rfl
      exact hrest.pop hmailbox rfl
    · cases hstep
  | released =>
    simp only [X3800hSession.stepActor] at hstep
    split_ifs at hstep with hcond
    cases hstep
    obtain ⟨hpending, hwire⟩ := hidle (by rw [hcond.1]; rfl) (by simp [hcond.1])
    exact h.rest .closing s.feed s.cycle false true hpending hwire rfl (by simp) fun _ => rfl
  | ask field mark generation =>
    simp only [X3800hSession.stepActor] at hstep
    split_ifs at hstep with hactor
    cases hstep
    obtain ⟨hpending, hwire⟩ := hidle (by rw [hactor]; rfl) (by simp [hactor])
    exact (h.askFor field).rest (.asking field) _ s.cycle s.mailboxOpen s.aborted ((pending_askFor field).trans hpending) hwire rfl
      (by simp) fun habort => absurd habort (haborted hactor)
  | answer generation now =>
    simp only [X3800hSession.stepActor] at hstep
    have hasking : ∀ field, s.actor = .asking field → ∀ feed, Sound { s with actor := .idle, feed } := by
      intro field hactor feed
      obtain ⟨hpending, hwire⟩ := hidle (by rw [hactor]; rfl) (by simp [hactor])
      refine h.rest .idle feed s.cycle s.mailboxOpen s.aborted hpending hwire rfl (by simp) fun habort => ?_
      rcases h.aborted habort with hclosing | hended
      · rw [hactor] at hclosing
        cases hclosing
      · rw [hactor] at hended
        cases hended
    split at hstep
    · rename_i field error hactor hreply
      cases hstep
      exact hasking field hactor _
    · rename_i field line hactor hreply
      cases hstep
      exact hasking field hactor _
    · cases hstep
  | event event now =>
    cases event with
    | some event =>
      simp only [X3800hSession.stepActor] at hstep
      split_ifs at hstep
      cases hstep
      exact { h with }
    | none =>
      simp only [X3800hSession.stepActor] at hstep
      split_ifs at hstep with hcond
      cases hstep
      exact h.endActor (hidle (by rw [hcond.1]; rfl) (by simp [hcond.1])).2
  | sweep now =>
    simp only [X3800hSession.stepActor] at hstep
    split_ifs at hstep
    cases hstep
    exact { h with }
  | begin now => exact h.stepCall hstep (by simp) (by simp)
  | callAsk generation =>
    simp only [X3800hSession.stepActor] at hstep
    obtain ⟨number, call, next, hactor, hnext, rfl⟩ := stepCall_eq_some hstep
    obtain ⟨purpose, hpc⟩ : ∃ purpose, call.pc = .ask purpose := by
      cases callStep_of_step hnext with
      | ask _ purpose hpc => exact ⟨purpose, hpc⟩
    have hstep' : (s.askFor (call.fieldOf purpose)).stepCall (fun _ => .ask generation) (fun s _ _ => s) =
        some { s.askFor (call.fieldOf purpose) with actor := .operating number next } := by
      have hactor' : (s.askFor (call.fieldOf purpose)).actor = .operating number call := hactor
      simp only [X3800hSession.stepCall, hactor', hnext, Option.map_some]
    simp only [hpc]
    exact (h.askFor _).stepCall hstep' (by simp) (by simp)
  | callAnswer generation now expired =>
    obtain ⟨result, -, hcall⟩ := Option.bind_eq_some_iff.mp hstep
    exact h.stepCall hcall (by simp) (by simp)
  | callSend =>
    simp only [X3800hSession.stepActor] at hstep
    obtain ⟨number, call, next, hactor, hnext, rfl⟩ := stepCall_eq_some hstep
    obtain ⟨command, hpc, rfl⟩ := step_send_eq_some hnext
    simp only [hpc]
    exact h.dispatch hactor hpc
  | callSent => exact h.callSent hstep
  | callWake => exact h.stepCall hstep (by simp) (by simp)
  | callEvent event now =>
    simp only [X3800hSession.stepActor] at hstep
    split_ifs at hstep
    exact h.stepCall hstep (by simp) (by simp)
  | finish => exact h.finish hstep
  | closeDone =>
    simp only [X3800hSession.stepActor] at hstep
    split_ifs at hstep with hcond
    cases hstep
    exact h.endActor (hidle (by rw [hcond.1]; rfl) (by simp [hcond.1])).2

theorem Sound.serve (h : Sound s) (transport : Transport) (requests : List Request)
    (response : Option (Except AvrSessionError String)) (hstopped : transport = .stopped → requests = [])
    (hpending : ({ s with transport, requests } : X3800hSession).pending = s.pending)
    (hwriting : ∀ number command, s.transport ≠ .writing (.dispatch number command) true) :
    Sound { s with transport, requests, response } :=
  { h with
    stopped := hstopped
    handed := hpending ▸ h.handed
    unreplied := fun number call command hactor hpc hwritten hnone => by
      obtain ⟨command', hrequest⟩ := h.unreplied number call command hactor hpc hwritten hnone
      exact absurd hrequest (hwriting number command')
    numbered := hpending ▸ h.numbered }

theorem Sound.write (h : Sound s) {number : ℕ} {command : AvrCommand}
    (htransport : s.transport = .writing (.dispatch number command) false) (hended : s.actor ≠ .ended) :
    Sound { s with transport := .writing (.dispatch number command) true, wire := number :: s.wire } := by
  have hpending : s.pending = (number, command) :: s.requests.filterMap Request.dispatch? := by
    unfold X3800hSession.pending
    rw [htransport]
    rfl
  obtain ⟨call, hactor, hpc⟩ : ∃ call, s.actor = .operating number call ∧ call.pc = .sent command := by
    rcases h.handed with hend | hempty | ⟨number', call, command', hone, hactor, hpc, -⟩
    · exact absurd hend hended
    · rw [hpending] at hempty
      cases hempty
    · rw [hpending] at hone
      cases (List.cons.inj hone).1
      exact ⟨call, hactor, hpc⟩
  have hupcoming : s.upcoming = number :: s.mailbox.filterMap Command.call? := by
    unfold X3800hSession.upcoming
    rw [hactor]
    rfl
  have hmine : number ∈ s.upcoming := by
    rw [hupcoming]
    exact List.mem_cons_self
  have hpending' : ({ s with
      transport := .writing (.dispatch number command) true, wire := number :: s.wire } :
        X3800hSession).pending = s.pending := hpending.symm
  exact { h with
    stopped := fun hstopped => by cases hstopped
    handed := hpending' ▸ h.handed
    unreplied := fun number' call' command' hactor' _ hwritten _ => by
      obtain ⟨rfl, -⟩ := Actor.operating.inj (hactor.symm.trans hactor')
      exact ⟨command, rfl⟩
    written := fun number' call' hactor' hwritten => by
      obtain ⟨rfl, rfl⟩ := Actor.operating.inj (hactor.symm.trans hactor')
      rw [hpc]
      rfl
    awaited := fun number' operation hwaits hwritten => by
      rcases List.mem_cons.mp hwritten with rfl | hwritten
      · show s.actor.call? = some number'
        rw [hactor]
        rfl
      · exact h.awaited number' operation hwaits hwritten
    unwritten := fun number' hmem hwritten => by
      rcases List.mem_cons.mp hwritten with rfl | hwritten
      · have hnodup := h.nodup
        rw [hupcoming] at hnodup
        exact (List.nodup_cons.mp hnodup).1 hmem
      · exact h.unwritten number' hmem hwritten
    numbered := by
      rintro number' (hmem | hmem | hmem | hmem)
      · rcases List.mem_cons.mp hmem with rfl | hmem
        · exact (h.unanswered number' hmine).1
        · exact h.numbered number' (.inl hmem)
      · exact h.numbered number' (.inr (.inl hmem))
      · exact h.numbered number' (.inr (.inr (.inl hmem)))
      · exact h.numbered number' (.inr (.inr (.inr (hpending' ▸ hmem))))
    honest := fun number' outcome hreturned hdenies hwritten => by
      rcases List.mem_cons.mp hwritten with rfl | hwritten
      · exact (h.unanswered number' hmine).2 outcome hreturned
      · exact h.honest number' outcome hreturned hdenies hwritten }

theorem Sound.reply (h : Sound s) {number : ℕ} {command : AvrCommand} {begun : Bool}
    (htransport : s.transport = .writing (.dispatch number command) begun) {transport : Transport}
    (hafter : transport = .waiting ∨ transport = .down) {result : Except AvrSessionError Unit}
    (hresult : Credible result) : Sound { s with transport, dispatched := some result } := by
  have hpending : s.pending = (number, command) :: s.requests.filterMap Request.dispatch? := by
    unfold X3800hSession.pending
    rw [htransport]
    rfl
  have hpending' : ({ s with transport, dispatched := some result } : X3800hSession).pending =
      s.requests.filterMap Request.dispatch? := by
    rcases hafter with rfl | rfl <;> rfl
  exact { h with
    stopped := fun hstopped => by
      subst hstopped
      rcases hafter with hafter | hafter <;> cases hafter
    handed := by
      rcases h.handed with hend | hempty | ⟨number', call, command', hone, -, -, -⟩
      · exact .inl hend
      · rw [hpending] at hempty
        cases hempty
      · rw [hpending] at hone
        exact .inr (.inl (hpending'.trans (List.cons.inj hone).2))
    credible := fun result' hresult' => by
      cases hresult'
      exact hresult
    unreplied := fun _ _ _ _ _ _ hnone => by cases hnone
    numbered := by
      rintro number' (hmem | hmem | hmem | ⟨command', hmem⟩)
      · exact h.numbered number' (.inl hmem)
      · exact h.numbered number' (.inr (.inl hmem))
      · exact h.numbered number' (.inr (.inr (.inl hmem)))
      · rw [hpending'] at hmem
        refine h.numbered number' (.inr (.inr (.inr ⟨command', ?_⟩)))
        rw [hpending]
        exact List.mem_cons_of_mem _ hmem }

theorem Sound.stop (h : Sound s)
    (hwriting : s.aborted = true ∨ ∀ number command, s.transport ≠ .writing (.dispatch number command) true) :
    Sound { s with transport := .stopped, requests := [] } :=
  { h with
    stopped := fun _ => rfl
    handed := .inr (.inl rfl)
    unreplied := fun number call command hactor hpc hwritten hnone => by
      obtain ⟨command', hrequest⟩ := h.unreplied number call command hactor hpc hwritten hnone
      rcases hwriting with haborted | hwriting
      · exact absurd haborted (h.not_aborted hactor)
      · exact absurd hrequest (hwriting number command')
    numbered := by
      rintro number (hmem | hmem | hmem | ⟨command, hmem⟩)
      · exact h.numbered number (.inl hmem)
      · exact h.numbered number (.inr (.inl hmem))
      · exact h.numbered number (.inr (.inr (.inl hmem)))
      · cases hmem }

theorem credible_writeError (timedOut : Bool) (message : String) :
    Credible (.error (X3800hSession.writeError timedOut message)) := by
  cases timedOut <;> trivial

theorem Sound.stepTransport (h : Sound s) {a : TransportAction} (hbreaks : breaksOff s (.transport a) = false)
    (hstep : s.stepTransport a = some s') : Sound s' := by
  cases a with
  | take =>
    simp only [X3800hSession.stepTransport] at hstep
    split at hstep
    · rename_i request requests htransport hrequests
      cases hstep
      refine h.serve _ requests s.response (by simp) ?_ (by simp [htransport])
      unfold X3800hSession.pending
      rw [htransport, hrequests]
      cases request <;> rfl
    · cases hstep
  | write =>
    simp only [X3800hSession.stepTransport] at hstep
    split at hstep
    · rename_i field htransport
      cases hstep
      refine h.serve _ s.requests s.response (by simp) ?_ (by simp [htransport])
      unfold X3800hSession.pending
      rw [htransport]
    · rename_i number command htransport
      cases hstep
      exact h.write htransport (by simpa [breaksOff, htransport] using hbreaks)
    · cases hstep
  | written =>
    simp only [X3800hSession.stepTransport] at hstep
    split at hstep
    · rename_i field htransport
      cases hstep
      refine h.serve _ s.requests s.response (by simp) ?_ (by simp [htransport])
      unfold X3800hSession.pending
      rw [htransport]
      rfl
    · rename_i number command htransport
      cases hstep
      exact h.reply htransport (.inl rfl) trivial
    · cases hstep
  | writeFailed timedOut message =>
    simp only [X3800hSession.stepTransport] at hstep
    split at hstep
    · rename_i field begun htransport
      cases hstep
      refine h.serve _ s.requests _ (by simp) ?_ (by simp [htransport])
      unfold X3800hSession.pending
      rw [htransport]
      rfl
    · rename_i number command begun htransport
      cases hstep
      exact h.reply htransport (.inr rfl) (credible_writeError timedOut message)
    · cases hstep
  | respond result =>
    have hserve : ∀ field, s.transport = .responding field → ∀ transport,
        transport = .waiting ∨ transport = .down → Sound { s with transport, response := some result } := by
      intro field htransport transport hafter
      refine h.serve transport s.requests _ (fun hstopped => ?_) ?_ (by simp [htransport])
      · subst hstopped
        rcases hafter with hafter | hafter <;> cases hafter
      · unfold X3800hSession.pending
        rw [htransport]
        rcases hafter with rfl | rfl <;> rfl
    simp only [X3800hSession.stepTransport] at hstep
    split at hstep
    · rename_i field htransport
      split_ifs at hstep
      split at hstep <;> cases hstep
      · exact hserve field htransport _ (.inr rfl)
      · exact hserve field htransport _ (.inr rfl)
      · exact hserve field htransport _ (.inr rfl)
      · exact hserve field htransport _ (.inl rfl)
    · cases hstep
  | lose =>
    simp only [X3800hSession.stepTransport] at hstep
    split_ifs at hstep with htransport
    cases hstep
    refine h.serve _ s.requests s.response (by simp) ?_ (by simp [htransport])
    unfold X3800hSession.pending
    rw [htransport]
  | reconnect =>
    simp only [X3800hSession.stepTransport] at hstep
    split_ifs at hstep with htransport
    cases hstep
    refine h.serve _ s.requests s.response (by simp) ?_ (by simp [htransport])
    unfold X3800hSession.pending
    rw [htransport]
  | giveUp =>
    simp only [X3800hSession.stepTransport] at hstep
    split_ifs at hstep with htransport
    cases hstep
    exact h.stop (.inr (by simp [htransport]))
  | kill =>
    simp only [X3800hSession.stepTransport] at hstep
    split_ifs at hstep with hcond
    cases hstep
    exact h.stop (.inl hcond.1)

theorem sound_new (receiver : ReceiverId) : Sound { feed := Feed.new receiver } where
  ended h := by cases h
  aborted h := by cases h
  stopped h := by cases h
  handed := .inr (.inl rfl)
  credible _ h := by cases h
  unreplied _ _ _ h := by cases h
  written _ _ h := by cases h
  awaited _ _ h := by cases h
  nodup := List.nodup_nil
  unanswered _ h := by cases h
  unwritten _ h := by cases h
  numbered := by
    rintro number (h | ⟨outcome, h⟩ | ⟨operation, h⟩ | ⟨command, h⟩) <;> cases h
  honest _ _ h := by cases h

/-- **Dispatch certainty is honest when nothing is broken off.** In every run in which the close never ends the
actor while its call has been written for, and no command is written after its actor has ended, an outcome that
denies the dispatch is returned only for calls of which no byte is ever written. -/
theorem honest_of_not_breaksOff (receiver : ReceiverId) (s : X3800hSession)
    (h : (x3800hSession receiver).ReachableBy (fun s a => breaksOff s a = false) s) : Honest s := by
  have hsound : Sound s := by
    refine Machine.ReachableBy.invariant (I := Sound) (fun s hinit => ?_)
      (fun s a s' _ hbreaks hi hstep => ?_) h
    · obtain rfl : s = { feed := Feed.new receiver } := hinit
      exact sound_new receiver
    · cases a with
      | caller a => exact hi.stepCaller hbreaks hstep
      | actor a => exact hi.stepActor hstep
      | transport a => exact hi.stepTransport hbreaks hstep
  exact hsound.honest

end Sound

/-! ### A close while a command is being written -/

/-- A call up to the moment its command is with the transport. -/
def handOverRun : List SessionAction :=
  [.caller (.operate raiseVolume), .actor .receive, .actor (.begin 1), .actor (.callAsk 0), .transport .take,
    .transport .write, .transport .written, .transport (.respond (.ok "MV40")), .actor (.callAnswer 0 2 false),
    .actor .callSend, .transport .take, .transport .write]

/-- The write takes longer than the close waits. -/
def cutOffRun : List SessionAction :=
  handOverRun ++ [.caller .close, .caller .abort, .transport .kill, .caller (.abandoned 0 raiseVolume.id)]

/-- The call is told that its command was not dispatched, and its bytes are on the wire. -/
theorem not_honest_cutOffRun : ∃ s, (x3800hSession livingRoom).Reachable s ∧ ¬ Honest s := by
  obtain ⟨s, hexec, hreturned, hwire⟩ : ∃ s, (x3800hSession livingRoom).exec { feed := Feed.new livingRoom }
      cutOffRun = some s ∧ s.returned = [(0, .indeterminate 1 .notDispatched
        "receiver session stopped before operation completion")] ∧ s.wire = [0] := by
    decide
  refine ⟨s, Machine.reachable_of_exec _ cutOffRun rfl hexec, fun hhonest => ?_⟩
  refine hhonest 0 (.indeterminate 1 .notDispatched "receiver session stopped before operation completion")
    ?_ rfl ?_
  · rw [hreturned]
    exact List.mem_singleton_self _
  · rw [hwire]
    exact List.mem_singleton_self _

/-- The write is confirmed before the session is closed. -/
def confirmedRun : List SessionAction :=
  handOverRun ++
    [.transport .written, .actor .callSent, .actor (.callAsk 0), .transport .take, .transport .write,
      .transport .written, .transport (.respond (.ok "MV42")), .actor (.callAnswer 0 3 false), .actor .finish,
      .caller .close, .actor .receive, .transport .kill, .actor .closeDone]

def confirmedEnd : X3800hSession :=
  ((x3800hSession livingRoom).exec { feed := Feed.new livingRoom } confirmedRun).get (by decide)

theorem honest_confirmedEnd : Honest confirmedEnd :=
  honest_of_not_breaksOff livingRoom confirmedEnd
    (Machine.reachableBy_of_execBy ({ feed := Feed.new livingRoom } : X3800hSession) confirmedRun rfl (by decide))

end DenonAvr.Session
