import DenonAvr.Library.Machine
import DenonAvr.Session.Feed
import DenonAvr.Session.Reader

/-!
# The session and its connection

Two tasks of one session. The transport owns the socket: it reads lines, answers the query it holds, loses the
connection and makes a new one, which raises the generation. The actor owns the feed: it asks one query after
another, folds in what the transport queued, and looks at the generation before each query and before it reduces
the reply. Queued events and the generation travel separately, so the actor can learn of a new connection in
either order.

What the actor does between (which field it asks for next, and why) is a choice of the action; after a queued
reconnect it always asks before it takes the next event. `received` and `bound` are records for the statements:
which line had which sequence number and came from which connection, and which epoch stood for which connection.
-/

namespace DenonAvr.Session

open Domain Protocol Library

/-! ### The two tasks -/

/-- Where the transport is in the life of a connection. -/
inductive Wire
  | up
  /-- The connection failed and `Disconnected` is about to be published. -/
  | broken (message : String)
  /-- In `reconnect`. -/
  | retrying
  /-- The generation is raised and `Reconnected` is about to be published. -/
  | announcing
deriving DecidableEq

/-- What the actor is about. -/
inductive Duty
  | free
  /-- It has taken a reconnect from the queue, and asks before it takes another event. -/
  | resync
  /-- Its query is with the transport. -/
  | waiting (field : CoreField)
deriving DecidableEq

/-- A line the feed was given: its sequence number, the connection it was read on, and its text. -/
structure Received where
  seq : FrameSeq
  generation : ℕ
  line : String
deriving DecidableEq

structure Link where
  generation : ℕ := 0
  wire : Wire := .up
  /-- The event queue, each event with the connection it stems from. -/
  events : List (SessionEvent × ℕ) := [(.connected, 0)]
  /-- The answer to the query, with the connection it was read on. -/
  reply : Option (Except AvrSessionError String × ℕ) := none
  duty : Duty := .free
  feed : Feed
  received : List Received := []
  /-- Every epoch the published state was bound to, with the connection it stood for. -/
  bound : List (Epoch × ℕ) := [(1, 0)]
deriving DecidableEq

inductive LinkAction
  /-- The transport reads a line that answers no query. -/
  | line (text : String)
  /-- The transport reads the answer to the query. -/
  | reply (text : String)
  /-- The connection fails; a query the transport has taken is answered with the error. -/
  | fail (message : String) (error : Option AvrSessionError)
  | publishDisconnected
  /-- An attempt to reconnect fails, which is published too. -/
  | retry (message : String)
  | reconnect
  | publishReconnected
  /-- The actor begins `query_and_reduce`. -/
  | ask (field : CoreField)
  /-- The actor goes on with the answer; `marks` tells whether a failure is marked. -/
  | finish (now : MonotonicMillis) (marks : Bool)
  /-- The actor takes the next event. -/
  | event (now : MonotonicMillis)
  | markConverging (field : CoreField) (cause : SyncCause) (cycle : SyncCycleId) (now : MonotonicMillis)
  | markSettled (field : CoreField) (cycle : SyncCycleId) (now : MonotonicMillis)
  | expire (now : MonotonicMillis)
deriving DecidableEq

def eventsCapacity : ℕ := 32

namespace Link

def hasRoom (s : Link) : Bool := s.events.length < eventsCapacity

def push (s : Link) (event : SessionEvent) : Link :=
  { s with events := s.events ++ [(event, s.generation)] }

/-- Record the epoch of the published state as the one of connection `generation`. -/
def bind (s : Link) (generation : ℕ) : Link :=
  { s with bound := s.bound ++ s.feed.state.epoch.toList.map fun epoch => (epoch, generation) }

/-- Give a line from connection `generation` to the feed. -/
def reduce (s : Link) (now : MonotonicMillis) (line : String) (inQuery : Bool) (generation : ℕ) : Link :=
  { s with
    feed := (s.feed.reduceLine now line inQuery).1
    received := s.received ++ [⟨s.feed.frameSeq + 1, generation, line⟩] }

/-- Look at the generation. -/
def synchronize (s : Link) : Link :=
  { s with feed := s.feed.synchronizeGeneration s.generation }.bind s.generation

/-- Take an event from connection `generation`. -/
def takeEvent (s : Link) (now : MonotonicMillis) (generation : ℕ) : SessionEvent → Link
  | .line text => s.reduce now text false generation
  | .reconnected =>
    { s with feed := (s.feed.applyEvent now .reconnected).1, duty := .resync }.bind generation
  | event => { s with feed := (s.feed.applyEvent now event).1 }

def step (s : Link) : LinkAction → Option Link
  | .line text =>
    -- A line that finds the queue full is dropped.
    if s.wire = .up then some (if s.hasRoom then s.push (.line text) else s) else none
  | .reply text =>
    match s.duty with
    | .waiting field =>
      if s.wire = .up ∧ s.reply = none ∧ responseMatches (familyOf field) text = true then
        some { s with reply := some (.ok text, s.generation) }
      else none
    | _ => none
  | .fail message none => if s.wire = .up then some { s with wire := .broken message } else none
  | .fail message (some error) =>
    match s.duty with
    | .waiting _ =>
      if s.wire = .up ∧ s.reply = none then
        some { s with wire := .broken message, reply := some (.error error, s.generation) }
      else none
    | _ => none
  | .publishDisconnected =>
    match s.wire with
    | .broken message =>
      if s.hasRoom then some { s.push (.disconnected s.generation message) with wire := .retrying } else none
    | _ => none
  | .retry message =>
    if s.wire = .retrying ∧ s.hasRoom = true then some (s.push (.disconnected s.generation message))
    else none
  | .reconnect =>
    if s.wire = .retrying then some { s with generation := s.generation + 1, wire := .announcing } else none
  | .publishReconnected =>
    if s.wire = .announcing ∧ s.hasRoom = true then some { s.push .reconnected with wire := .up } else none
  | .ask field =>
    match s.duty with
    | .free | .resync => some { s.synchronize with duty := .waiting field }
    | .waiting _ => none
  | .finish now marks =>
    match s.duty, s.reply with
    | .waiting field, some (.error error, _) =>
      some { s with
        duty := .free
        reply := none
        feed := if marks then s.feed.markQueryFailed field (operationErrorText error) else s.feed }
    | .waiting _, some (.ok line, generation) =>
      some { s.synchronize.reduce now line true generation with duty := .free, reply := none }
    | _, _ => none
  | .event now =>
    match s.duty, s.events with
    | .free, (event, generation) :: events => some ({ s with events }.takeEvent now generation event)
    | _, _ => none
  | .markConverging field cause cycle now =>
    some { s with feed := s.feed.markConverging field cause cycle now }
  | .markSettled field cycle now => some { s with feed := s.feed.markSettled field cycle now }
  | .expire now => some { s with feed := s.feed.expire now }

end Link

/-- The session of a receiver, connected for the first time. -/
def link (receiver : ReceiverId) : Machine Link LinkAction where
  init s := s = { feed := Feed.new receiver }
  step := Link.step

/-! ### What is asked of it -/

/-- Every observation in the published state is what a line says of the field that was read on the connection of the
observation's epoch. -/
def Attested (s : Link) : Prop :=
  ∀ f o, (s.feed.state.fieldAt f).lastGood = some o →
    ∃ r ∈ s.received, r.seq = o.frameSeq ∧ r.generation + 1 = o.epoch ∧
      observationOf r.line = some o.value ∧ o.value.field = f

/-- The record of epochs ends with the published one. -/
def Recorded (s : Link) : Prop :=
  ∀ e, s.feed.state.epoch = some e → ∃ generation, s.bound.getLast? = some (e, generation)

/-- The published epochs never decrease, no two connections share one, and the current one is no further than
the transport's generation. -/
structure EpochsFaithful (s : Link) : Prop where
  recorded : Recorded s
  monotone : s.bound.Pairwise fun a b => a.1 ≤ b.1
  unshared : ∀ a ∈ s.bound, ∀ b ∈ s.bound, a.1 = b.1 → a.2 = b.2
  bounded : ∀ e, s.feed.state.epoch = some e → e ≤ s.generation + 1

/-- Whether the actor looks at the generation in this step. -/
def synchronizes (s : Link) : LinkAction → Bool
  | .ask _ => true
  | .finish _ _ =>
    match s.reply with
    | some (.ok _, _) => true
    | _ => false
  | _ => false

/-- A query finds a connection whose reconnect event has not been applied yet. -/
def early (s : Link) (a : LinkAction) : Bool := synchronizes s a && s.generation + 1 != s.feed.epoch

def isOldLine (generation : ℕ) (queued : SessionEvent × ℕ) : Bool :=
  match queued.1 with
  | .line _ => queued.2 != generation
  | _ => false

/-- A query looks at the generation while a line of an earlier connection is queued, or goes on with a reply
that was read on an earlier connection. -/
def outdated (s : Link) (a : LinkAction) : Bool :=
  synchronizes s a &&
    (s.events.any (isOldLine s.generation) ||
      match a, s.reply with
      | .finish _ _, some (.ok _, generation) => generation != s.generation
      | _, _ => false)

/-! ### Steps of the feed -/

section Feed
variable {s : Link} {a : LinkAction}

@[simp] theorem bind_feed (generation : ℕ) : (s.bind generation).feed = s.feed := rfl
@[simp] theorem bind_events (generation : ℕ) : (s.bind generation).events = s.events := rfl
@[simp] theorem bind_wire (generation : ℕ) : (s.bind generation).wire = s.wire := rfl
@[simp] theorem bind_duty (generation : ℕ) : (s.bind generation).duty = s.duty := rfl
@[simp] theorem bind_generation (generation : ℕ) : (s.bind generation).generation = s.generation := rfl
@[simp] theorem bind_received (generation : ℕ) : (s.bind generation).received = s.received := rfl

theorem mem_bound_bind {generation : ℕ} {b : Epoch × ℕ} :
    b ∈ (s.bind generation).bound ↔ b ∈ s.bound ∨ s.feed.state.epoch = some b.1 ∧ b.2 = generation := by
  obtain ⟨e, g⟩ := b
  cases h : s.feed.state.epoch <;> simp [Link.bind, h, eq_comm]

end Feed

/-! ### What a step can do -/

/-- Every branch of `Link.step`, with what it asks of the state. -/
inductive LinkStep (s : Link) : LinkAction → Link → Prop
  | line (text : String) (hwire : s.wire = .up) (hroom : s.hasRoom = true) : LinkStep s (.line text) (s.push (.line text))
  | drop (text : String) (hwire : s.wire = .up) (hroom : s.hasRoom = false) : LinkStep s (.line text) s
  | reply (text : String) (field : CoreField) (hduty : s.duty = .waiting field) (hwire : s.wire = .up)
      (hreply : s.reply = none) (hmatches : responseMatches (familyOf field) text = true) :
      LinkStep s (.reply text) { s with reply := some (.ok text, s.generation) }
  | fail (message : String) (hwire : s.wire = .up) : LinkStep s (.fail message none) { s with wire := .broken message }
  | failQuery (message : String) (error : AvrSessionError) (field : CoreField) (hduty : s.duty = .waiting field)
      (hwire : s.wire = .up) (hreply : s.reply = none) :
      LinkStep s (.fail message (some error))
        { s with wire := .broken message, reply := some (.error error, s.generation) }
  | publishDisconnected (message : String) (hwire : s.wire = .broken message) (hroom : s.hasRoom = true) :
      LinkStep s .publishDisconnected { s.push (.disconnected s.generation message) with wire := .retrying }
  | retry (message : String) (hwire : s.wire = .retrying) (hroom : s.hasRoom = true) :
      LinkStep s (.retry message) (s.push (.disconnected s.generation message))
  | reconnect (hwire : s.wire = .retrying) :
      LinkStep s .reconnect { s with generation := s.generation + 1, wire := .announcing }
  | publishReconnected (hwire : s.wire = .announcing) (hroom : s.hasRoom = true) :
      LinkStep s .publishReconnected { s.push .reconnected with wire := .up }
  | ask (field : CoreField) (hduty : ∀ field, s.duty ≠ .waiting field) :
      LinkStep s (.ask field) { s.synchronize with duty := .waiting field }
  | failed (now : MonotonicMillis) (marks : Bool) (field : CoreField) (error : AvrSessionError) (generation : ℕ)
      (hduty : s.duty = .waiting field) (hreply : s.reply = some (.error error, generation)) :
      LinkStep s (.finish now marks)
        { s with
          duty := .free
          reply := none
          feed := if marks then s.feed.markQueryFailed field (operationErrorText error) else s.feed }
  | finish (now : MonotonicMillis) (marks : Bool) (field : CoreField) (line : String) (generation : ℕ)
      (hduty : s.duty = .waiting field) (hreply : s.reply = some (.ok line, generation)) :
      LinkStep s (.finish now marks)
        { s.synchronize.reduce now line true generation with duty := .free, reply := none }
  | event (now : MonotonicMillis) (event : SessionEvent) (generation : ℕ) (events : List (SessionEvent × ℕ))
      (hduty : s.duty = .free) (hevents : s.events = (event, generation) :: events) :
      LinkStep s (.event now) ({ s with events }.takeEvent now generation event)
  | markConverging (field : CoreField) (cause : SyncCause) (cycle : SyncCycleId) (now : MonotonicMillis) :
      LinkStep s (.markConverging field cause cycle now) { s with feed := s.feed.markConverging field cause cycle now }
  | markSettled (field : CoreField) (cycle : SyncCycleId) (now : MonotonicMillis) :
      LinkStep s (.markSettled field cycle now) { s with feed := s.feed.markSettled field cycle now }
  | expire (now : MonotonicMillis) : LinkStep s (.expire now) { s with feed := s.feed.expire now }

theorem linkStep_of_step {s s' : Link} {a : LinkAction} (hstep : s.step a = some s') : LinkStep s a s' := by
  cases a with
  | line text =>
    simp only [Link.step] at hstep
    split_ifs at hstep with hwire hroom
    · cases hstep
      exact .line text hwire hroom
    · cases hstep
      exact .drop text hwire (eq_false_of_ne_true hroom)
  | reply text =>
    simp only [Link.step] at hstep
    split at hstep
    · rename_i field hduty
      split_ifs at hstep with hcond
      cases hstep
      exact .reply text field hduty hcond.1 hcond.2.1 hcond.2.2
    · cases hstep
  | fail message error =>
    cases error with
    | none =>
      simp only [Link.step] at hstep
      split_ifs at hstep with hwire
      cases hstep
      exact .fail message hwire
    | some error =>
      simp only [Link.step] at hstep
      split at hstep
      · rename_i field hduty
        split_ifs at hstep with hcond
        cases hstep
        exact .failQuery message error field hduty hcond.1 hcond.2
      · cases hstep
  | publishDisconnected =>
    simp only [Link.step] at hstep
    split at hstep
    · rename_i message hwire
      split_ifs at hstep with hroom
      cases hstep
      exact .publishDisconnected message hwire hroom
    · cases hstep
  | retry message =>
    simp only [Link.step] at hstep
    split_ifs at hstep with hcond
    cases hstep
    exact .retry message hcond.1 hcond.2
  | reconnect =>
    simp only [Link.step] at hstep
    split_ifs at hstep with hwire
    cases hstep
    exact .reconnect hwire
  | publishReconnected =>
    simp only [Link.step] at hstep
    split_ifs at hstep with hcond
    cases hstep
    exact .publishReconnected hcond.1 hcond.2
  | ask field =>
    simp only [Link.step] at hstep
    split at hstep
    · rename_i hduty
      cases hstep
      exact .ask field fun other hwaiting => nomatch hduty.symm.trans hwaiting
    · rename_i hduty
      cases hstep
      exact .ask field fun other hwaiting => nomatch hduty.symm.trans hwaiting
    · cases hstep
  | finish now marks =>
    simp only [Link.step] at hstep
    split at hstep
    · rename_i field error generation hduty hreply
      cases hstep
      exact .failed now marks field error generation hduty hreply
    · rename_i field line generation hduty hreply
      cases hstep
      exact .finish now marks field line generation hduty hreply
    · cases hstep
  | event now =>
    simp only [Link.step] at hstep
    split at hstep
    · rename_i event generation events hduty hevents
      cases hstep
      exact .event now event generation events hduty hevents
    · cases hstep
  | markConverging field cause cycle now =>
    cases hstep
    exact .markConverging field cause cycle now
  | markSettled field cycle now =>
    cases hstep
    exact .markSettled field cycle now
  | expire now =>
    cases hstep
    exact .expire now

/-! ### The record of epochs -/

section Recorded
variable {s s' : Link} {a : LinkAction}

theorem recorded_bind (s : Link) (generation : ℕ) : Recorded (s.bind generation) := by
  intro e he
  have he' : s.feed.state.epoch = some e := he
  exact ⟨generation, by simp [Link.bind, he']⟩

theorem recorded_synchronize (s : Link) : Recorded s.synchronize := recorded_bind _ _

theorem Recorded.of_same (h : Recorded s) (hbound : s'.bound = s.bound)
    (hstate : s'.feed.state.epoch = s.feed.state.epoch) : Recorded s' := by
  intro e he
  rw [hbound]
  exact h e (hstate ▸ he)

theorem Recorded.step (h : Recorded s) (hstep : s.step a = some s') : Recorded s' := by
  cases linkStep_of_step hstep with
  | line | drop | reply | fail | failQuery | publishDisconnected | retry | reconnect | publishReconnected => exact h
  | ask field => exact (recorded_synchronize s).of_same rfl rfl
  | failed now marks field error =>
    refine h.of_same rfl ?_
    show (if marks then s.feed.markQueryFailed field (operationErrorText error) else s.feed).state.epoch = _
    split_ifs
    · exact ReceiverState.mapField_epoch
    · rfl
  | finish => exact (recorded_synchronize s).of_same rfl Feed.reduceLine_epoch
  | event now event =>
    cases event with
    | connected => exact h
    | line text => exact h.of_same rfl Feed.reduceLine_epoch
    | disconnected failed message =>
      intro e he
      have he' : ((s.feed.applyEvent now (.disconnected failed message)).1).state.epoch = some e := he
      simp only [Feed.applyEvent] at he'
      split_ifs at he'
      · exact h e he'
      · cases he'
    | reconnected => exact recorded_bind _ _
  | markConverging => exact h.of_same rfl Feed.markConverging_epoch
  | markSettled => exact h.of_same rfl Feed.markSettled_epoch
  | expire now => exact h.of_same rfl (Feed.expire_epoch now)

/-- In every run the record of epochs ends with the published one. -/
theorem recorded_of_reachable {receiver : ReceiverId} (h : (link receiver).Reachable s) : Recorded s := by
  refine Machine.Reachable.invariant (I := Recorded) (fun s hinit => ?_)
    (fun s a s' _ hi hstep => hi.step hstep) h
  obtain rfl : s = { feed := Feed.new receiver } := hinit
  intro e he
  cases he
  exact ⟨0, rfl⟩

end Recorded

/-! ### Epochs, when no query is early -/

/-- The connections whose reconnect has not been applied yet, in order. -/
def announced (s : Link) : List ℕ :=
  (s.events.filterMap fun queued => if queued.1 = .reconnected then some queued.2 else none) ++
    if s.wire = .announcing then [s.generation] else []

/-- The feed is behind the transport by the reconnects it has not applied, and every epoch it was bound to is
the one after the connection's generation. -/
structure InStep (s : Link) : Prop where
  valid : s.feed.Valid
  behind : s.feed.epoch + (announced s).length = s.generation + 1
  order : announced s = List.range' s.feed.epoch (announced s).length
  bound : ∀ b ∈ s.bound, b.1 = b.2 + 1 ∧ b.1 ≤ s.feed.epoch
  monotone : s.bound.Pairwise fun a b => a.1 ≤ b.1

section InStep
variable {s s' : Link} {a : LinkAction} {receiver : ReceiverId}

theorem InStep.faithful (h : InStep s) (hrecorded : Recorded s) : EpochsFaithful s := by
  refine ⟨hrecorded, h.monotone, fun a ha b hb heq => ?_, fun e he => ?_⟩
  · have h1 := (h.bound a ha).1
    have h2 := (h.bound b hb).1
    rw [h1, h2] at heq
    exact Nat.succ_injective heq
  · rw [h.valid.epoch e he, ← h.behind]
    exact Nat.le_add_right _ _

/-- Nothing but the queue, the answer, the duty or a mark changes. -/
theorem InStep.of_same (h : InStep s) (hvalid : s'.feed.Valid) (hepoch : s'.feed.epoch = s.feed.epoch)
    (hannounced : announced s' = announced s) (hgeneration : s'.generation = s.generation)
    (hbound : s'.bound = s.bound) : InStep s' := by
  refine ⟨hvalid, ?_, ?_, ?_, ?_⟩
  · rw [hepoch, hannounced, hgeneration]
    exact h.behind
  · rw [hepoch, hannounced]
    exact h.order
  · rw [hepoch, hbound]
    exact h.bound
  · rw [hbound]
    exact h.monotone

theorem InStep.bind (h : InStep s) {generation : ℕ} (hepoch : s.feed.epoch = generation + 1) :
    InStep (s.bind generation) := by
  refine ⟨h.valid, h.behind, h.order, fun b hb => ?_, ?_⟩
  · rcases mem_bound_bind.mp hb with hold | ⟨he, hg⟩
    · exact h.bound b hold
    · rw [bind_feed, h.valid.epoch b.1 he, hg, hepoch]
      exact ⟨rfl, le_rfl⟩
  · unfold Link.bind
    refine List.pairwise_append.mpr ⟨h.monotone, ?_, fun a ha b hb => ?_⟩
    · cases s.feed.state.epoch <;> simp
    · cases he : s.feed.state.epoch with
      | none => simp [he] at hb
      | some e =>
        simp only [he, Option.toList_some, List.map_cons, List.map_nil, List.mem_singleton] at hb
        rw [hb, h.valid.epoch e he]
        exact (h.bound a ha).2

theorem InStep.synchronize (h : InStep s) (hearly : s.generation + 1 = s.feed.epoch) :
    InStep s.synchronize := by
  have hfeed : s.feed.synchronizeGeneration s.generation = s.feed :=
    Feed.synchronizeGeneration_of_eq hearly
  unfold Link.synchronize
  rw [hfeed]
  exact h.bind hearly.symm

theorem announced_push_of_ne {event : SessionEvent} (hne : event ≠ .reconnected) :
    announced (s.push event) = announced s := by
  simp [announced, Link.push, hne]
  rfl

theorem InStep.mark (h : InStep s) {feed : Feed} (hvalid : feed.Valid) (hepoch : feed.epoch = s.feed.epoch) :
    InStep { s with feed } :=
  h.of_same hvalid hepoch rfl rfl rfl

theorem InStep.reduce (h : InStep s) (now : MonotonicMillis) (line : String) (inQuery : Bool)
    (generation : ℕ) : InStep (s.reduce now line inQuery generation) :=
  h.of_same (h.valid.reduceLine now line inQuery) rfl rfl rfl rfl

/-- Taking an event; a reconnect raises the feed by the one connection it announces. -/
theorem InStep.takeEvent (h : InStep s) {now : MonotonicMillis} {generation : ℕ} {event : SessionEvent}
    {events : List (SessionEvent × ℕ)} (hevents : s.events = (event, generation) :: events) :
    InStep ({ s with events }.takeEvent now generation event) := by
  have hvalid := h.valid.applyEvent now event
  have hannounced : announced s =
      (if event = .reconnected then [generation] else []) ++ announced { s with events } := by
    unfold announced
    rw [hevents]
    by_cases hrec : event = .reconnected <;> simp [hrec]
  cases event with
  | connected => exact h.of_same hvalid rfl hannounced.symm rfl rfl
  | line text =>
    exact h.of_same hvalid rfl hannounced.symm rfl rfl
  | disconnected failed message =>
    refine h.of_same hvalid ?_ hannounced.symm rfl rfl
    show ((s.feed.applyEvent now (.disconnected failed message)).1).epoch = _
    simp only [Feed.applyEvent]
    split_ifs <;> rfl
  | reconnected =>
    simp only [if_true, List.singleton_append] at hannounced
    have horder := h.order
    have hbehind := h.behind
    rw [hannounced, List.length_cons, List.range'_succ] at horder
    obtain ⟨hfirst, hrest⟩ := List.cons.inj horder
    rw [hannounced, List.length_cons] at hbehind
    have hnext : InStep { s with
        events, feed := (s.feed.applyEvent now .reconnected).1, duty := .resync } := by
      refine ⟨hvalid, ?_, hrest, fun b hb => ?_, h.monotone⟩
      · show s.feed.epoch + 1 + (announced { s with events }).length = s.generation + 1
        lia
      · obtain ⟨h1, h2⟩ := h.bound b hb
        exact ⟨h1, h2.trans (Nat.le_succ _)⟩
    refine hnext.bind ?_
    show s.feed.epoch + 1 = generation + 1
    rw [hfirst]

theorem InStep.wire (h : InStep s) {wire : Wire} (hs : s.wire ≠ .announcing) (hne : wire ≠ .announcing) :
    InStep { s with wire } := by
  refine h.of_same h.valid rfl ?_ rfl rfl
  unfold announced
  simp only [if_neg hs, if_neg hne]

theorem InStep.push (h : InStep s) {event : SessionEvent} (hne : event ≠ .reconnected) :
    InStep (s.push event) :=
  h.of_same h.valid rfl (announced_push_of_ne hne) rfl rfl

theorem InStep.reconnect (h : InStep s) (hwire : s.wire = .retrying) :
    InStep { s with generation := s.generation + 1, wire := .announcing } := by
  have hannounced : announced { s with generation := s.generation + 1, wire := .announcing } =
      announced s ++ [s.generation + 1] := by
    simp [announced, hwire]
  obtain ⟨hvalid, hbehind, horder, hbound, hmonotone⟩ := h
  refine ⟨hvalid, ?_, ?_, hbound, hmonotone⟩
  · rw [hannounced, List.length_append, List.length_singleton]
    show s.feed.epoch + ((announced s).length + 1) = s.generation + 1 + 1
    lia
  · rw [hannounced, List.length_append, List.length_singleton, List.range'_concat]
    show announced s ++ [s.generation + 1] = List.range' s.feed.epoch (announced s).length ++ _
    rw [← horder, one_mul, hbehind]

theorem InStep.announce (h : InStep s) (hwire : s.wire = .announcing) :
    InStep { s.push .reconnected with wire := .up } := by
  refine h.of_same h.valid rfl ?_ rfl rfl
  simp [announced, Link.push, hwire]

theorem InStep.step (h : InStep s) (hearly : early s a = false) (hstep : s.step a = some s') :
    InStep s' := by
  cases linkStep_of_step hstep with
  | line text => exact h.push (by simp)
  | drop text => exact h
  | reply text => exact h.of_same h.valid rfl rfl rfl rfl
  | fail message hwire => exact h.wire (by simp [hwire]) (by simp)
  | failQuery message error field hduty hwire =>
    have hbroken : InStep { s with wire := .broken message } := h.wire (by simp [hwire]) (by simp)
    exact hbroken.of_same hbroken.valid rfl rfl rfl rfl
  | publishDisconnected message hwire =>
    refine InStep.wire (s := s.push _) (h.push (by simp)) ?_ (by simp)
    show s.wire ≠ .announcing
    simp [hwire]
  | retry message => exact h.push (by simp)
  | reconnect hwire => exact h.reconnect hwire
  | publishReconnected hwire => exact h.announce hwire
  | ask field =>
    have heq : s.generation + 1 = s.feed.epoch := by simpa [early, synchronizes] using hearly
    have hsync := h.synchronize heq
    exact hsync.of_same hsync.valid rfl rfl rfl rfl
  | failed now marks field error =>
    have hmarked : InStep { s with
        feed := if marks then s.feed.markQueryFailed field (operationErrorText error) else s.feed } := by
      refine h.mark ?_ ?_
      · split_ifs
        · exact h.valid.markQueryFailed field _
        · exact h.valid
      · split_ifs <;> rfl
    exact hmarked.of_same hmarked.valid rfl rfl rfl rfl
  | finish now marks field line generation hduty hreply =>
    have heq : s.generation + 1 = s.feed.epoch := by simpa [early, synchronizes, hreply] using hearly
    have hreduced := (h.synchronize heq).reduce now line true generation
    exact hreduced.of_same hreduced.valid rfl rfl rfl rfl
  | event now event generation events hduty hevents => exact h.takeEvent hevents
  | markConverging field cause cycle now => exact h.mark (h.valid.markConverging field cause cycle now) rfl
  | markSettled field cycle now => exact h.mark (h.valid.markSettled field cycle now) rfl
  | expire now => exact h.mark (h.valid.expire now) rfl

/-- **Epochs are monotone and faithful when no query is early.** In every run in which a query never finds a
connection before its reconnect event was applied, the published epochs never decrease, belong to one
connection each, and are no further than the transport's generation. -/
theorem epochsFaithful_of_not_early (receiver : ReceiverId) (s : Link)
    (h : (link receiver).ReachableBy (fun s a => early s a = false) s) : EpochsFaithful s := by
  have hinstep : InStep s := by
    refine Machine.ReachableBy.invariant (I := InStep) (fun s hinit => ?_)
      (fun s a s' _ hearly hi hstep => hi.step hearly hstep) h
    obtain rfl : s = { feed := Feed.new receiver } := hinit
    refine ⟨Feed.valid_new receiver, rfl, rfl, ?_, ?_⟩
    · simp [Feed.new]
    · simp
  exact hinstep.faithful (recorded_of_reachable h.reachable)

end InStep

/-! ### Evidence, when no query is outdated -/

/-- The connections of the lines that come before the next reconnect in a queue. -/
def leadingLines : List (SessionEvent × ℕ) → List ℕ
  | [] => []
  | (.reconnected, _) :: _ => []
  | (.line _, generation) :: events => generation :: leadingLines events
  | (.connected, _) :: events | (.disconnected _ _, _) :: events => leadingLines events

/-- A queue that announces no connection. -/
def Unannounced (events : List (SessionEvent × ℕ)) : Prop := ∀ queued ∈ events, queued.1 ≠ .reconnected

theorem mem_leadingLines_concat {events : List (SessionEvent × ℕ)} {queued : SessionEvent × ℕ} {generation : ℕ}
    (h : generation ∈ leadingLines (events ++ [queued])) :
    generation ∈ leadingLines events ∨ Unannounced events ∧ ∃ text, queued = (.line text, generation) := by
  induction events with
  | nil =>
    obtain ⟨event, tag⟩ := queued
    refine .inr ⟨by simp [Unannounced], ?_⟩
    cases event <;> simp_all [leadingLines]
  | cons first events ih =>
    obtain ⟨event, tag⟩ := first
    have hkeep : generation ∈ leadingLines (events ++ [queued]) → event ≠ .reconnected →
        generation ∈ leadingLines events ∨ Unannounced ((event, tag) :: events) ∧
          ∃ text, queued = (.line text, generation) := by
      intro hmem hne
      rcases ih hmem with hlead | ⟨hun, htext⟩
      · exact .inl hlead
      · refine .inr ⟨fun q hq => ?_, htext⟩
        rcases List.mem_cons.mp hq with rfl | hq
        · exact hne
        · exact hun q hq
    cases event with
    | reconnected => exact .inl h
    | connected => exact hkeep h (by simp)
    | disconnected failed message => exact hkeep h (by simp)
    | line text =>
      rcases List.mem_cons.mp h with rfl | hmem
      · exact .inl List.mem_cons_self
      · rcases hkeep hmem (by simp) with hlead | hnew
        · exact .inl (List.mem_cons_of_mem _ hlead)
        · exact .inr hnew

/-- The connection of a leading line is the one a line of the queue was read on. -/
theorem exists_line_of_mem_leadingLines {events : List (SessionEvent × ℕ)} {generation : ℕ}
    (h : generation ∈ leadingLines events) : ∃ text, ((.line text, generation) : SessionEvent × ℕ) ∈ events := by
  induction events with
  | nil => cases h
  | cons first events ih =>
    obtain ⟨event, tag⟩ := first
    cases event with
    | reconnected => cases h
    | connected =>
      obtain ⟨text, hmem⟩ := ih h
      exact ⟨text, List.mem_cons_of_mem _ hmem⟩
    | disconnected failed message =>
      obtain ⟨text, hmem⟩ := ih h
      exact ⟨text, List.mem_cons_of_mem _ hmem⟩
    | line text =>
      rcases List.mem_cons.mp h with rfl | hmem
      · exact ⟨text, List.mem_cons_self⟩
      · obtain ⟨text', hmem'⟩ := ih hmem
        exact ⟨text', List.mem_cons_of_mem _ hmem'⟩

/-- Unless the actor owes a query, the feed stands for the connection of the lines it is given next. -/
structure Aligned (s : Link) : Prop where
  attested : Attested s
  lead : s.duty ≠ .resync → ∀ generation ∈ leadingLines s.events, generation + 1 = s.feed.epoch
  settled : s.duty ≠ .resync → Unannounced s.events → s.wire ≠ .announcing →
    s.feed.epoch = s.generation + 1

section Aligned
variable {s s' : Link} {a : LinkAction} {receiver : ReceiverId}

/-- What keeps the values of the fields and the record keeps the attestation. -/
theorem Attested.of_same (h : Attested s) (hgood : ∀ f, (s'.feed.fresh f).1 = (s.feed.fresh f).1)
    (hreceived : s'.received = s.received) : Attested s' := by
  intro f o ho
  rw [hreceived]
  exact h f o ((hgood f).symm.trans ho)

theorem Aligned.of_same (h : Aligned s) (hgood : ∀ f, (s'.feed.fresh f).1 = (s.feed.fresh f).1)
    (hepoch : s'.feed.epoch = s.feed.epoch) (hreceived : s'.received = s.received)
    (hevents : s'.events = s.events) (hduty : s'.duty = .resync ↔ s.duty = .resync)
    (hwire : s'.wire ≠ .announcing → s.wire ≠ .announcing) (hgeneration : s'.generation = s.generation) :
    Aligned s' := by
  refine ⟨h.attested.of_same hgood hreceived, fun hne => ?_, fun hne hun hw => ?_⟩
  · rw [hevents, hepoch]
    exact h.lead fun heq => hne (hduty.mpr heq)
  · rw [hepoch, hgeneration]
    exact h.settled (fun heq => hne (hduty.mpr heq)) (hevents ▸ hun) (hwire hw)

/-- A line reduced while the feed stands for its connection is attested by it. -/
theorem Attested.reduce (h : Attested s) {now : MonotonicMillis} {line : String} {inQuery : Bool}
    {generation : ℕ} (hepoch : generation + 1 = s.feed.epoch) :
    Attested (s.reduce now line inQuery generation) := by
  intro f o ho
  rcases Feed.good_reduceLine ho with hgood | ⟨frame, hobs, hf, rfl⟩
  · obtain ⟨r, hr, hrest⟩ := h f o hgood
    exact ⟨r, List.mem_append_left _ hr, hrest⟩
  · exact ⟨⟨s.feed.frameSeq + 1, generation, line⟩, List.mem_append_right _ (List.mem_singleton_self _), rfl, hepoch,
      hobs, hf⟩

/-- A query that finds no old line in the queue settles the feed on the connection. -/
theorem Aligned.synchronize (h : Aligned s)
    (hold : ∀ queued ∈ s.events, isOldLine s.generation queued = false) {duty : Duty} :
    Aligned { s.synchronize with duty } := by
  have hepoch : (s.feed.synchronizeGeneration s.generation).epoch = s.generation + 1 :=
    Feed.synchronizeGeneration_epoch
  refine ⟨?_, fun _ generation hmem => ?_, fun _ _ _ => hepoch⟩
  · refine h.attested.of_same (fun f => ?_) rfl
    by_cases heq : s.generation + 1 = s.feed.epoch
    · show ((s.feed.synchronizeGeneration s.generation).fresh f).1 = _
      rw [Feed.synchronizeGeneration_of_eq heq]
    · show ((s.feed.synchronizeGeneration s.generation).fresh f).1 = _
      rw [(Feed.synchronizeGeneration_of_ne s.feed heq).2.2.2 f]
      split_ifs <;> rfl
  · obtain ⟨text, hline⟩ := exists_line_of_mem_leadingLines hmem
    have hnew := hold _ hline
    simp only [isOldLine, bne_eq_false_iff_eq] at hnew
    rw [hnew]
    exact hepoch.symm

theorem Aligned.push (h : Aligned s) {event : SessionEvent} (wire : Wire)
    (hline : ∀ text, event = .line text → s.wire ≠ .announcing)
    (hwire : wire ≠ .announcing → event ≠ .reconnected → s.wire ≠ .announcing) :
    Aligned { s.push event with wire } := by
  refine ⟨h.attested.of_same (fun _ => rfl) rfl, fun hne generation hmem => ?_, fun hne hun hw => ?_⟩
  · rcases mem_leadingLines_concat hmem with hlead | ⟨hun, text, heq⟩
    · exact h.lead hne generation hlead
    · cases heq
      exact (h.settled hne hun (hline text rfl)).symm
  · have hlast := hun (event, s.generation) (List.mem_append_right _ (List.mem_singleton_self _))
    exact h.settled hne (fun q hq => hun q (List.mem_append_left _ hq)) (hwire hw hlast)

theorem Aligned.takeEvent (h : Aligned s) {now : MonotonicMillis} {generation : ℕ} {event : SessionEvent}
    {events : List (SessionEvent × ℕ)} (hduty : s.duty = .free)
    (hevents : s.events = (event, generation) :: events) :
    Aligned ({ s with events }.takeEvent now generation event) := by
  have hne : s.duty ≠ .resync := by simp [hduty]
  have hlead := h.lead hne
  have hsettled : event ≠ .reconnected → Unannounced events → s.wire ≠ .announcing →
      s.feed.epoch = s.generation + 1 := by
    intro hrec hun
    apply h.settled hne
    intro q hq
    rw [hevents] at hq
    rcases List.mem_cons.mp hq with rfl | hq
    · exact hrec
    · exact hun q hq
  rw [hevents] at hlead
  cases event with
  | connected =>
    exact ⟨h.attested, fun _ => hlead, fun _ => hsettled (by simp)⟩
  | disconnected failed message =>
    have hsame : (s.feed.applyEvent now (.disconnected failed message)).1.epoch = s.feed.epoch := by
      simp only [Feed.applyEvent]
      split_ifs <;> rfl
    refine ⟨h.attested.of_same (fun f => ?_) rfl, fun _ => ?_, fun _ => ?_⟩
    · show ((s.feed.applyEvent now (.disconnected failed message)).1.fresh f).1 = _
      simp only [Feed.applyEvent]
      split_ifs
      · rfl
      · rw [Feed.fresh_markDisconnected]
        rfl
    · show ∀ g ∈ leadingLines events, g + 1 = (s.feed.applyEvent now (.disconnected failed message)).1.epoch
      rw [hsame]
      exact hlead
    · show _ → _ → (s.feed.applyEvent now (.disconnected failed message)).1.epoch = _
      rw [hsame]
      exact hsettled (by simp)
  | line text =>
    have hepoch : generation + 1 = s.feed.epoch := hlead generation List.mem_cons_self
    refine ⟨?_, fun _ g hg => ?_, fun _ => ?_⟩
    · exact Attested.reduce (s := { s with events }) h.attested hepoch
    · exact hlead g (List.mem_cons_of_mem _ hg)
    · exact hsettled (by simp)
  | reconnected =>
    refine ⟨h.attested.of_same (fun f => ?_) rfl, fun hnot => absurd rfl hnot, fun hnot => absurd rfl hnot⟩
    show ((s.feed.applyEvent now .reconnected).1.fresh f).1 = _
    unfold Feed.applyEvent Feed.fresh
    simp only [ReceiverState.fieldAt_establishEpoch, ReceiverState.fieldAt_markDisconnected]
    unfold FieldState.staleIfObserved
    split_ifs <;> rfl

theorem Aligned.step (h : Aligned s) (houtdated : outdated s a = false) (hstep : s.step a = some s') :
    Aligned s' := by
  have hold : synchronizes s a = true → ∀ queued ∈ s.events, isOldLine s.generation queued = false := by
    intro hsync queued hmem
    simp only [outdated, hsync, Bool.true_and, Bool.or_eq_false_iff] at houtdated
    simpa using List.any_eq_false.mp houtdated.1 queued hmem
  cases linkStep_of_step hstep with
  | line text hwire => exact h.push s.wire (fun _ _ => by simp [hwire]) (fun hw _ => hw)
  | drop text => exact h
  | reply text => exact h.of_same (fun _ => rfl) rfl rfl rfl Iff.rfl id rfl
  | fail message hwire => exact h.of_same (fun _ => rfl) rfl rfl rfl Iff.rfl (fun _ => by simp [hwire]) rfl
  | failQuery message error field hduty hwire =>
    exact h.of_same (fun _ => rfl) rfl rfl rfl Iff.rfl (fun _ => by simp [hwire]) rfl
  | publishDisconnected message hwire => exact h.push _ (fun _ heq => by cases heq) (fun _ _ => by simp [hwire])
  | retry message => exact h.push s.wire (fun _ heq => by cases heq) (fun hw _ => hw)
  | reconnect => exact ⟨h.attested.of_same (fun _ => rfl) rfl, h.lead, fun _ _ hw => absurd rfl hw⟩
  | publishReconnected => exact h.push _ (fun _ heq => by cases heq) (fun _ hne => absurd rfl hne)
  | ask field => exact h.synchronize (hold rfl)
  | failed now marks field error generation hduty =>
    refine h.of_same (fun f => ?_) ?_ rfl rfl (by simp [hduty]) id rfl
    · show ((if marks then s.feed.markQueryFailed field (operationErrorText error)
        else s.feed).fresh f).1 = _
      split_ifs
      · by_cases hf : f = field
        · subst hf
          rw [Feed.fresh_markQueryFailed_self]
        · rw [Feed.fresh_markQueryFailed _ hf]
      · rfl
    · show (if marks then s.feed.markQueryFailed field (operationErrorText error) else s.feed).epoch = _
      split_ifs <;> rfl
  | finish now marks field line generation hduty hreply =>
    have hsync : synchronizes s (.finish now marks) = true := by simp [synchronizes, hreply]
    have hsame : generation = s.generation := by
      simp only [outdated, hsync, Bool.true_and, Bool.or_eq_false_iff, hreply, bne_eq_false_iff_eq]
        at houtdated
      exact houtdated.2
    have hsettled : Aligned { s.synchronize with duty := .free } := h.synchronize (hold hsync)
    refine ⟨?_, hsettled.lead, hsettled.settled⟩
    refine Attested.reduce (s := s.synchronize) hsettled.attested ?_
    show generation + 1 = (s.feed.synchronizeGeneration s.generation).epoch
    rw [Feed.synchronizeGeneration_epoch, hsame]
  | event now event generation events hduty hevents => exact h.takeEvent hduty hevents
  | markConverging => exact h.of_same (fun _ => congrArg _ Feed.fresh_markConverging) rfl rfl rfl Iff.rfl id rfl
  | markSettled => exact h.of_same (fun _ => congrArg _ Feed.fresh_markSettled) rfl rfl rfl Iff.rfl id rfl
  | expire now =>
    refine h.of_same (fun f => ?_) rfl rfl rfl Iff.rfl id rfl
    rcases Feed.fresh_expire s.feed f now with heq | ⟨heq, -⟩
    · exact congrArg _ heq
    · exact heq

/-- **Evidence is bound to its own connection when no query is outdated.** In every run in which a query never
looks at the generation with a line of an earlier connection in the queue, and no reply of an earlier connection
is reduced, every observation is from a line of the connection its epoch stands for. -/
theorem attested_of_not_outdated (receiver : ReceiverId) (s : Link)
    (h : (link receiver).ReachableBy (fun s a => outdated s a = false) s) : Attested s := by
  have haligned : Aligned s := by
    refine Machine.ReachableBy.invariant (I := Aligned) (fun s hinit => ?_)
      (fun s a s' _ houtdated hi hstep => hi.step houtdated hstep) h
    obtain rfl : s = { feed := Feed.new receiver } := hinit
    refine ⟨fun f o ho => ?_, fun _ generation hmem => ?_, fun _ _ _ => rfl⟩
    · cases f <;> cases ho
    · cases hmem
  exact haligned.attested

end Aligned

/-! ### A reconnect behind the back of the queue -/

/-- While a query is answered an unrelated line is queued and the connection is lost. It is made again before
the actor goes on, and the next query finds the new generation with everything still in the queue. -/
def crossedRun : List LinkAction :=
  [.ask .systemPower, .line "MUON", .fail "receiver closed the socket" (some (.disconnected "closed")),
    .publishDisconnected, .reconnect, .publishReconnected, .finish 5 true, .ask .mainZonePower,
    .reply "ZMON", .finish 10 true, .event 11, .event 12]

def run (acts : List LinkAction) : Option Link := (link livingRoom).exec { feed := Feed.new livingRoom } acts

/-- The queued line of the first connection is published as current under the epoch of the second. -/
theorem not_attested_crossedRun : ∃ s, (link livingRoom).Reachable s ∧ ¬ Attested s := by
  obtain ⟨s, hexec, hgood, hreceived⟩ : ∃ s, run crossedRun = some s ∧
      (s.feed.state.fieldAt .mute).lastGood = some ⟨livingRoom, 2, 2, 12, .receiverFrame, .mute .on⟩ ∧
        s.received = [⟨1, 1, "ZMON"⟩, ⟨2, 0, "MUON"⟩] := by
    decide
  refine ⟨s, Machine.reachable_of_exec _ crossedRun rfl hexec, fun hattested => ?_⟩
  obtain ⟨r, hr, hseq, hgeneration, -⟩ := hattested .mute _ hgood
  rw [hreceived] at hr
  simp only [List.mem_cons, List.not_mem_nil, or_false] at hr
  rcases hr with rfl | rfl
  · cases hseq
  · cases hgeneration

/-- The queued reconnect then raises the feed once more: epoch three, with the transport on its second
connection. -/
theorem not_epochsFaithful_crossedRun : ∃ s, (link livingRoom).Reachable s ∧ ¬ EpochsFaithful s := by
  obtain ⟨s, hexec, hepoch, hgeneration⟩ : ∃ s, run (crossedRun ++ [.event 13, .event 14]) = some s ∧
      s.feed.state.epoch = some 3 ∧ s.generation = 1 := by
    decide
  refine ⟨s, Machine.reachable_of_exec _ _ rfl hexec, fun hfaithful => ?_⟩
  have hle := hfaithful.bounded 3 hepoch
  rw [hgeneration] at hle
  exact absurd hle (by decide)

/-- A reconnect that the actor takes from the queue before it asks again. -/
def orderlyRun : List LinkAction :=
  [.ask .volume, .reply "MV40", .finish 5 true, .event 6, .fail "receiver closed the socket" none,
    .publishDisconnected, .reconnect, .publishReconnected, .event 7, .event 8, .ask .volume, .reply "MV42",
    .finish 9 true]

def orderlyEnd : Link := (run orderlyRun).get (by decide)

theorem epochsFaithful_orderlyEnd : EpochsFaithful orderlyEnd :=
  epochsFaithful_of_not_early livingRoom orderlyEnd
    (Machine.reachableBy_of_execBy ({ feed := Feed.new livingRoom } : Link) orderlyRun rfl (by decide))

theorem attested_orderlyEnd : Attested orderlyEnd :=
  attested_of_not_outdated livingRoom orderlyEnd
    (Machine.reachableBy_of_execBy ({ feed := Feed.new livingRoom } : Link) orderlyRun rfl (by decide))

end DenonAvr.Session
