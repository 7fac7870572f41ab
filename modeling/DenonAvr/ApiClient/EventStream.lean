import DenonAvr.ApiContract.EventText
import DenonAvr.ApiContract.Wire
import DenonAvr.Library.Broadcast
import DenonAvr.Server.Streams

/-!
# The event streams, end to end

What the server's two streams carry, and what the client's caller is given of it: the operation events of the service, and
the states of a receiver. The text goes through the framework, is cut into the frames of a body wherever the connection
cuts it, with keep-alives in between, and may break off anywhere.
-/

namespace DenonAvr.ApiClient

open Domain Application Library ApiContract

/-! ### What the server sends -/

def endReasonName : Server.EndReason → String
  | .sessionClosed => "session_closed"
  | .revoked => "revoked"
  | .shutdown => "shutdown"
  | .maxAge => "max_age"

/-- `EndPayload`. -/
def endRecord : Record Server.EndReason :=
  .field "reason" (.choice [.sessionClosed, .revoked, .shutdown, .maxAge] endReasonName)

/-- `state_event`, by the view of the endpoint. -/
def stateEvent (kind : Application.EndpointKind) (state : ReceiverState) : EventName × Json :=
  match kind with
  | .operator => (.state, (StateView.record.coding false).write (StateView.ofState state : OperatorStateView))
  | .agent => (.state, (StateView.record.coding false).write (StateView.ofState state : AgentStateView))

def operationEvent : Given OperationSnapshot → EventName × Json
  | .update snapshot => (.operation, (OperationDto.record.coding false).write (.of snapshot))
  | .missed => (.missed, .object [])

/-- What the payloads of the streams are that a client reads, with numbers of 64 bits. -/
inductive IsPayload : Json → Prop
  | operation (snapshot : OperationSnapshot) (h : FitsWire snapshot) : IsPayload (operationEvent (.update snapshot)).2
  | state (kind : Application.EndpointKind) (state : ReceiverState) (h : StateFits state) :
      IsPayload (stateEvent kind state).2

/-- The event that says why the stream ends, unless its client is gone. -/
def endEvent (reason : Option Server.EndReason) : List (EventName × Json) :=
  (reason.map fun reason => (.end, (endRecord.coding false).write reason)).toList

/-- `operation_stream`: what the service gave the task, and why it ended. -/
def operationStream (given : List (Given OperationSnapshot)) (reason : Option Server.EndReason) : List (EventName × Json) :=
  given.map operationEvent ++ endEvent reason

/-- `state_stream`: the whole state first, and then the newest after each change. -/
def stateStream (kind : Application.EndpointKind) (states : List ReceiverState) (reason : Option Server.EndReason) :
    List (EventName × Json) :=
  states.map (stateEvent kind) ++ endEvent reason

/-! ### The reader -/

inductive StreamFault
  /-- The connection broke. -/
  | broken
  /-- The server wrote something the contract does not allow. -/
  | malformed
deriving DecidableEq

/-- A frame of a body. -/
inductive Frame
  | data (bytes : List UInt8)
  | trailers

def Frame.bytes : Frame → List UInt8
  | .data bytes => bytes
  | .trailers => []

/-- The bytes that arrive. -/
def arrivedBytes (frames : List Frame) : List UInt8 := frames.flatMap Frame.bytes

structure EventReader where
  /-- The frames of the body that are still to come. -/
  frames : List Frame
  /-- Whether the connection breaks behind them. -/
  breaks : Bool
  parser : Parser := .new
  queue : List Event := []
  finished : Bool := false

namespace EventReader

/-- The frames are read until one completes an event. -/
def pull (r : EventReader) (parser : Parser) : List Frame → Except StreamFault (Option Event) × EventReader
  | [] =>
    if r.breaks then (.error .broken, { r with parser, frames := [] })
    else (.ok none, { r with parser, frames := [], finished := true })
  | .trailers :: frames => pull r parser frames
  | .data bytes :: frames =>
    match parser.push bytes with
    | .error _ => (.error .malformed, { r with parser, frames })
    | .ok (parser, []) => pull r parser frames
    | .ok (parser, event :: queue) => (.ok (some event), { r with parser, frames, queue })

/-- The next event, or `none` once the stream has ended. -/
def next (r : EventReader) : Except StreamFault (Option Event) × EventReader :=
  match r.queue with
  | event :: queue => (.ok (some event), { r with queue })
  | [] => if r.finished then (.ok none, r) else pull r r.parser r.frames

/-- There is less left to read. -/
def Behind (r' r : EventReader) : Prop :=
  r'.frames.length < r.frames.length ∨ r'.frames.length = r.frames.length ∧ r'.queue.length < r.queue.length

theorem lex_of_behind {r r' : EventReader} (h : Behind r' r) :
    Prod.Lex (· < ·) (· < ·) (r'.frames.length, r'.queue.length) (r.frames.length, r.queue.length) := by
  rcases h with hframes | ⟨hframes, hqueue⟩
  · exact .left _ _ hframes
  · rw [hframes]
    exact .right _ hqueue

theorem Behind.trans {r r' r'' : EventReader} (h : Behind r'' r') (h' : Behind r' r) : Behind r'' r := by
  unfold Behind at *
  omega

theorem pull_behind {r r' : EventReader} {parser : Parser} {frames : List Frame} {event : Event}
    (h : r.pull parser frames = (.ok (some event), r')) : r'.frames.length < frames.length := by
  induction frames generalizing parser with
  | nil =>
    unfold pull at h
    split_ifs at h <;> cases h
  | cons frame rest ih =>
    rw [List.length_cons]
    cases frame with
    | trailers =>
      have hrest := ih h
      omega
    | data bytes =>
      unfold pull at h
      split at h
      · cases h
      · have hrest := ih h
        omega
      · obtain ⟨-, rfl⟩ := Prod.mk.inj h
        exact Nat.lt_succ_self _

theorem next_behind {r r' : EventReader} {event : Event} (h : r.next = (.ok (some event), r')) : Behind r' r := by
  unfold next at h
  split at h
  · rename_i first queue hqueue
    obtain ⟨-, rfl⟩ := Prod.mk.inj h
    refine .inr ⟨rfl, ?_⟩
    rw [hqueue]
    exact Nat.lt_succ_self _
  · split_ifs at h
    · cases h
    · exact .inl (pull_behind h)

end EventReader

/-! ### The client's two streams -/

/-- What a view is read from, and how its reader calls what it cannot read. -/
structure Texts where
  json : JsonText
  words : String → String

section Client
variable (texts : Texts)

/-- `Event::decode`. -/
def decode {α : Type} (record : Record α) (event : Event) : Option α :=
  (texts.json.read event.data.toList).bind (record.coding false).read

/-- An operation event that cannot be read ends the stream. -/
def readOperation (event : Event) : Option OperationSnapshot :=
  (decode texts OperationDto.record event).bind fun dto => dto.toSnapshot.toOption

/-- `RemoteOperationEvents::next`. -/
def nextOperation (r : EventReader) : Option (Given OperationSnapshot) × EventReader :=
  match h : r.next with
  | (.ok (some event), r') =>
    match event.name with
    | .operation => ((readOperation texts event).map .update, r')
    | .missed => (some .missed, r')
    | .end => (none, r')
    | .state => nextOperation r'
  | (_, r') => (none, r')
termination_by (r.frames.length, r.queue.length)
decreasing_by exact EventReader.lex_of_behind (EventReader.next_behind h)

theorem nextOperation_behind {r r' : EventReader} {given : Given OperationSnapshot}
    (h : nextOperation texts r = (some given, r')) : r'.Behind r := by
  fun_induction nextOperation texts r with
  | case1 r r1 event hnext hname =>
    obtain ⟨-, rfl⟩ := Prod.mk.inj h
    exact EventReader.next_behind hnext
  | case2 r r1 event hnext hname =>
    obtain ⟨-, rfl⟩ := Prod.mk.inj h
    exact EventReader.next_behind hnext
  | case3 r r1 event hnext hname => cases h
  | case4 r r1 event hnext hname ih => exact (ih h).trans (EventReader.next_behind hnext)
  | case5 => cases h

/-- What a caller is given, call after call, until there is no more. -/
def operations (r : EventReader) : List (Given OperationSnapshot) :=
  match h : nextOperation texts r with
  | (some given, r') => given :: operations r'
  | (none, _) => []
termination_by (r.frames.length, r.queue.length)
decreasing_by exact EventReader.lex_of_behind (nextOperation_behind texts h)

theorem nextOperation_eq (r : EventReader) :
    nextOperation texts r =
      match r.next with
      | (.ok (some event), r') =>
        match event.name with
        | .operation => ((readOperation texts event).map .update, r')
        | .missed => (some .missed, r')
        | .end => (none, r')
        | .state => nextOperation texts r'
      | (_, r') => (none, r') := by
  rw [nextOperation]
  split
  · rename_i hnext
    rw [hnext]
  · rename_i result r' hresult hnext
    rw [hnext]
    rcases result with _ | _ | event
    · rfl
    · rfl
    · exact absurd rfl (hresult event)

theorem operations_eq (r : EventReader) :
    operations texts r =
      match nextOperation texts r with
      | (some given, r') => given :: operations texts r'
      | (none, _) => [] := by
  rw [operations]
  split <;> rename_i hnext <;> rw [hnext]

/-- What a caller is given of a list of events. -/
def operationsOf : List Event → List (Given OperationSnapshot)
  | [] => []
  | event :: events =>
    match event.name with
    | .operation =>
      match readOperation texts event with
      | some snapshot => .update snapshot :: operationsOf events
      | none => []
    | .missed => .missed :: operationsOf events
    | .end => []
    | .state => operationsOf events

/-! #### A receiver's states -/

/-- The client's error for an answer that is not what the contract describes. -/
def unreadable (why : String) : ControlError := .unavailable ("the server's answer could not be read: " ++ why)

def readView {F E : Type} [Flat F] [Flat E] [Detail F] [Extras E] (event : Event) : Except ControlError ReceiverState :=
  match decode texts (StateView.record : Record (StateView F E)) event with
  | none => .error (unreadable ("an event's data could not be read: " ++ texts.words event.data))
  | some view => view.intoState.mapError unreadable

/-- `decode_state`, by the view this client was given. -/
def decodeState (kind : Application.EndpointKind) (event : Event) : Except ControlError ReceiverState :=
  match kind with
  | .operator => readView (F := FieldText) (E := Diagnostics) texts event
  | .agent => readView (F := NoText) (E := NoText) texts event

/-- `ended`: the port's reading of a stream that has ended. -/
def ended (event : Event) : ControlError :=
  match decode texts endRecord event with
  | some .revoked => .forbidden
  | _ => .unavailable "receiver service unavailable"

/-- The states that the task behind a subscription shows it, up to the end of the session. -/
def pumpStates (kind : Application.EndpointKind) (r : EventReader) : List ReceiverState :=
  match h : r.next with
  | (.ok (some event), r') =>
    match event.name with
    | .state =>
      match decodeState texts kind event with
      | .ok state => state :: pumpStates kind r'
      | .error _ => []
    | .end => []
    | .operation | .missed => pumpStates kind r'
  | _ => []
termination_by (r.frames.length, r.queue.length)
decreasing_by all_goals exact EventReader.lex_of_behind (EventReader.next_behind h)

/-- `ApiClient::state`, once the server has answered: the states a subscriber is shown, one after another. -/
def openState (kind : Application.EndpointKind) (unreachable : ControlError) (r : EventReader) :
    Except ControlError (List ReceiverState) :=
  match r.next with
  | (.ok (some first), r') =>
    if first.name = .end then .error (ended texts first)
    else (decodeState texts kind first).map fun state => state :: pumpStates texts kind r'
  | _ => .error unreachable

theorem pumpStates_eq (kind : Application.EndpointKind) (r : EventReader) :
    pumpStates texts kind r =
      match r.next with
      | (.ok (some event), r') =>
        match event.name with
        | .state =>
          match decodeState texts kind event with
          | .ok state => state :: pumpStates texts kind r'
          | .error _ => []
        | .end => []
        | .operation | .missed => pumpStates texts kind r'
      | _ => [] := by
  rw [pumpStates]
  split
  · rename_i hnext
    rw [hnext]
  · rename_i hnext
    rcases hread : r.next with ⟨_ | _ | event, r'⟩
    · rfl
    · rfl
    · exact absurd hread (hnext _ _)

/-- The states of a list of events. -/
def statesOf (kind : Application.EndpointKind) : List Event → List ReceiverState
  | [] => []
  | event :: events =>
    match event.name with
    | .state =>
      match decodeState texts kind event with
      | .ok state => state :: statesOf kind events
      | .error _ => []
    | .end => []
    | .operation | .missed => statesOf kind events

end Client

/-! ### What the reader gives -/

namespace EventReader

/-- The events that call after call of `next` gives, until it gives no more. -/
inductive Yields : EventReader → List Event → Prop
  | ended {r r' : EventReader} {result : Except StreamFault (Option Event)} (h : r.next = (result, r'))
      (hresult : ∀ event, result ≠ .ok (some event)) : Yields r []
  | more {r r' : EventReader} {event : Event} {events : List Event} (h : r.next = (.ok (some event), r'))
      (hrest : Yields r' events) : Yields r (event :: events)

section Yields
variable {r r' : EventReader} {parser parser' : Parser} {events more : List Event} {bytes : List UInt8}

theorem Yields.congr (h : Yields r' events) (hnext : r.next = r'.next) : Yields r events := by
  cases h with
  | ended hended hresult => exact .ended (hnext.trans hended) hresult
  | more hmore hrest => exact .more (hnext.trans hmore) hrest

theorem push_append (h : parser.push bytes = .ok (parser', events)) (rest : List UInt8) :
    parser.push (bytes ++ rest) = (parser'.push rest).map fun t => (t.1, events ++ t.2) := by
  unfold Parser.push at *
  rw [readAll_append, h]
  rfl

theorem push_append_error {e : ParseError} (h : parser.push bytes = .error e) (rest : List UInt8) :
    parser.push (bytes ++ rest) = .error e := by
  unfold Parser.push at *
  rw [readAll_append, h]
  rfl

theorem yields_queue (queue : List Event) (h : Yields { r with queue := [] } events) :
    Yields { r with queue } (queue ++ events) := by
  induction queue with
  | nil => exact h
  | cons event queue ih => exact .more rfl ih

/-- What is pulled has to do with what was pulled before by the parser only. -/
theorem pull_eq (parser' : Parser) (frames' frames : List Frame) (parser : Parser) :
    pull { r with parser := parser', frames := frames' } parser frames = pull r parser frames := by
  induction frames generalizing parser with
  | nil => rfl
  | cons frame rest ih =>
    cases frame with
    | trailers => exact ih parser
    | data bytes =>
      unfold pull
      split <;> first | rfl | exact ih _

/-- The reader gives the events of what it read, which is all that arrives unless it cannot be read. -/
theorem yields (hfinished : r.finished = false) :
    ∃ front more parser, front <+: arrivedBytes r.frames ∧ r.parser.push front = .ok (parser, more) ∧
      Yields r (r.queue ++ more) ∧
        ((∃ read, r.parser.push (arrivedBytes r.frames) = .ok read) → front = arrivedBytes r.frames) := by
  suffices hempty : ∃ front more parser, front <+: arrivedBytes r.frames ∧ r.parser.push front = .ok (parser, more) ∧
      Yields { r with queue := [] } more ∧
        ((∃ read, r.parser.push (arrivedBytes r.frames) = .ok read) → front = arrivedBytes r.frames) by
    obtain ⟨front, more, parser, hfront, hpush, hyields, hall⟩ := hempty
    exact ⟨front, more, parser, hfront, hpush, yields_queue r.queue hyields, hall⟩
  obtain ⟨frames, breaks, parser, queue, finished⟩ := r
  obtain rfl : finished = false := hfinished
  dsimp only
  clear queue
  induction frames generalizing parser with
  | nil =>
    refine ⟨[], [], parser, List.prefix_rfl, rfl, ?_, fun _ => rfl⟩
    cases breaks with
    | true => exact .ended rfl (by simp)
    | false => exact .ended rfl (by simp)
  | cons frame rest ih =>
    cases frame with
    | trailers =>
      obtain ⟨front, more, parser', hfront, hpush, hyields, hall⟩ := ih parser
      exact ⟨front, more, parser', hfront, hpush, hyields.congr (pull_eq (r := ⟨_, breaks, parser, [], false⟩) _ _ _ _).symm, hall⟩
    | data bytes =>
      have hbytes : arrivedBytes (.data bytes :: rest) = bytes ++ arrivedBytes rest := List.flatMap_cons
      rw [hbytes]
      cases hread : parser.push bytes with
      | error e =>
        refine ⟨[], [], parser, List.nil_prefix, rfl, ?_, fun hok => ?_⟩
        · have hpull : next ⟨.data bytes :: rest, breaks, parser, [], false⟩ =
              (.error .malformed, ⟨rest, breaks, parser, [], false⟩) := by
            show pull _ parser (.data bytes :: rest) = _
            unfold pull
            rw [hread]
          exact .ended hpull (by simp)
        · obtain ⟨read, hok⟩ := hok
          rw [push_append_error hread] at hok
          cases hok
      | ok t =>
        obtain ⟨parser', events⟩ := t
        obtain ⟨front, more, parser'', hfront, hpush, hyields, hall⟩ := ih parser'
        refine ⟨bytes ++ front, events ++ more, parser'', (List.prefix_append_right_inj _).mpr hfront, ?_, ?_, fun hok => ?_⟩
        · rw [push_append hread, hpush]
          rfl
        · have hpull : next ⟨.data bytes :: rest, breaks, parser, [], false⟩ =
              next ⟨rest, breaks, parser', events, false⟩ := by
            show pull _ parser (.data bytes :: rest) = _
            unfold pull
            rw [hread]
            cases events with
            | nil => exact (pull_eq (r := ⟨_, breaks, parser, [], false⟩) _ _ _ _).symm
            | cons event events => rfl
          exact (yields_queue (r := ⟨rest, breaks, parser', [], false⟩) events hyields).congr hpull
        · obtain ⟨read, hok⟩ := hok
          rw [push_append hread] at hok
          cases hback : parser'.push (arrivedBytes rest) with
          | error e =>
            rw [hback] at hok
            cases hok
          | ok t => rw [hall ⟨t, hback⟩]

end Yields

end EventReader

section Arrives
variable {texts : Texts} {sse : SseFramework} {written : List Written} {frames : List Frame} {breaks : Bool}

theorem reading_of_push {data : List UInt8} {parser : Parser} {events : List Event} (h : Parser.new.push data = .ok (parser, events)) :
    reading {} data = .ok ((parser.toPending, parser.afterCr), events) := by
  have hpush := Parser.push_eq Parser.new data
  rw [h] at hpush
  exact hpush.symm

theorem push_of_reading {data : List UInt8} {q : Pending × Bool} {events : List Event} (h : reading {} data = .ok (q, events)) :
    ∃ read, Parser.new.push data = .ok read := by
  have hpush := Parser.push_eq Parser.new data
  cases hread : Parser.new.push data with
  | error e =>
    rw [hread] at hpush
    exact absurd (hpush.trans h) (by simp [Except.map])
  | ok read => exact ⟨read, rfl⟩

/-- The reader gives the first of the events that were written, and all that arrived whole when they all fit. -/
theorem yields_written (breaks : Bool) (hjson : Direct texts.json IsPayload) (hsse : sse.Lawful)
    (hcut : arrivedBytes frames <+: bytesOf texts.json sse written) :
    ∃ k, EventReader.Yields ⟨frames, breaks, .new, [], false⟩
        (((written.filterMap Written.event?).take k).map (eventOf texts.json)) ∧
      ((∀ sent ∈ written.filterMap Written.event?, Fits texts.json sent) →
        k = ((arrived texts.json sse written (arrivedBytes frames)).filterMap Written.event?).length) := by
  obtain ⟨front, more, parser, hfront, hpush, hyields, hall⟩ :=
    EventReader.yields (r := ⟨frames, breaks, .new, [], false⟩) rfl
  have hevents := reading_bytesOf hjson hsse (hfront.trans hcut) (reading_of_push hpush)
  obtain ⟨rest, hrest⟩ := (isPrefix_arrived texts.json sse written front).filterMap Written.event?
  refine ⟨((arrived texts.json sse written front).filterMap Written.event?).length, ?_, fun hfits => ?_⟩
  · rw [← hrest, List.take_left]
    rw [hevents] at hyields
    exact hyields
  · obtain ⟨q, events, hread⟩ := reading_ok hjson hsse
      (fun w hw sent hsent => hfits sent (List.mem_filterMap.mpr ⟨w, hw, hsent⟩)) hcut
    rw [hall (push_of_reading hread)]

theorem operations_of_yields {r : EventReader} {events : List Event} (h : r.Yields events) :
    operations texts r = operationsOf texts events := by
  induction h with
  | ended hnext hresult =>
    rename_i r r' result
    rw [operations_eq, nextOperation_eq, hnext]
    rcases result with _ | _ | event
    · rfl
    · rfl
    · exact absurd rfl (hresult event)
  | more hnext hrest ih =>
    rename_i r r' event events
    unfold operationsOf
    rw [operations_eq, nextOperation_eq, hnext]
    dsimp only
    cases event.name with
    | operation =>
      cases readOperation texts event with
      | none => rfl
      | some snapshot =>
        dsimp only [Option.map_some]
        rw [ih]
    | missed =>
      dsimp only
      rw [ih]
    | «end» => rfl
    | state =>
      dsimp only
      rw [← operations_eq, ih]

theorem pumpStates_of_yields (kind : Application.EndpointKind) {r : EventReader} {events : List Event} (h : r.Yields events) :
    pumpStates texts kind r = statesOf texts kind events := by
  induction h with
  | ended hnext hresult =>
    rename_i r r' result
    rw [pumpStates_eq, hnext]
    rcases result with _ | _ | event
    · rfl
    · rfl
    · exact absurd rfl (hresult event)
  | more hnext hrest ih =>
    rename_i r r' event events
    unfold statesOf
    rw [pumpStates_eq, hnext]
    dsimp only
    rw [ih]

/-- What was written with a record is decoded as what it was. -/
theorem decode_eventOf (hjson : Direct texts.json IsPayload) {α : Type} {record : Record α} {a : α} (name : EventName)
    (hpayload : IsPayload ((record.coding false).write a)) (h : record.ReadsBack a) :
    decode texts record (eventOf texts.json (name, (record.coding false).write a)) = some a := by
  have hread : (record.coding false).read ((record.coding false).write a) = some a := Record.coding_readsBack h
  unfold decode eventOf dataOf
  dsimp only
  rw [String.toList_ofList, hjson.read_write _ hpayload, Option.bind_some, hread]

/-- The numbers of what is given are of 64 bits. -/
def GivenFits (given : List (Given OperationSnapshot)) : Prop := ∀ snapshot, .update snapshot ∈ given → FitsWire snapshot

theorem operationsOf_take (hjson : Direct texts.json IsPayload) {given : List (Given OperationSnapshot)} (h : GivenFits given)
    (reason : Option Server.EndReason) (k : ℕ) :
    operationsOf texts (((operationStream given reason).take k).map (eventOf texts.json)) = given.take k := by
  induction given generalizing k with
  | nil =>
    cases reason with
    | none => simp [operationStream, endEvent, operationsOf]
    | some reason => cases k <;> simp [operationStream, endEvent, operationsOf, eventOf]
  | cons item given ih =>
    cases k with
    | zero => rfl
    | succ k =>
      have hrest := ih (fun snapshot hmem => h snapshot (List.mem_cons_of_mem _ hmem)) k
      show operationsOf texts (eventOf texts.json (operationEvent item) ::
        ((operationStream given reason).take k).map (eventOf texts.json)) = item :: given.take k
      cases item with
      | missed =>
        show Given.missed :: operationsOf texts _ = _
        rw [hrest]
      | update snapshot =>
        have hread : readOperation texts (eventOf texts.json (operationEvent (.update snapshot))) = some snapshot := by
          unfold readOperation operationEvent
          have hfits := h snapshot List.mem_cons_self
          rw [decode_eventOf hjson _ (.operation snapshot hfits) (OperationDto.readsBack_of hfits), Option.bind_some,
            OperationDto.toSnapshot_of]
          rfl
        unfold operationsOf
        rw [hread]
        show Given.update snapshot :: operationsOf texts _ = _
        rw [hrest]

/-- What a subscriber is shown of a state. -/
def shown : Application.EndpointKind → ReceiverState → ReceiverState
  | .operator => rebuiltState FieldText Diagnostics
  | .agent => rebuiltState NoText NoText

theorem carriesBaseline_shown (kind : Application.EndpointKind) (state : ReceiverState) :
    CarriesBaseline state (shown kind state) := by
  cases kind <;> exact carriesBaseline_rebuiltState _ _ state

theorem decodeState_eventOf (hjson : Direct texts.json IsPayload) (kind : Application.EndpointKind) {state : ReceiverState}
    (h : StateFits state) :
    decodeState texts kind (eventOf texts.json (stateEvent kind state)) = .ok (shown kind state) := by
  cases kind with
  | operator =>
    unfold decodeState readView stateEvent
    dsimp only
    rw [decode_eventOf hjson _ (.state .operator state h) (StateView.readsBack_of h)]
    dsimp only
    rw [intoState_ofState]
    rfl
  | agent =>
    unfold decodeState readView stateEvent
    dsimp only
    rw [decode_eventOf hjson _ (.state .agent state h) (StateView.readsBack_of h)]
    dsimp only
    rw [intoState_ofState]
    rfl

theorem name_stateEvent (kind : Application.EndpointKind) (state : ReceiverState) :
    (eventOf texts.json (stateEvent kind state)).name = .state := by
  cases kind <;> rfl

theorem statesOf_take (hjson : Direct texts.json IsPayload) (kind : Application.EndpointKind) {states : List ReceiverState}
    (h : ∀ state ∈ states, StateFits state) (reason : Option Server.EndReason) (k : ℕ) :
    statesOf texts kind (((stateStream kind states reason).take k).map (eventOf texts.json)) =
      (states.take k).map (shown kind) := by
  induction states generalizing k with
  | nil =>
    cases reason with
    | none => simp [stateStream, endEvent, statesOf]
    | some reason => cases k <;> simp [stateStream, endEvent, statesOf, eventOf]
  | cons state states ih =>
    cases k with
    | zero => rfl
    | succ k =>
      have hrest := ih (fun state hmem => h state (List.mem_cons_of_mem _ hmem)) k
      show statesOf texts kind (eventOf texts.json (stateEvent kind state) ::
        ((stateStream kind states reason).take k).map (eventOf texts.json)) = shown kind state :: (states.take k).map (shown kind)
      unfold statesOf
      rw [name_stateEvent, decodeState_eventOf hjson kind (h state List.mem_cons_self)]
      dsimp only
      rw [hrest]

theorem openState_of_yields {r : EventReader} {events : List Event} (kind : Application.EndpointKind) (unreachable : ControlError)
    (h : r.Yields events) (hend : ∀ first ∈ events.head?, first.name = .state) :
    openState texts kind unreachable r =
      match events with
      | [] => .error unreachable
      | first :: rest => (decodeState texts kind first).map fun state => state :: statesOf texts kind rest := by
  cases h with
  | ended hnext hresult =>
    rename_i r' result
    unfold openState
    rw [hnext]
    rcases result with _ | _ | event
    · rfl
    · rfl
    · exact absurd rfl (hresult event)
  | more hnext hrest =>
    rename_i r' event events
    have hname : event.name ≠ .end := by
      rw [hend event rfl]
      decide
    unfold openState
    rw [hnext]
    dsimp only
    rw [if_neg hname, pumpStates_of_yields kind hrest]

/-- A framework that writes events so. -/
def plainSse : SseFramework where
  event name data := lineOf ("event: " ++ name) ++ lineOf ("data: " ++ data) ++ lineOf ""
  keepAlive := lineOf ":" ++ lineOf ""

theorem plainSse_lawful : plainSse.Lawful where
  event _ _ _ _ := rfl
  keepAlive := ⟨"", ⟨by decide, by decide⟩, by decide, rfl⟩

def plainTexts : Texts := ⟨Json.canonical, id⟩

/-- A stream in two frames that meet somewhere, and the trailers behind them. -/
def cutFrames (n : ℕ) (bytes : List UInt8) : List Frame := [.data (bytes.take n), .data (bytes.drop n), .trailers]

theorem arrivedBytes_cutFrames (n : ℕ) (bytes : List UInt8) : arrivedBytes (cutFrames n bytes) = bytes := by
  simp [arrivedBytes, cutFrames, Frame.bytes]

variable (texts) in
/-- **The operation events arrive.** Whatever the service gave the stream's task, and wherever the text is cut into frames,
has keep-alives in it, or breaks off: the client's caller is given the first of these events, in their order and nothing
else, up to the last that arrived whole, unless one is larger than a reader accepts. -/
theorem operations_arrive (hjson : Direct texts.json IsPayload) (hsse : sse.Lawful) {given : List (Given OperationSnapshot)}
    (hgiven : GivenFits given) (reason : Option Server.EndReason)
    (hwritten : written.filterMap Written.event? = operationStream given reason)
    (hcut : arrivedBytes frames <+: bytesOf texts.json sse written) :
    operations texts ⟨frames, breaks, .new, [], false⟩ <+: given ∧
      ((∀ sent ∈ operationStream given reason, Fits texts.json sent) →
        operations texts ⟨frames, breaks, .new, [], false⟩ =
            given.take ((arrived texts.json sse written (arrivedBytes frames)).filterMap Written.event?).length ∧
          (arrivedBytes frames = bytesOf texts.json sse written →
            operations texts ⟨frames, breaks, .new, [], false⟩ = given)) := by
  obtain ⟨k, hyields, hk⟩ := yields_written breaks hjson hsse hcut
  rw [hwritten] at hyields hk
  have hoperations : operations texts ⟨frames, breaks, .new, [], false⟩ = given.take k := by
    rw [operations_of_yields hyields, operationsOf_take hjson hgiven]
  refine ⟨hoperations ▸ List.take_prefix k given, fun hfits => ⟨?_, fun hall => ?_⟩⟩
  · rw [hoperations, hk hfits]
  · rw [hoperations, hk hfits, hall, arrived_all, hwritten]
    refine List.take_of_length_le ?_
    unfold operationStream
    simp

theorem isWellFormed_lounge : ReceiverId.isWellFormed "lounge" = true := by decide

def muted : OperationSnapshot := { id := 7, receiver := ⟨"lounge", isWellFormed_lounge⟩, intent := .mute .on, status := .completed }

/-- An operation, and then some that were missed; with a keep-alive. -/
def mutedWritten : List Written :=
  [.event (operationEvent (.update muted)).1 (operationEvent (.update muted)).2, .keepAlive,
    .event (operationEvent .missed).1 (operationEvent .missed).2]

theorem operations_arrive_muted :
    operations plainTexts ⟨cutFrames 40 (bytesOf Json.canonical plainSse mutedWritten), false, .new, [], false⟩ =
      [.update muted, .missed] := by
  have hgiven : GivenFits [.update muted, .missed] := by
    intro snapshot hmem
    have hsnapshot : snapshot = muted := by simpa using hmem
    subst hsnapshot
    exact ⟨by decide, fun other hother => by cases hother⟩
  have hlength : ∀ sent ∈ operationStream [.update muted, .missed] none,
      4 * (Json.canonical.write sent.2).length + 6 ≤ maxEventBytes := by decide +kernel
  have hbytes := arrivedBytes_cutFrames 40 (bytesOf Json.canonical plainSse mutedWritten)
  exact ((operations_arrive plainTexts (canonical_direct IsPayload) plainSse_lawful hgiven none rfl
    (by rw [hbytes]; exact List.prefix_rfl)).2 fun sent hmem => fits_of_length (hlength sent hmem)).2 hbytes

/-- What a subscriber is given once so many events have arrived. -/
def shownOf (kind : Application.EndpointKind) (unreachable : ControlError) (states : List ReceiverState) (k : ℕ) :
    Except ControlError (List ReceiverState) :=
  if k = 0 then .error unreachable else .ok ((states.take k).map (shown kind))

theorem openState_take (hjson : Direct texts.json IsPayload) (kind : Application.EndpointKind) (unreachable : ControlError)
    {first : ReceiverState} {rest : List ReceiverState} (hstates : ∀ state ∈ first :: rest, StateFits state)
    (reason : Option Server.EndReason) {r : EventReader} {k : ℕ}
    (h : r.Yields (((stateStream kind (first :: rest) reason).take k).map (eventOf texts.json))) :
    openState texts kind unreachable r = shownOf kind unreachable (first :: rest) k := by
  cases k with
  | zero => exact openState_of_yields kind unreachable h (by simp)
  | succ k =>
    have hcons : ((stateStream kind (first :: rest) reason).take (k + 1)).map (eventOf texts.json) =
        eventOf texts.json (stateEvent kind first) :: ((stateStream kind rest reason).take k).map (eventOf texts.json) := rfl
    rw [hcons] at h
    rw [openState_of_yields kind unreachable h (by simp [name_stateEvent])]
    dsimp only
    rw [decodeState_eventOf hjson kind (hstates first List.mem_cons_self),
      statesOf_take hjson kind fun state hmem => hstates state (List.mem_cons_of_mem _ hmem)]
    rfl

variable (texts) in
/-- **The states arrive.** Whatever states the stream's task was given, the first of them at once: the client's subscriber
is shown these states by the view of its endpoint, in their order and nothing else, up to the last that arrived whole,
unless one is larger than a reader accepts; the stream does not open before the first has arrived; and what is shown
decides like what was sent. -/
theorem states_arrive (hjson : Direct texts.json IsPayload) (hsse : sse.Lawful) (kind : Application.EndpointKind)
    (unreachable : ControlError) {first : ReceiverState} {rest : List ReceiverState}
    (hstates : ∀ state ∈ first :: rest, StateFits state) (reason : Option Server.EndReason)
    (hwritten : written.filterMap Written.event? = stateStream kind (first :: rest) reason)
    (hcut : arrivedBytes frames <+: bytesOf texts.json sse written) :
    (∃ k, openState texts kind unreachable ⟨frames, breaks, .new, [], false⟩ = shownOf kind unreachable (first :: rest) k) ∧
      ((∀ sent ∈ stateStream kind (first :: rest) reason, Fits texts.json sent) →
        openState texts kind unreachable ⟨frames, breaks, .new, [], false⟩ =
            shownOf kind unreachable (first :: rest)
              ((arrived texts.json sse written (arrivedBytes frames)).filterMap Written.event?).length ∧
          (arrivedBytes frames = bytesOf texts.json sse written →
            openState texts kind unreachable ⟨frames, breaks, .new, [], false⟩ = .ok ((first :: rest).map (shown kind)))) ∧
      ∀ state, CarriesBaseline state (shown kind state) := by
  obtain ⟨k, hyields, hk⟩ := yields_written breaks hjson hsse hcut
  rw [hwritten] at hyields hk
  have hopen := openState_take hjson kind unreachable hstates reason hyields
  refine ⟨⟨k, hopen⟩, fun hfits => ⟨?_, fun hall => ?_⟩, carriesBaseline_shown kind⟩
  · rw [hopen, hk hfits]
  · have hlength : (first :: rest).length ≤ (stateStream kind (first :: rest) reason).length := by
      unfold stateStream
      simp
    rw [hopen, hk hfits, hall, arrived_all, hwritten]
    unfold shownOf
    rw [if_neg (by simp [stateStream]), List.take_of_length_le hlength]

def newLounge : ReceiverState := .new ⟨"lounge", isWellFormed_lounge⟩

def loungeWritten : List Written :=
  [.keepAlive, .event (stateEvent .agent newLounge).1 (stateEvent .agent newLounge).2,
    .event (stateEvent .agent newLounge.bump).1 (stateEvent .agent newLounge.bump).2]

theorem states_arrive_lounge :
    openState plainTexts .agent .forbidden
        ⟨cutFrames 500 (bytesOf Json.canonical plainSse loungeWritten), true, .new, [], false⟩ =
      .ok [shown .agent newLounge, shown .agent newLounge.bump] := by
  have hstates : ∀ state ∈ [newLounge, newLounge.bump], StateFits state := by
    intro state hmem
    rcases List.mem_pair.mp hmem with rfl | rfl <;> exact ⟨by decide, fun epoch hepoch => by cases hepoch⟩
  have hlength : ∀ sent ∈ stateStream .agent [newLounge, newLounge.bump] none,
      4 * (Json.canonical.write sent.2).length + 6 ≤ maxEventBytes := by decide +kernel
  have hbytes := arrivedBytes_cutFrames 500 (bytesOf Json.canonical plainSse loungeWritten)
  exact ((states_arrive plainTexts (canonical_direct IsPayload) plainSse_lawful .agent .forbidden hstates none rfl
    (by rw [hbytes]; exact List.prefix_rfl)).2.1 fun sent hmem => fits_of_length (hlength sent hmem)).2 hbytes

end Arrives

end DenonAvr.ApiClient
