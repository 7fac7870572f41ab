import DenonAvr.Infrastructure.TokenStore
import DenonAvr.Library.Machine

/-!
# Event streams and revoked tokens

The streams of agents and the Operator, and the revocation of tokens, under every order of their steps. A revocation
changes the memory of the token store and tells those who wait for a change after that. A stream opens, which for a
receiver's state may take many seconds, and is then fed by a task that polls one `select!` after another.

The revocation of its token is the end of a stream in every run in which no stream takes its first state after that
(`revocation_ends_streams`). A stream whose token is revoked while it opens does take that state
(`not_revocation_ends_streams`).
-/

namespace DenonAvr.Server

open Domain Application Library Infrastructure

/-! ### Streams -/

inductive EndReason
  | sessionClosed
  | revoked
  | shutdown
  | maxAge
deriving DecidableEq

/-- What a stream's task takes, to hand it to the client. -/
inductive StreamEvent
  | state
  | operation
  | missed
  | ended (reason : EndReason)
deriving DecidableEq

inductive EndpointKind
  | operator
  | agent
deriving DecidableEq

inductive StreamKind
  /-- `GET /v1/receivers/{id}/events`. -/
  | state
  /-- `GET /v1/operations/events`. -/
  | operations
deriving DecidableEq

inductive StreamPhase
  /-- The request is authenticated; the receiver is being connected and synchronised. -/
  | opening
  /-- The task is to take the first state. -/
  | first
  /-- In `select!`. The future `revoked` waits for a change from this one on, once it was polled. -/
  | selecting (seen : Option ℕ)
  /-- The event is being handed over. -/
  | sending
  /-- The `end` event is. -/
  | ending (reason : EndReason)
  | ended
deriving DecidableEq

structure Stream where
  endpoint : EndpointKind
  kind : StreamKind
  /-- The Operator's has none. -/
  token : Option TokenId
  phase : StreamPhase
  /-- A change woke the task, and it is still to poll. -/
  woken : Bool
  /-- What it took, and whether the revocation of its token had returned then. -/
  taken : List (StreamEvent × Bool)
deriving DecidableEq

/-- What `changed` or `next` gives. -/
inductive NextEvent
  | state
  | operation
  | missed
  /-- The session is closed, or the service gives no more events. -/
  | closed
deriving DecidableEq

/-- What is ready when a `select!` is polled. -/
structure Ready where
  /-- The client is gone. -/
  closed : Bool
  /-- The stream is at its maximum age. -/
  aged : Bool
  next : Option NextEvent
deriving DecidableEq

/-- `is_active`. -/
def isActive (entries : List TokenEntry) (id : TokenId) : Bool :=
  entries.any fun entry => decide (entry.record.id = id) && entry.record.isActive

/-- A poll of `revoked`: it resolves, or waits for a change after the one it saw. -/
def pollRevoked (entries : List TokenEntry) (version : ℕ) (token : Option TokenId) (seen : Option ℕ) : Bool × Option ℕ :=
  match token with
  | none => (false, seen)
  | some id =>
    -- a look behind the subscription, and behind each change
    if seen = some version then (false, seen)
    else if isActive entries id then (false, some version)
    else (true, some version)

def NextEvent.taken (kind : StreamKind) : NextEvent → StreamPhase × StreamEvent
  | .state => (.sending, .state)
  | .operation => (.sending, .operation)
  | .missed => (.sending, .missed)
  | .closed =>
    match kind with
    | .state => (.ending .sessionClosed, .ended .sessionClosed)
    | .operations => (.ending .shutdown, .ended .shutdown)

/-- A poll of the `select!`, which looks at its branches in order. -/
def Stream.poll (entries : List TokenEntry) (version : ℕ) (stopped : Bool) (stream : Stream) (seen : Option ℕ)
    (ready : Ready) : StreamPhase × Option StreamEvent :=
  if ready.closed then (.ended, none)
  else if stopped then (.ending .shutdown, some (.ended .shutdown))
  else
    match pollRevoked entries version stream.token seen with
    | (true, _) => (.ending .revoked, some (.ended .revoked))
    | (false, seen) =>
      if ready.aged ∧ stream.kind = .state ∧ stream.endpoint = .agent then (.ending .maxAge, some (.ended .maxAge))
      else
        match ready.next with
        | some next =>
          let (phase, event) := next.taken stream.kind
          (phase, some event)
        | none => (.selecting seen, none)

/-! ### The server -/

structure StreamServer where
  entries : List TokenEntry
  /-- `revocations`. -/
  version : ℕ
  /-- The token whose revocation is in memory and not yet told. -/
  revoking : Option TokenId
  /-- The tokens whose revocation has returned. -/
  returned : List TokenId
  stopped : Bool
  streams : List Stream
deriving DecidableEq

inductive StreamAction
  | issue (entry : TokenEntry)
  /-- `revoke`, up to its change of the memory. -/
  | revoke (id : TokenId) (now : WallTime)
  /-- It tells those who wait, and returns. -/
  | notify
  | stop
  /-- A request is authenticated. -/
  | request (endpoint : EndpointKind) (kind : StreamKind) (token : Option TokenId)
  /-- The receiver is connected and the subscription is there. -/
  | opened (stream : ℕ)
  | refused (stream : ℕ)
  | first (stream : ℕ)
  | poll (stream : ℕ) (ready : Ready)
  /-- The event was handed over, or the client did not take it in time. -/
  | sent (stream : ℕ) (ok : Bool)
deriving DecidableEq

/-- The task took an event. -/
def StreamServer.take (server : StreamServer) (stream : Stream) (event : Option StreamEvent) : List (StreamEvent × Bool) :=
  stream.taken ++ event.toList.map fun event => (event, stream.token.any fun id => decide (id ∈ server.returned))

def Stream.wake (stream : Stream) : Stream :=
  match stream.phase with
  | .selecting (some _) => { stream with woken := true }
  | _ => stream

def StreamServer.update (server : StreamServer) (i : ℕ) (step : Stream → Option Stream) : Option StreamServer :=
  server.streams[i]?.bind fun stream => (step stream).map fun stream =>
    { server with streams := server.streams.set i stream }

/-- The server on a token store. -/
def streamServer : Machine StreamServer StreamAction where
  init := fun server => (server.entries.map fun entry => entry.record.id).Nodup ∧ server.version = 0 ∧
    server.revoking = none ∧ server.returned = [] ∧ server.stopped = false ∧ server.streams = []
  step := fun server action =>
    match action with
    | .issue entry =>
      if entry.record.id ∈ server.entries.map (fun entry => entry.record.id) ∨ server.revoking ≠ none then none
      else some { server with entries := server.entries ++ [entry] }
    | .revoke id now =>
      if server.revoking ≠ none then none
      else
        match server.entries.find? fun entry => entry.record.id = id with
        | none => none
        | some entry =>
          if entry.record.isActive then
            (markRevoked id now server.entries).map fun (_, entries) => { server with entries, revoking := some id }
          else some { server with returned := server.returned ++ [id] }
    | .notify =>
      server.revoking.map fun id =>
        { server with
          version := server.version + 1
          revoking := none
          returned := server.returned ++ [id]
          streams := server.streams.map Stream.wake }
    | .stop => some { server with stopped := true }
    | .request endpoint kind token =>
      if token.all (isActive server.entries) then
        some { server with streams := server.streams ++ [⟨endpoint, kind, token, .opening, false, []⟩] }
      else none
    | .opened i => server.update i fun stream =>
      match stream.phase, stream.kind with
      | .opening, .state => some { stream with phase := .first }
      | .opening, .operations => some { stream with phase := .selecting none }
      | _, _ => none
    | .refused i => server.update i fun stream =>
      if stream.phase = .opening then some { stream with phase := .ended } else none
    | .first i => server.update i fun stream =>
      if stream.phase = .first then
        some { stream with phase := .sending, taken := server.take stream (some .state) }
      else none
    | .poll i ready => server.update i fun stream =>
      match stream.phase with
      | .selecting seen =>
        let (phase, event) := stream.poll server.entries server.version server.stopped seen ready
        some { stream with phase, woken := false, taken := server.take stream event }
      | _ => none
    | .sent i ok => server.update i fun stream =>
      match stream.phase with
      | .sending => some { stream with phase := if ok then .selecting none else .ended }
      | .ending _ => some { stream with phase := .ended }
      | _ => none

/-- A stream takes its first state after the revocation of its token has returned. -/
def beginsRevoked (server : StreamServer) : StreamAction → Bool
  | .first i => (server.streams[i]?.bind Stream.token).any fun id => decide (id ∈ server.returned)
  | _ => false

/-! ### The token store -/

section Store
variable {entries : List TokenEntry} {entry : TokenEntry} {id other : TokenId} {now : WallTime}

theorem isActive_concat : isActive (entries ++ [entry]) id =
    (isActive entries id || (decide (entry.record.id = id) && entry.record.isActive)) := by
  simp [isActive, List.any_append]

theorem isActive_revoked : isActive (entries.map (revokedAt other now)) id = (isActive entries id && !decide (id = other)) := by
  unfold isActive
  rw [List.any_map]
  induction entries with
  | nil => rfl
  | cons entry rest ih =>
    rw [List.any_cons, List.any_cons, ih, Function.comp_apply, revokedAt_id, isActive_revokedAt, Bool.and_or_distrib_right]
    congr 1
    by_cases hid : entry.record.id = id
    · subst hid
      simp
    · simp [hid]

theorem isActive_eq_false (hids : (entries.map fun entry => entry.record.id).Nodup)
    (hfind : (entries.find? fun entry => entry.record.id = id) = some entry) (hactive : entry.record.isActive = false) :
    isActive entries id = false := by
  have hid : entry.record.id = id := by simpa using List.find?_some hfind
  unfold isActive
  refine List.any_eq_false.mpr fun other hother => ?_
  by_cases hsame : other.record.id = id
  · obtain rfl : other = entry :=
      List.inj_on_of_nodup_map hids hother (List.mem_of_find?_eq_some hfind) (hsame.trans hid.symm)
    simp [hactive]
  · simp [hsame]

end Store

/-! ### Polls -/

section Poll
variable {entries : List TokenEntry} {version : ℕ} {stopped : Bool} {stream : Stream} {seen : Option ℕ} {ready : Ready}
  {id : TokenId}

/-- A poll that the revocation of the token is due for. -/
theorem poll_of_revoked (htoken : stream.token = some id) (hrevoked : isActive entries id = false)
    (hseen : seen ≠ some version) :
    stream.poll entries version stopped seen ready = (.ended, none) ∧ ready.closed = true ∨
      stream.poll entries version stopped seen ready = (.ending .shutdown, some (.ended .shutdown)) ∧ stopped = true ∨
      stream.poll entries version stopped seen ready = (.ending .revoked, some (.ended .revoked)) := by
  unfold Stream.poll
  by_cases hclosed : ready.closed = true
  · rw [if_pos hclosed]
    exact .inl ⟨rfl, hclosed⟩
  rw [if_neg hclosed]
  by_cases hstopped : stopped = true
  · rw [if_pos hstopped]
    exact .inr (.inl ⟨rfl, hstopped⟩)
  rw [if_neg hstopped]
  have hpoll : pollRevoked entries version stream.token seen = (true, some version) := by
    unfold pollRevoked
    rw [htoken]
    dsimp only
    rw [if_neg hseen, hrevoked, if_neg Bool.false_ne_true]
  rw [hpoll]
  exact .inr (.inr rfl)

/-- Where a poll leaves the task waiting, it waits for the next change, with the token active as of the last one. -/
theorem poll_eq_selecting {seen' : Option ℕ} {event : Option StreamEvent}
    (h : stream.poll entries version stopped seen ready = (.selecting seen', event)) :
    event = none ∧ (seen' = seen ∧ (stream.token = none ∨ seen = some version) ∨
      seen' = some version ∧ ∃ id, stream.token = some id ∧ isActive entries id = true) := by
  unfold Stream.poll at h
  by_cases hclosed : ready.closed = true
  · rw [if_pos hclosed] at h
    cases h
  rw [if_neg hclosed] at h
  by_cases hstopped : stopped = true
  · rw [if_pos hstopped] at h
    cases h
  rw [if_neg hstopped] at h
  cases hpoll : pollRevoked entries version stream.token seen with
  | mk revoked waiting =>
    rw [hpoll] at h
    cases revoked with
    | true => cases h
    | false =>
      dsimp only at h
      by_cases haged : ready.aged = true ∧ stream.kind = .state ∧ stream.endpoint = .agent
      · rw [if_pos haged] at h
        cases h
      rw [if_neg haged] at h
      cases hnext : ready.next with
      | some next =>
        rw [hnext] at h
        unfold NextEvent.taken at h
        cases next with
        | closed =>
          cases hkind : stream.kind with
          | state | operations =>
            rw [hkind] at h
            cases h
        | _ => cases h
      | none =>
        rw [hnext] at h
        obtain ⟨hphase, rfl⟩ := Prod.mk.inj h
        obtain rfl := StreamPhase.selecting.inj hphase
        refine ⟨rfl, ?_⟩
        unfold pollRevoked at hpoll
        split at hpoll
        · rename_i htoken
          exact .inl ⟨(Prod.mk.inj hpoll).2.symm, .inl htoken⟩
        · rename_i id htoken
          split_ifs at hpoll with hsame hactive
          · exact .inl ⟨(Prod.mk.inj hpoll).2.symm, .inr hsame⟩
          · exact .inr ⟨(Prod.mk.inj hpoll).2.symm, id, htoken, hactive⟩
          · cases hpoll

end Poll

/-! ### Runs -/

/-- The events that the task took after the revocation of its token had returned. -/
def Stream.late (stream : Stream) : List StreamEvent := (stream.taken.filter Prod.snd).map Prod.fst

/-- A stream whose end it is to have lost its token. -/
def Stream.EndsLate (stopped : Bool) (stream : Stream) : Prop :=
  stream.late = [] ∨ ∃ reason, stream.late = [.ended reason] ∧ (reason = .revoked ∨ reason = .shutdown ∧ stopped = true) ∧
    (stream.phase = .ending reason ∨ stream.phase = .ended)

/-- The task will notice every change that its future `revoked` has not seen. -/
def Stream.Notices (server : StreamServer) (stream : Stream) : Prop :=
  ∀ seen, stream.phase = .selecting (some seen) → ∃ id, stream.token = some id ∧ seen ≤ server.version ∧
    (seen < server.version → stream.woken = true) ∧
    (seen = server.version → isActive server.entries id = true ∨ server.revoking = some id)

structure Watched (server : StreamServer) : Prop where
  ids : (server.entries.map fun entry => entry.record.id).Nodup
  returned : ∀ id ∈ server.returned, isActive server.entries id = false ∧
    id ∈ server.entries.map fun entry => entry.record.id
  revoking : ∀ id, server.revoking = some id → isActive server.entries id = false ∧ id ∉ server.returned ∧
    id ∈ server.entries.map fun entry => entry.record.id
  notices : ∀ stream ∈ server.streams, stream.Notices server
  late : ∀ stream ∈ server.streams, stream.EndsLate server.stopped

section Runs
variable {server server' : StreamServer} {stream : Stream} {i : ℕ} {id : TokenId}

theorem late_take (stream : Stream) (event : Option StreamEvent) :
    ((server.take stream event).filter Prod.snd).map Prod.fst =
      stream.late ++ if stream.token.any fun id => decide (id ∈ server.returned) then event.toList else [] := by
  unfold StreamServer.take Stream.late
  rw [List.filter_append, List.map_append]
  cases event with
  | none =>
    cases stream.token.any fun id => decide (id ∈ server.returned) <;> rfl
  | some event =>
    cases hlate : stream.token.any fun id => decide (id ∈ server.returned) <;> simp

theorem Stream.EndsLate.nil (h : stream.EndsLate server.stopped) (hphase : ∀ reason, stream.phase ≠ .ending reason)
    (hended : stream.phase ≠ .ended) : stream.late = [] := by
  obtain hnil | ⟨reason, -, -, hending | hend⟩ := h
  · exact hnil
  · exact absurd hending (hphase reason)
  · exact absurd hend hended

theorem Watched.update (h : Watched server) {step : Stream → Option Stream}
    (hstep : ∀ stream stream', stream.Notices server → stream.EndsLate server.stopped → server.streams[i]? = some stream →
      step stream = some stream' → stream'.Notices server ∧ stream'.EndsLate server.stopped)
    (hupdate : server.update i step = some server') : Watched server' := by
  obtain ⟨stream, hstream, hmap⟩ := Option.bind_eq_some_iff.mp hupdate
  obtain ⟨stream', hstream', rfl⟩ := Option.map_eq_some_iff.mp hmap
  have hmem := List.mem_of_getElem? hstream
  obtain ⟨hnotices, hlate⟩ := hstep stream stream' (h.notices stream hmem) (h.late stream hmem) hstream hstream'
  refine { h with notices := fun other hother => ?_, late := fun other hother => ?_ }
  · obtain hother | rfl := List.mem_or_eq_of_mem_set hother
    · exact h.notices other hother
    · exact hnotices
  · obtain hother | rfl := List.mem_or_eq_of_mem_set hother
    · exact h.late other hother
    · exact hlate

/-- Whose revocation has returned does not wait for the change that told it. -/
theorem Watched.seen_ne (h : Watched server) (hmem : stream ∈ server.streams) (htoken : stream.token = some id)
    (hreturned : id ∈ server.returned) {seen : Option ℕ} (hphase : stream.phase = .selecting seen) :
    seen ≠ some server.version := by
  rintro rfl
  obtain ⟨other, hother, -, -, hactive⟩ := h.notices stream hmem _ hphase
  obtain rfl := Option.some.inj (htoken.symm.trans hother)
  obtain hactive | hrevoking := hactive rfl
  · cases hactive.symm.trans (h.returned id hreturned).1
  · exact (h.revoking id hrevoking).2.1 hreturned

/-- **A poll.** -/
theorem Watched.poll (h : Watched server) (hmem : stream ∈ server.streams) {seen : Option ℕ}
    (hphase : stream.phase = .selecting seen) {ready : Ready} {phase : StreamPhase} {event : Option StreamEvent}
    (hpoll : stream.poll server.entries server.version server.stopped seen ready = (phase, event)) :
    Stream.Notices server { stream with phase, woken := false, taken := server.take stream event } ∧
      Stream.EndsLate server.stopped { stream with phase, woken := false, taken := server.take stream event } := by
  have hnil : stream.late = [] := (h.late stream hmem).nil
    (fun reason hending => nomatch hphase.symm.trans hending) (fun hended => nomatch hphase.symm.trans hended)
  constructor
  · rintro seen' rfl
    obtain ⟨-, ⟨rfl, htoken⟩ | ⟨hsame, id, htoken, hactive⟩⟩ := poll_eq_selecting hpoll
    · obtain ⟨id, hid, hle, -, hactive⟩ := h.notices stream hmem seen' hphase
      obtain hnone | hsame := htoken
      · cases hid.symm.trans hnone
      · obtain rfl := Option.some.inj hsame
        exact ⟨id, hid, le_rfl, fun hlt => absurd hlt (lt_irrefl _), hactive⟩
    · obtain rfl := Option.some.inj hsame
      exact ⟨id, htoken, le_rfl, fun hlt => absurd hlt (lt_irrefl _), fun _ => .inl hactive⟩
  · unfold Stream.EndsLate
    rw [show Stream.late { stream with phase, woken := false, taken := server.take stream event } = _ from late_take ..,
      hnil, List.nil_append]
    split_ifs with hlate
    · obtain ⟨id, htoken, hreturned⟩ := (Option.any_eq_true _ _).mp hlate
      have hseen := h.seen_ne hmem htoken (of_decide_eq_true hreturned) hphase
      have hrevoked := (h.returned id (of_decide_eq_true hreturned)).1
      obtain ⟨heq, -⟩ | ⟨heq, hstopped⟩ | heq := poll_of_revoked htoken hrevoked hseen
      · obtain ⟨-, rfl⟩ := Prod.mk.inj (hpoll.symm.trans heq)
        exact .inl rfl
      · obtain ⟨rfl, rfl⟩ := Prod.mk.inj (hpoll.symm.trans heq)
        exact .inr ⟨.shutdown, rfl, .inr ⟨rfl, hstopped⟩, .inl rfl⟩
      · obtain ⟨rfl, rfl⟩ := Prod.mk.inj (hpoll.symm.trans heq)
        exact .inr ⟨.revoked, rfl, .inl rfl, .inl rfl⟩
    · exact .inl rfl

theorem Stream.Notices.congr (h : stream.Notices server) (hversion : server'.version = server.version)
    (hactive : ∀ id, stream.token = some id → isActive server.entries id = true ∨ server.revoking = some id →
      isActive server'.entries id = true ∨ server'.revoking = some id) : stream.Notices server' := by
  intro seen hphase
  obtain ⟨id, htoken, hle, hwoken, hseen⟩ := h seen hphase
  rw [hversion]
  exact ⟨id, htoken, hle, hwoken, fun hsame => hactive id htoken (hseen hsame)⟩

theorem Watched.issue (h : Watched server) {entry : TokenEntry}
    (hfresh : entry.record.id ∉ server.entries.map fun entry => entry.record.id) :
    Watched { server with entries := server.entries ++ [entry] } := by
  -- the new token is none of those that were there
  have hknown : ∀ id, id ∈ (server.entries.map fun entry => entry.record.id) → isActive server.entries id = false →
      isActive (server.entries ++ [entry]) id = false ∧ id ∈ (server.entries ++ [entry]).map fun entry => entry.record.id := by
    intro id hid hinactive
    have hne : entry.record.id ≠ id := fun heq => hfresh (heq ▸ hid)
    rw [isActive_concat, hinactive, decide_eq_false hne, List.map_append]
    exact ⟨rfl, List.mem_append_left _ hid⟩
  exact {
    ids := by
      show ((server.entries ++ [entry]).map _).Nodup
      rw [List.map_append, List.map_singleton]
      exact List.nodup_append.mpr ⟨h.ids, List.nodup_singleton _, fun id hid other hother heq => hfresh
        (List.mem_singleton.mp hother ▸ heq ▸ hid)⟩
    returned := fun id hid => hknown id (h.returned id hid).2 (h.returned id hid).1
    revoking := fun id hid => by
      obtain ⟨hinactive, hnew, hmem⟩ := h.revoking id hid
      obtain ⟨hinactive, hmem⟩ := hknown id hmem hinactive
      exact ⟨hinactive, hnew, hmem⟩
    notices := fun stream hstream => (h.notices stream hstream).congr rfl fun id _ hactive =>
      hactive.imp_left fun hactive => by
        show isActive (server.entries ++ [entry]) id = true
        rw [isActive_concat, hactive, Bool.true_or]
    late := h.late }

theorem Watched.revoke (h : Watched server) (hidle : server.revoking = none) {entry : TokenEntry} {now : WallTime}
    (hfind : (server.entries.find? fun entry => entry.record.id = id) = some entry) (hactive : entry.record.isActive = true) :
    Watched { server with entries := server.entries.map (revokedAt id now), revoking := some id } := by
  have hid : entry.record.id = id := by simpa using List.find?_some hfind
  have hmem : id ∈ server.entries.map fun entry => entry.record.id :=
    hid ▸ List.mem_map_of_mem (List.mem_of_find?_eq_some hfind)
  have hids : ((server.entries.map (revokedAt id now)).map fun entry => entry.record.id) =
      server.entries.map fun entry => entry.record.id := by
    rw [List.map_map]
    exact List.map_congr_left fun entry _ => revokedAt_id entry
  have hnew : id ∉ server.returned := by
    intro hreturned
    have hinactive := List.any_eq_false.mp (h.returned id hreturned).1 entry (List.mem_of_find?_eq_some hfind)
    simp [hid, hactive] at hinactive
  exact {
    ids := by rw [hids]; exact h.ids
    returned := fun other hother => by
      obtain ⟨hinactive, hmem⟩ := h.returned other hother
      rw [isActive_revoked, hinactive, hids]
      exact ⟨rfl, hmem⟩
    revoking := fun other hother => by
      obtain rfl := Option.some.inj hother
      rw [isActive_revoked, decide_eq_true rfl, hids, Bool.not_true, Bool.and_false]
      exact ⟨rfl, hnew, hmem⟩
    notices := fun stream hstream => (h.notices stream hstream).congr rfl fun other _ hother => by
      obtain hother | hother := hother
      · by_cases hsame : other = id
        · exact .inr (congrArg some hsame.symm)
        · refine .inl ?_
          rw [isActive_revoked, hother, decide_eq_false hsame]
          rfl
      · cases hidle.symm.trans hother
    late := h.late }

theorem Watched.notify (h : Watched server) (hrevoking : server.revoking = some id) :
    Watched { server with
      version := server.version + 1
      revoking := none
      returned := server.returned ++ [id]
      streams := server.streams.map Stream.wake } := by
  obtain ⟨hinactive, -, hmem⟩ := h.revoking id hrevoking
  refine { h with
    returned := fun other hother => ?_
    revoking := nofun
    notices := fun stream hstream => ?_
    late := fun stream hstream => ?_ }
  · obtain hother | hother := List.mem_append.mp hother
    · exact h.returned other hother
    · obtain rfl := List.mem_singleton.mp hother
      exact ⟨hinactive, hmem⟩
  · obtain ⟨before, hbefore, rfl⟩ := List.mem_map.mp hstream
    intro seen hphase
    have hsame : before.phase = .selecting (some seen) := by
      unfold Stream.wake at hphase
      split at hphase <;> exact hphase
    obtain ⟨other, htoken, hle, -⟩ := h.notices before hbefore seen hsame
    have hwake : before.wake = { before with woken := true } := by
      unfold Stream.wake
      rw [hsame]
    rw [hwake]
    refine ⟨other, htoken, hle.trans (Nat.le_succ _), fun _ => rfl, fun heq => ?_⟩
    -- the change is later than what the task saw
    have heq : seen = server.version + 1 := heq
    omega
  · obtain ⟨before, hbefore, rfl⟩ := List.mem_map.mp hstream
    have hlate := h.late before hbefore
    unfold Stream.wake
    split <;> exact hlate

theorem watched_of_reachable
    (h : streamServer.ReachableBy (fun server action => beginsRevoked server action = false) server) : Watched server := by
  refine h.invariant ?_ ?_
  · rintro ⟨entries, version, revoking, returned, stopped, streams⟩ ⟨hids, -, hrevoking, hreturned, -, hstreams⟩
    obtain rfl : revoking = none := hrevoking
    obtain rfl : returned = [] := hreturned
    obtain rfl : streams = [] := hstreams
    exact ⟨hids, nofun, nofun, nofun, nofun⟩
  · intro server action server' _ hbegins h hstep
    cases action with
    | issue entry =>
      unfold streamServer at hstep
      dsimp only at hstep
      split_ifs at hstep with hguard
      obtain rfl := Option.some.inj hstep
      exact h.issue fun hmem => hguard (.inl hmem)
    | revoke id now =>
      unfold streamServer at hstep
      dsimp only at hstep
      split_ifs at hstep with hidle
      have hidle : server.revoking = none := not_not.mp hidle
      cases hfind : server.entries.find? fun entry => entry.record.id = id with
      | none =>
        rw [hfind] at hstep
        cases hstep
      | some entry =>
        rw [hfind] at hstep
        dsimp only at hstep
        split_ifs at hstep with hactive
        · rw [markRevoked_spec h.ids hfind] at hstep
          obtain rfl := Option.some.inj hstep
          exact h.revoke hidle hfind hactive
        · obtain rfl := Option.some.inj hstep
          have hid : entry.record.id = id := by simpa using List.find?_some hfind
          refine { h with returned := fun other hother => ?_, revoking := fun other hother => by cases hidle.symm.trans hother }
          obtain hother | hother := List.mem_append.mp hother
          · exact h.returned other hother
          · obtain rfl := List.mem_singleton.mp hother
            exact ⟨isActive_eq_false h.ids hfind (eq_false_of_ne_true hactive),
              hid ▸ List.mem_map_of_mem (List.mem_of_find?_eq_some hfind)⟩
    | notify =>
      obtain ⟨id, hrevoking, rfl⟩ := Option.map_eq_some_iff.mp hstep
      exact h.notify hrevoking
    | stop =>
      obtain rfl := Option.some.inj hstep
      refine { h with late := fun stream hstream => ?_ }
      obtain hnil | ⟨reason, hlate, hreason, hphase⟩ := h.late stream hstream
      · exact .inl hnil
      · exact .inr ⟨reason, hlate, hreason.imp_right fun hshutdown => ⟨hshutdown.1, rfl⟩, hphase⟩
    | request endpoint kind token =>
      unfold streamServer at hstep
      dsimp only at hstep
      split_ifs at hstep
      obtain rfl := Option.some.inj hstep
      refine { h with notices := fun stream hstream => ?_, late := fun stream hstream => ?_ }
      · obtain hstream | hstream := List.mem_append.mp hstream
        · exact h.notices stream hstream
        · obtain rfl := List.mem_singleton.mp hstream
          exact nofun
      · obtain hstream | hstream := List.mem_append.mp hstream
        · exact h.late stream hstream
        · obtain rfl := List.mem_singleton.mp hstream
          exact .inl rfl
    | opened i =>
      refine h.update (fun stream stream' hnotices hlate _ hopened => ?_) hstep
      split at hopened
      · rename_i hphase hkind
        obtain rfl := Option.some.inj hopened
        exact ⟨nofun, .inl (hlate.nil (fun _ h => nomatch hphase.symm.trans h) fun h => nomatch hphase.symm.trans h)⟩
      · rename_i hphase hkind
        obtain rfl := Option.some.inj hopened
        exact ⟨nofun, .inl (hlate.nil (fun _ h => nomatch hphase.symm.trans h) fun h => nomatch hphase.symm.trans h)⟩
      · cases hopened
    | refused i =>
      refine h.update (fun stream stream' hnotices hlate _ hrefused => ?_) hstep
      split_ifs at hrefused with hphase
      obtain rfl := Option.some.inj hrefused
      exact ⟨nofun, .inl (hlate.nil (fun _ h => nomatch hphase.symm.trans h) fun h => nomatch hphase.symm.trans h)⟩
    | first i =>
      refine h.update (fun stream stream' hnotices hlate hstream hfirst => ?_) hstep
      split_ifs at hfirst with hphase
      obtain rfl := Option.some.inj hfirst
      refine ⟨nofun, .inl ?_⟩
      have hearly : (stream.token.any fun id => decide (id ∈ server.returned)) = false := by
        unfold beginsRevoked at hbegins
        dsimp only at hbegins
        rw [hstream] at hbegins
        exact hbegins
      rw [show Stream.late { stream with phase := .sending, taken := server.take stream (some .state) } = _ from late_take ..,
        hearly, if_neg Bool.false_ne_true, List.append_nil]
      exact hlate.nil (fun _ h => nomatch hphase.symm.trans h) fun h => nomatch hphase.symm.trans h
    | poll i ready =>
      refine h.update (fun stream stream' _ _ hstream hpoll => ?_) hstep
      split at hpoll
      · rename_i seen hphase
        obtain rfl := Option.some.inj hpoll
        exact h.poll (List.mem_of_getElem? hstream) hphase rfl
      · cases hpoll
    | sent i ok =>
      refine h.update (fun stream stream' hnotices hlate _ hsent => ?_) hstep
      split at hsent
      · rename_i hphase
        obtain rfl := Option.some.inj hsent
        have hnil := hlate.nil (fun _ h => nomatch hphase.symm.trans h) fun h => nomatch hphase.symm.trans h
        cases ok <;> exact ⟨nofun, .inl hnil⟩
      · rename_i reason hphase
        obtain rfl := Option.some.inj hsent
        refine ⟨nofun, ?_⟩
        obtain hnil | ⟨reason, hone, hreason, -⟩ := hlate
        · exact .inl hnil
        · exact .inr ⟨reason, hone, hreason, .inr rfl⟩
      · cases hsent

/-- The revocation of a token is the end of its streams. -/
structure EndsStreams (server : StreamServer) : Prop where
  /-- Nothing but the `end` is taken once a revocation has returned. -/
  late : ∀ stream ∈ server.streams, stream.late = [] ∨ stream.late = [.ended .revoked] ∨
    stream.late = [.ended .shutdown] ∧ server.stopped = true
  /-- The next poll is the end. -/
  next : ∀ stream ∈ server.streams, ∀ id, stream.token = some id → id ∈ server.returned → ∀ seen ready,
    stream.phase = .selecting seen →
      stream.poll server.entries server.version server.stopped seen ready = (.ended, none) ∧ ready.closed = true ∨
      stream.poll server.entries server.version server.stopped seen ready = (.ending .shutdown, some (.ended .shutdown)) ∧
        server.stopped = true ∨
      stream.poll server.entries server.version server.stopped seen ready = (.ending .revoked, some (.ended .revoked))
  /-- And it is due. -/
  woken : ∀ stream ∈ server.streams, ∀ id, stream.token = some id → id ∈ server.returned → ∀ seen,
    stream.phase = .selecting (some seen) → stream.woken = true

/-- **Revocation ends the streams of a token** in every run in which no stream takes its first state after the revocation
of its token has returned. -/
theorem revocation_ends_streams
    (h : streamServer.ReachableBy (fun server action => beginsRevoked server action = false) server) : EndsStreams server := by
  have hwatched := watched_of_reachable h
  refine ⟨fun stream hstream => ?_, fun stream hstream id htoken hreturned seen ready hphase => ?_,
    fun stream hstream id htoken hreturned seen hphase => ?_⟩
  · obtain hnil | ⟨reason, hlate, rfl | ⟨rfl, hstopped⟩, -⟩ := hwatched.late stream hstream
    · exact .inl hnil
    · exact .inr (.inl hlate)
    · exact .inr (.inr ⟨hlate, hstopped⟩)
  · exact poll_of_revoked htoken (hwatched.returned id hreturned).1 (hwatched.seen_ne hstream htoken hreturned hphase)
  · obtain ⟨-, -, hle, hwoken, -⟩ := hwatched.notices stream hstream seen hphase
    refine hwoken (lt_of_le_of_ne hle fun heq => ?_)
    exact hwatched.seen_ne hstream htoken hreturned hphase (congrArg some heq)

end Runs

/-! ### Two streams -/

section Example

def kitchenEntry : TokenEntry := ⟨⟨kitchenId, kitchen, 1, none⟩, lastBytes "kitchen"⟩

def servingKitchen : StreamServer := ⟨[kitchenEntry], 0, none, [], false, []⟩

/-- The token is revoked while its stream waits for the receiver. -/
def revokedOpening : List StreamAction :=
  [.request .agent .state (some kitchenId), .revoke kitchenId 2, .notify, .opened 0, .first 0]

/-- The receiver's state after the revocation has returned. -/
def firstAfterRevoked : Stream := ⟨.agent, .state, some kitchenId, .sending, false, [(.state, true)]⟩

def servedRevoked : StreamServer :=
  ⟨[⟨⟨kitchenId, kitchen, 1, some 2⟩, lastBytes "kitchen"⟩], 1, none, [kitchenId], false, [firstAfterRevoked]⟩

theorem exec_revokedOpening : streamServer.exec servingKitchen revokedOpening = some servedRevoked := by decide +kernel

/-- A stream whose token is revoked while it opens takes its first state. -/
theorem not_revocation_ends_streams : ∃ server, streamServer.Reachable server ∧ ¬EndsStreams server := by
  refine ⟨servedRevoked, ?_, fun hends => ?_⟩
  · exact Machine.reachable_of_exec servingKitchen revokedOpening
      ⟨List.nodup_singleton _, rfl, rfl, rfl, rfl, rfl⟩ exec_revokedOpening
  · exact absurd (hends.late firstAfterRevoked List.mem_cons_self) (by decide)

/-- A stream that waits for a change is told of the revocation. -/
def revokedWaiting : List StreamAction :=
  [.request .agent .state (some kitchenId), .opened 0, .first 0, .sent 0 true, .poll 0 ⟨false, false, none⟩,
    .revoke kitchenId 2, .notify, .poll 0 ⟨false, false, some .state⟩]

def endedRevoked : StreamServer :=
  ⟨[⟨⟨kitchenId, kitchen, 1, some 2⟩, lastBytes "kitchen"⟩], 1, none, [kitchenId], false,
    [⟨.agent, .state, some kitchenId, .ending .revoked, false, [(.state, false), (.ended .revoked, true)]⟩]⟩

theorem execBy_revokedWaiting : streamServer.execBy (fun server action => beginsRevoked server action = false)
    servingKitchen revokedWaiting = some endedRevoked := by decide +kernel

theorem revocation_ends_streams_revokedWaiting : EndsStreams endedRevoked :=
  revocation_ends_streams (Machine.reachableBy_of_execBy servingKitchen revokedWaiting
    ⟨List.nodup_singleton _, rfl, rfl, rfl, rfl, rfl⟩ execBy_revokedWaiting)

end Example

end DenonAvr.Server
