import DenonAvr.Library.Machine
import DenonAvr.Library.Segments
import DenonAvr.Protocol.X3800h

/-!
# The frame reader

What `run_session` does with the bytes of one connection: it waits for a request while it reads lines
(`next_request`), writes the request, and reads lines until one answers it (`read_response`). Every line is
read by `read_frame`, a loop over single bytes with a local buffer.

While it waits, the loop of `read_frame` races against the arrival of a request. When the request wins, the
buffer of the losing branch is dropped together with the bytes in it, which have been taken from the stream.
The next `read_frame` then begins in the middle of a line. `Frame.start` and `Frame.stop` record which bytes of
the stream a frame was read from, and `Faithful` says that these are the segments of the stream, in order.
-/

namespace DenonAvr.Session

open Domain Protocol Library

inductive AvrSessionError
  | invalidCommand (message : String)
  | connection (message : String)
  | timeout (message : String)
  | disconnected (message : String)
  | malformedFrame (message : String)
  | unexpectedResponse (message : String)
  | receiverError (message : String)
  | sessionStopped
deriving DecidableEq, Repr

/-- The `Display` text of the error. -/
def AvrSessionError.text : AvrSessionError → String
  | invalidCommand message => s!"invalid AVR command: {message}"
  | connection message => s!"AVR connection failed: {message}"
  | timeout message => s!"AVR session timed out: {message}"
  | disconnected message => s!"AVR disconnected: {message}"
  | malformedFrame message => s!"malformed AVR frame: {message}"
  | unexpectedResponse message => s!"unexpected AVR response: {message}"
  | receiverError message => s!"receiver reported an error: {message}"
  | sessionStopped => "AVR session stopped"

/-- The text of the `OperationError` a transport error becomes. -/
def operationErrorText (error : AvrSessionError) : String := s!"using AVR session: {error.text}"

/-! ### One frame -/

/-- What one byte does to the local buffer of `read_frame`. -/
inductive Taken
  | more (line : List UInt8)
  | frame (line : List UInt8)
  | malformed (error : AvrSessionError)

/-- The body of the loop of `read_frame`. -/
def takeByte (maxLineLength : ℕ) (line : List UInt8) (byte : UInt8) : Taken :=
  let line := line ++ [byte]
  if byte = carriageReturn then .frame line
  else if maxLineLength < line.length then
    .malformed (.malformedFrame s!"AVR response exceeded {maxLineLength} bytes")
  else .more line

/-- `std::str::from_utf8`. -/
def fromUtf8 (bytes : List UInt8) : Option String := String.fromUTF8? ⟨bytes.toArray⟩

def frameText (maxLineLength : ℕ) (line : List UInt8) : Except AvrSessionError String :=
  if line.getLast? ≠ some carriageReturn then
    .error (.malformedFrame "AVR line was not terminated by CR")
  else if maxLineLength < line.length - 1 then
    .error (.malformedFrame s!"AVR response exceeded {maxLineLength} bytes")
  else
    match fromUtf8 line.dropLast with
    | some text => .ok text
    | none => .error (.malformedFrame "AVR line is not valid UTF-8")

theorem utf8Bytes_of_fromUtf8 {bytes : List UInt8} {text : String} (h : fromUtf8 bytes = some text) :
    utf8Bytes text = bytes := by
  unfold fromUtf8 String.fromUTF8? at h
  split_ifs at h with hvalid
  simp only [Option.some.injEq] at h
  subst h
  simp [utf8Bytes, String.fromUTF8]

/-- The text of a frame is its line without the carriage return. -/
theorem utf8Bytes_of_frameText {maxLineLength : ℕ} {line : List UInt8} {text : String}
    (h : frameText maxLineLength (line ++ [carriageReturn]) = .ok text) : utf8Bytes text = line := by
  unfold frameText at h
  split_ifs at h with hend hlong
  rw [List.dropLast_concat] at h
  cases hdecode : fromUtf8 line with
  | none => simp [hdecode] at h
  | some text' =>
    simp only [hdecode, Except.ok.injEq] at h
    exact h ▸ utf8Bytes_of_fromUtf8 hdecode

/-! ### The reader of one connection -/

/-- A frame, and the positions of its first byte and of its carriage return in the stream. -/
structure Frame where
  start : ℕ
  stop : ℕ
  text : String
deriving DecidableEq

inductive Phase
  /-- In `next_request`. -/
  | waiting
  /-- A request has been taken; its transmission is paced and written. -/
  | writing (command : AvrCommand) (wantsResponse : Bool)
  /-- In `read_response`. -/
  | responding (family : String)
  /-- The connection has been given up. -/
  | ended
deriving DecidableEq

structure Reader where
  phase : Phase := .waiting
  /-- How many bytes have been taken from the stream. -/
  position : ℕ := 0
  /-- Where the current `read_frame` began. -/
  start : ℕ := 0
  /-- The local buffer of the current `read_frame`. -/
  line : List UInt8 := []
  /-- The frames produced on this connection, published or returned as a response. -/
  frames : List Frame := []
deriving DecidableEq

inductive ReaderAction
  /-- `read_u8` gives the next byte; `listening` tells whether somebody still takes events. -/
  | byte (listening : Bool)
  /-- The request branch of `select!` wins. -/
  | request (command : AvrCommand) (wantsResponse : Bool)
  /-- The write of the taken request ends. -/
  | written (ok : Bool)
  /-- The response deadline passes. -/
  | timeout
  /-- The socket ends or fails, or nobody can send requests any more. -/
  | fail
deriving DecidableEq

namespace Reader

/-- Whether a `read_frame` is running. -/
def isReading (s : Reader) : Bool :=
  match s.phase with
  | .waiting | .responding _ => true
  | .writing .. | .ended => false

/-- The connection is given up after `position` bytes, with the local buffer. -/
def giveUp (s : Reader) (position : ℕ) : Reader :=
  { s with phase := .ended, position, start := position, line := [] }

/-- Where the session goes on after a frame: `next_request` publishes it, `read_response` returns it when it answers the
query and publishes it otherwise. When nobody takes the events any more, `read_response` fails with an error that does not
end the session, and `next_request` ends it. -/
def afterFrame (s : Reader) (text : String) (listening : Bool) : Phase :=
  match s.phase with
  | .responding family => if !responseMatches family text && listening then .responding family else .waiting
  | phase => if listening then phase else .ended

def step (maxLineLength : ℕ) (stream : List UInt8) (s : Reader) : ReaderAction → Option Reader
  | .byte listening =>
    if s.isReading then
      stream[s.position]?.map fun byte =>
        match takeByte maxLineLength s.line byte with
        | .more line => { s with position := s.position + 1, line }
        | .malformed _ => s.giveUp (s.position + 1)
        | .frame line =>
          match frameText maxLineLength line with
          | .error _ => s.giveUp (s.position + 1)
          | .ok text =>
            { phase := s.afterFrame text listening
              position := s.position + 1
              start := s.position + 1
              line := []
              frames := s.frames ++ [⟨s.start, s.position, text⟩] }
    else none
  | .request command wantsResponse =>
    -- The future of `read_frame` is dropped with its buffer; what it took from the stream is gone.
    if s.phase = .waiting then
      some { s with phase := .writing command wantsResponse, start := s.position, line := [] }
    else none
  | .written ok =>
    match s.phase with
    | .writing command wantsResponse =>
      if !ok then some (s.giveUp s.position)
      else if wantsResponse then some { s with phase := .responding (getCommandFamily command.text) }
      else some { s with phase := .waiting }
    | _ => none
  | .timeout =>
    match s.phase with
    | .responding _ => some (s.giveUp s.position)
    | _ => none
  | .fail => if s.isReading then some (s.giveUp s.position) else none

end Reader

/-- The reader of one connection that delivers `stream`. -/
def reader (maxLineLength : ℕ) (stream : List UInt8) : Machine Reader ReaderAction where
  init s := s = {}
  step := Reader.step maxLineLength stream

/-- A request is taken while a line is partly read. -/
def CutsLine (s : Reader) (a : ReaderAction) : Prop :=
  (∃ command wantsResponse, a = .request command wantsResponse) ∧ s.line ≠ []

instance (s : Reader) (a : ReaderAction) : Decidable (CutsLine s a) :=
  match a with
  | .request command wantsResponse =>
    decidable_of_iff (s.line ≠ []) ⟨fun h => ⟨⟨command, wantsResponse, rfl⟩, h⟩, fun h => h.2⟩
  | .byte _ | .written _ | .timeout | .fail => .isFalse (by rintro ⟨⟨_, _, h⟩, -⟩; cases h)

/-- The frames are maximal segments of the stream, in stream order. -/
structure Faithful (stream : List UInt8) (frames : List Frame) : Prop where
  segment : ∀ frame ∈ frames, IsSegment carriageReturn stream frame.start frame.stop
  text : ∀ frame ∈ frames, utf8Bytes frame.text = slice stream frame.start frame.stop
  ordered : frames.Pairwise fun a b => a.stop < b.start

/-! ### What one step does -/

section Step
variable {maxLineLength : ℕ} {stream : List UInt8} {s s' : Reader} {a : ReaderAction}

/-- What a step does to the bytes and the frames: it buffers a byte, ends a frame, abandons the buffer, or
touches neither. -/
inductive Effect (stream : List UInt8) (s : Reader) (a : ReaderAction) (s' : Reader) : Prop
  | buffer (byte : UInt8) (hbyte : stream[s.position]? = some byte) (hne : byte ≠ carriageReturn)
      (heq : s' = { s with position := s.position + 1, line := s.line ++ [byte] })
  | frame (text : String) (hbyte : stream[s.position]? = some carriageReturn)
      (htext : utf8Bytes text = s.line) (hposition : s'.position = s.position + 1)
      (hstart : s'.start = s.position + 1) (hline : s'.line = [])
      (hframes : s'.frames = s.frames ++ [⟨s.start, s.position, text⟩])
  | cut (hrequest : ∃ command wantsResponse, a = .request command wantsResponse)
      (hposition : s'.position = s.position) (hstart : s'.start = s.position) (hline : s'.line = [])
      (hframes : s'.frames = s.frames)
  | gaveUp (hphase : s'.phase = .ended) (hstart : s'.start = s'.position) (hle : s.position ≤ s'.position)
      (hwithin : s.position ≤ stream.length → s'.position ≤ stream.length) (hline : s'.line = []) (hframes : s'.frames = s.frames)
  | other (phase : Phase) (heq : s' = { s with phase })

theorem effect_giveUp {position : ℕ} (hle : s.position ≤ position)
    (hwithin : s.position ≤ stream.length → position ≤ stream.length) :
    Effect stream s a (s.giveUp position) :=
  .gaveUp rfl rfl hle hwithin rfl rfl

theorem effect_byte {listening : Bool} (h : Reader.step maxLineLength stream s (.byte listening) = some s') :
    Effect stream s (.byte listening) s' := by
  simp only [Reader.step] at h
  split_ifs at h with hreading
  obtain ⟨byte, hbyte, rfl⟩ := Option.map_eq_some_iff.mp h
  have hnext : s.position + 1 ≤ stream.length := (List.getElem?_eq_some_iff.mp hbyte).1
  by_cases hcr : byte = carriageReturn
  · subst hcr
    simp only [takeByte, if_true]
    cases htext : frameText maxLineLength (s.line ++ [carriageReturn]) with
    | error error => exact effect_giveUp (Nat.le_succ _) fun _ => hnext
    | ok text => exact .frame text hbyte (utf8Bytes_of_frameText htext) rfl rfl rfl rfl
  · simp only [takeByte, if_neg hcr]
    by_cases hlong : maxLineLength < (s.line ++ [byte]).length
    · rw [if_pos hlong]
      exact effect_giveUp (Nat.le_succ _) fun _ => hnext
    · rw [if_neg hlong]
      exact .buffer byte hbyte hcr rfl

theorem step_effect (h : Reader.step maxLineLength stream s a = some s') : Effect stream s a s' := by
  cases a with
  | byte listening => exact effect_byte h
  | request command wantsResponse =>
    simp only [Reader.step] at h
    split_ifs at h with hphase
    cases h
    exact .cut ⟨command, wantsResponse, rfl⟩ rfl rfl rfl rfl
  | written ok =>
    simp only [Reader.step] at h
    cases hphase : s.phase with
    | writing command wantsResponse =>
      simp only [hphase] at h
      split_ifs at h with hok hwants
      · cases h
        exact effect_giveUp le_rfl id
      · cases h
        exact .other _ rfl
      · cases h
        exact .other _ rfl
    | waiting => simp [hphase] at h
    | responding family => simp [hphase] at h
    | ended => simp [hphase] at h
  | timeout =>
    simp only [Reader.step] at h
    cases hphase : s.phase with
    | responding family =>
      simp only [hphase, Option.some.injEq] at h
      subst h
      exact effect_giveUp le_rfl id
    | waiting => simp [hphase] at h
    | writing command wantsResponse => simp [hphase] at h
    | ended => simp [hphase] at h
  | fail =>
    simp only [Reader.step] at h
    split_ifs at h with hreading
    cases h
    exact effect_giveUp le_rfl id

/-- Nothing happens on a connection that has been given up. -/
theorem step_ended (hphase : s.phase = .ended) : Reader.step maxLineLength stream s a = none := by
  cases a <;> simp [Reader.step, Reader.isReading, hphase]

end Step

/-! ### Runs -/

/-- What every run keeps: the buffer holds the bytes since `start`, and every frame is a closed run of bytes
before them, in order. -/
structure Reading (stream : List UInt8) (s : Reader) : Prop where
  collecting : Collecting carriageReturn stream s.start s.position s.line
  closed : ∀ frame ∈ s.frames, IsClosed carriageReturn stream frame.start frame.stop
  text : ∀ frame ∈ s.frames, utf8Bytes frame.text = slice stream frame.start frame.stop
  before : ∀ frame ∈ s.frames, frame.stop < s.start
  ordered : s.frames.Pairwise fun a b => a.stop < b.start

section Runs
variable {maxLineLength : ℕ} {stream : List UInt8} {s s' : Reader} {a : ReaderAction}

theorem reading_init : Reading stream {} :=
  ⟨.restart (Nat.zero_le _), by simp, by simp, by simp, by simp⟩

/-- A step that drops the buffer keeps the frames and begins anew. -/
theorem Reading.restart (h : Reading stream s) (hstart : s'.start = s'.position)
    (hle : s.position ≤ s'.position) (hwithin : s'.position ≤ stream.length) (hline : s'.line = [])
    (hframes : s'.frames = s.frames) : Reading stream s' := by
  obtain ⟨hcollecting, hclosed, htext, hbefore, hordered⟩ := h
  refine ⟨?_, hframes ▸ hclosed, hframes ▸ htext, ?_, hframes ▸ hordered⟩
  · rw [hstart, hline]
    exact .restart hwithin
  · intro frame hmem
    have hlt := hbefore frame (hframes ▸ hmem)
    have hpos := hcollecting.le
    omega

theorem Reading.step (h : Reading stream s) (hstep : Reader.step maxLineLength stream s a = some s') :
    Reading stream s' := by
  obtain ⟨hcollecting, hclosed, htext, hbefore, hordered⟩ := h
  cases step_effect hstep with
  | buffer byte hbyte hne heq =>
    subst heq
    exact ⟨hcollecting.push hbyte hne, hclosed, htext, hbefore, hordered⟩
  | frame text hbyte hread hposition hstart hline hframes =>
    have hnew : IsClosed carriageReturn stream s.start s.position := hcollecting.isClosed hbyte
    refine ⟨?_, ?_, ?_, ?_, ?_⟩
    · rw [hstart, hposition, hline]
      exact .restart (List.getElem?_eq_some_iff.mp hbyte).1
    · simp only [hframes, List.mem_append, List.mem_singleton]
      rintro frame (hmem | rfl)
      · exact hclosed frame hmem
      · exact hnew
    · simp only [hframes, List.mem_append, List.mem_singleton]
      rintro frame (hmem | rfl)
      · exact htext frame hmem
      · exact hread.trans hcollecting.holds
    · simp only [hframes, hstart, List.mem_append, List.mem_singleton]
      rintro frame (hmem | rfl)
      · have hlt := hbefore frame hmem
        have hpos := hcollecting.le
        omega
      · exact Nat.lt_succ_self _
    · rw [hframes, List.pairwise_append]
      refine ⟨hordered, List.pairwise_singleton _ _, fun frame hmem new hnew => ?_⟩
      rw [List.mem_singleton.mp hnew]
      exact hbefore frame hmem
  | cut hrequest hposition hstart hline hframes =>
    exact Reading.restart ⟨hcollecting, hclosed, htext, hbefore, hordered⟩
      (hstart.trans hposition.symm) hposition.ge (hposition ▸ hcollecting.within) hline hframes
  | gaveUp hphase hstart hle hwithin hline hframes =>
    exact Reading.restart ⟨hcollecting, hclosed, htext, hbefore, hordered⟩ hstart hle
      (hwithin hcollecting.within) hline hframes
  | other phase heq =>
    subst heq
    exact ⟨hcollecting, hclosed, htext, hbefore, hordered⟩

theorem reading_of_reachable (h : (reader maxLineLength stream).Reachable s) : Reading stream s := by
  refine Machine.Reachable.invariant (fun s hinit => ?_) (fun s a s' _ hreading hstep => ?_) h
  · obtain rfl : s = {} := hinit
    exact reading_init
  · exact hreading.step hstep

theorem faithful_iff (h : Reading stream s) :
    Faithful stream s.frames ↔ ∀ frame ∈ s.frames, AtStart carriageReturn stream frame.start :=
  ⟨fun hf frame hmem => (hf.segment frame hmem).opened,
    fun ho => ⟨fun frame hmem => ⟨h.closed frame hmem, ho frame hmem⟩, h.text, h.ordered⟩⟩

/-- While no request has cut a line, an open connection reads from the start of a segment. -/
theorem atStart_step (h : Reading stream s) (hcut : ¬ CutsLine s a)
    (hstart : s.phase ≠ .ended → AtStart carriageReturn stream s.start)
    (hstep : Reader.step maxLineLength stream s a = some s') :
    (s'.phase ≠ .ended → AtStart carriageReturn stream s'.start) ∧
      ((∀ frame ∈ s.frames, AtStart carriageReturn stream frame.start) →
        ∀ frame ∈ s'.frames, AtStart carriageReturn stream frame.start) := by
  have hopen : AtStart carriageReturn stream s.start := by
    apply hstart
    intro hended
    rw [step_ended hended] at hstep
    cases hstep
  cases step_effect hstep with
  | buffer byte hbyte hne heq =>
    subst heq
    exact ⟨fun _ => hopen, id⟩
  | frame text hbyte hread hposition hstart' hline hframes =>
    refine ⟨fun _ => hstart' ▸ atStart_succ hbyte, fun hall frame hmem => ?_⟩
    rw [hframes, List.mem_append, List.mem_singleton] at hmem
    rcases hmem with hmem | rfl
    · exact hall frame hmem
    · exact hopen
  | cut hrequest hposition hstart' hline hframes =>
    refine ⟨fun _ => ?_, fun hall => hframes ▸ hall⟩
    have hnil : s.line = [] := by
      by_contra hne
      exact hcut ⟨hrequest, hne⟩
    have hempty := h.collecting.start_eq_of_nil hnil
    rw [hstart', ← hempty]
    exact hopen
  | gaveUp hphase hstart' hle hwithin hline hframes =>
    exact ⟨fun hne => absurd hphase hne, fun hall => hframes ▸ hall⟩
  | other phase heq =>
    subst heq
    exact ⟨fun _ => hopen, id⟩

/-- **Frame integrity when no request cuts a line.** On every byte stream and along every run in which a
request is taken only between two lines, the frames are maximal segments of the stream, in order. -/
theorem faithful_of_no_cut (maxLineLength : ℕ) (stream : List UInt8) (s : Reader)
    (h : (reader maxLineLength stream).ReachableBy (fun s a => ¬ CutsLine s a) s) :
    Faithful stream s.frames := by
  have hall : (s.phase ≠ .ended → AtStart carriageReturn stream s.start) ∧
      ∀ frame ∈ s.frames, AtStart carriageReturn stream frame.start := by
    refine Machine.ReachableBy.invariant (I := fun s =>
      (s.phase ≠ .ended → AtStart carriageReturn stream s.start) ∧
        ∀ frame ∈ s.frames, AtStart carriageReturn stream frame.start)
      (fun s hinit => ?_) (fun s a s' hs hcut hi hstep => ?_) h
    · obtain rfl : s = {} := hinit
      exact ⟨fun _ => atStart_zero, by simp⟩
    · obtain ⟨hstart, hframes⟩ := atStart_step (reading_of_reachable hs.reachable) hcut hi.1 hstep
      exact ⟨hstart, hframes hi.2⟩
  exact (faithful_iff (reading_of_reachable h.reachable)).mpr hall.2

/-- **A cut line shows in the next frame.** Once a request has cut a line, the connection can only go on
faithfully by producing no frame at all. -/
theorem not_faithful_of_cut {m : Reader} {acts : List ReaderAction}
    (hs : (reader maxLineLength stream).Reachable s) (hcut : CutsLine s a)
    (hstep : Reader.step maxLineLength stream s a = some m)
    (hexec : (reader maxLineLength stream).exec m acts = some s') (hframes : s'.frames ≠ m.frames) :
    ¬ Faithful stream s'.frames := by
  have hm : (reader maxLineLength stream).Reachable m := .step hs trivial hstep
  -- Until a frame is produced the reader stays in the middle of the segment that was cut.
  have hrun : (reader maxLineLength stream).Reachable s' ∧
      ((s'.frames = m.frames ∧ (s'.phase ≠ .ended → ¬ AtStart carriageReturn stream s'.start)) ∨
        ∃ frame ∈ s'.frames, ¬ AtStart carriageReturn stream frame.start) := by
    refine Machine.exec_induction (reader maxLineLength stream)
      (P := fun _ t => (reader maxLineLength stream).Reachable t ∧
        ((t.frames = m.frames ∧ (t.phase ≠ .ended → ¬ AtStart carriageReturn stream t.start)) ∨
          ∃ frame ∈ t.frames, ¬ AtStart carriageReturn stream frame.start)) ?_ ?_ hexec
    · refine ⟨hm, .inl ⟨rfl, fun _ => ?_⟩⟩
      obtain ⟨⟨command, wantsResponse, rfl⟩, hne⟩ := hcut
      simp only [Reader.step] at hstep
      split_ifs at hstep with hphase
      cases hstep
      exact (reading_of_reachable hs).collecting.not_atStart hne
    · rintro _ t b t' - ⟨ht, hi⟩ htstep
      refine ⟨.step ht trivial htstep, ?_⟩
      have hkeep : ∀ frame ∈ t.frames, frame ∈ t'.frames := by
        cases step_effect htstep with
        | buffer byte hbyte hne heq => subst heq; exact fun _ h => h
        | frame text hbyte hread hposition hstart hline hframes =>
          intro frame hmem
          rw [hframes]
          exact List.mem_append_left _ hmem
        | cut hrequest hposition hstart hline hframes => rw [hframes]; exact fun _ h => h
        | gaveUp hphase hstart hle hwithin hline hframes => rw [hframes]; exact fun _ h => h
        | other phase heq => subst heq; exact fun _ h => h
      rcases hi with ⟨hsame, hmid⟩ | ⟨frame, hmem, hbad⟩
      · have hmid' : ¬ AtStart carriageReturn stream t.start := by
          apply hmid
          intro hended
          rw [show (reader maxLineLength stream).step t b = none from step_ended hended] at htstep
          cases htstep
        cases step_effect htstep with
        | buffer byte hbyte hne heq => subst heq; exact .inl ⟨hsame, fun _ => hmid'⟩
        | frame text hbyte hread hposition hstart hline hframes =>
          exact .inr ⟨⟨t.start, t.position, text⟩, by simp [hframes], hmid'⟩
        | cut hrequest hposition hstart hline hframes =>
          refine .inl ⟨hframes.trans hsame, fun _ => ?_⟩
          rw [hstart]
          by_cases hnil : t.line = []
          · rwa [← (reading_of_reachable ht).collecting.start_eq_of_nil hnil]
          · exact (reading_of_reachable ht).collecting.not_atStart hnil
        | gaveUp hphase hstart hle hwithin hline hframes =>
          exact .inl ⟨hframes.trans hsame, fun hne => absurd hphase hne⟩
        | other phase heq => subst heq; exact .inl ⟨hsame, fun _ => hmid'⟩
      · exact .inr ⟨frame, hkeep frame hmem, hbad⟩
  rcases hrun.2 with ⟨hsame, -⟩ | ⟨frame, hmem, hbad⟩
  · exact absurd hsame hframes
  · exact fun hf => hbad ((faithful_iff (reading_of_reachable hrun.1)).mp hf frame hmem)

end Runs

/-! ### A zone 2 line read as a main-zone line -/

/-- `Z2MUON`, one line. -/
def zone2MuteLine : List UInt8 := utf8Bytes "Z2MUON" ++ [carriageReturn]

def volumeQuery : AvrCommand := ⟨"MV?", by decide, by decide⟩

/-- The volume query is taken after the first two bytes, and the rest of the line is read as its reply. -/
def cutRun : List ReaderAction :=
  [.byte true, .byte true, .request volumeQuery true, .written true, .byte true, .byte true, .byte true,
    .byte true, .byte true]

/-- The line `Z2MUON`, cut by a query, is produced as the frame `MUON`. -/
theorem not_faithful_zone2MuteLine :
    ∃ s, (reader 135 zone2MuteLine).Reachable s ∧ ¬ Faithful zone2MuteLine s.frames := by
  have hrun : (reader 135 zone2MuteLine).exec {} cutRun =
      some { phase := .responding "MV", position := 7, start := 7, frames := [⟨2, 6, "MUON"⟩] } := by
    decide
  refine ⟨_, Machine.reachable_of_exec ({} : Reader) cutRun rfl hrun, fun hf => ?_⟩
  have hstart := (hf.segment ⟨2, 6, "MUON"⟩ (by decide)).opened 1 rfl
  revert hstart
  decide

def betweenLinesRun : List ReaderAction :=
  List.replicate 7 (.byte true) ++ [.request volumeQuery true, .written true] ++
    List.replicate 7 (.byte true)

def betweenLinesEnd : Reader :=
  { phase := .responding "MV", position := 14, start := 14
    frames := [⟨0, 6, "Z2MUON"⟩, ⟨7, 13, "Z2MUON"⟩] }

/-- Two lines, with the query taken between them. -/
theorem faithful_betweenLines :
    Faithful (zone2MuteLine ++ zone2MuteLine) [⟨0, 6, "Z2MUON"⟩, ⟨7, 13, "Z2MUON"⟩] :=
  faithful_of_no_cut 135 (zone2MuteLine ++ zone2MuteLine) betweenLinesEnd
    (Machine.reachableBy_of_execBy ({} : Reader) betweenLinesRun rfl (by decide))

end DenonAvr.Session
