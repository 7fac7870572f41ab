import DenonAvr.Library.LineReader

/-!
# Event streams

The parser a client reads the event streams with. A stream is lines: a field and its value each, an empty line behind
an event. The parser is fed a chunk at a time and keeps what it has of a line, of an event, and of a line ending.

It is a reader of lines (`lineReader`), so neither the chunks nor the spelling of the endings show in what it gives.
-/

namespace DenonAvr.ApiContract

open Library

/-- The longest event, or line, a reader accepts. -/
def maxEventBytes : ℕ := 1024 * 1024

inductive EventName
  | state | operation | missed | «end»
deriving DecidableEq, Repr

namespace EventName

def all : List EventName := [.state, .operation, .missed, .end]

def asStr : EventName → String
  | .state => "state"
  | .operation => "operation"
  | .missed => "missed"
  | .end => "end"

def parse (name : String) : Option EventName := all.find? fun event => event.asStr == name

end EventName

structure Event where
  name : EventName
  data : String
deriving DecidableEq, Repr

inductive ParseError
  | tooLarge
  | notText
  | payload (why : String)
deriving DecidableEq, Repr

/-- What the parser has of an event and of its next line. -/
structure Pending where
  /-- Bytes of the line being read. -/
  line : List UInt8 := []
  name : Option String := none
  data : List String := []
  dataBytes : ℕ := 0
deriving DecidableEq

structure Parser extends Pending where
  /-- Whether the last byte seen was a CR, so a following LF is part of it. -/
  afterCr : Bool := false
deriving DecidableEq

/-- `String::from_utf8`. -/
def fromUtf8 (bytes : List UInt8) : Option String := String.fromUTF8? ⟨bytes.toArray⟩

/-- `str::split_once` at a colon. -/
def splitOnce (line : String) : Option (String × String) :=
  match line.toList.dropWhile (· ≠ ':') with
  | [] => none
  | _ :: rest => some (String.ofList (line.toList.takeWhile (· ≠ ':')), String.ofList rest)

/-- `value.strip_prefix(' ').unwrap_or(value)`. -/
def stripSpace (value : String) : String :=
  match value.toList with
  | ' ' :: rest => String.ofList rest
  | _ => value

namespace Pending

/-- `dispatch`. -/
def dispatch (p : Pending) : Pending × Option Event :=
  let cleared := { p with name := none, data := [], dataBytes := 0 }
  if p.data.isEmpty then (cleared, none)
  else
    -- an event with no name is a message, which this stream never sends
    match p.name.bind EventName.parse with
    | none => (cleared, none)
    | some name => (cleared, some ⟨name, "\n".intercalate p.data⟩)

/-- What a line that is not empty says. -/
def field (p : Pending) (line : String) : Except ParseError Pending :=
  if line.toList.head? = some ':' then .ok p
  else
    let (name, value) :=
      match splitOnce line with
      | some (name, value) => (name, stripSpace value)
      | none => (line, "")
    if name = "event" then .ok { p with name := some value }
    else if name = "data" then
      let dataBytes := p.dataBytes + (value.utf8ByteSize + 1)
      if maxEventBytes < dataBytes then .error .tooLarge
      else .ok { p with dataBytes, data := p.data ++ [value] }
    else .ok p

def endLine (p : Pending) : Except ParseError (Pending × Option Event) :=
  match fromUtf8 p.line with
  | none => .error .notText
  | some line =>
    let p := { p with line := [] }
    if line.isEmpty then .ok p.dispatch else (p.field line).map fun p => (p, none)

/-- One more byte of the line. -/
def takeByte (p : Pending) (byte : UInt8) : Except ParseError Pending :=
  if maxEventBytes ≤ p.line.length then .error .tooLarge else .ok { p with line := p.line ++ [byte] }

end Pending

namespace Parser

/-- `Parser::new`. -/
def new : Parser := {}

/-- The body of the loop of `push`. -/
def step (p : Parser) (byte : UInt8) : Except ParseError (Parser × Option Event) :=
  if byte = lfByte ∧ p.afterCr = true then .ok ({ p with afterCr := false }, none)
  else if byte = lfByte ∨ byte = crByte then
    p.endLine.map fun r => ({ r.1 with afterCr := byte == crByte }, r.2)
  else (p.takeByte byte).map fun p => ({ p with afterCr := false }, none)

/-- `push`: the events a chunk completes. -/
def push (p : Parser) (chunk : List UInt8) : Except ParseError (Parser × List Event) := readAll step p chunk

/-- A chunk at a time. -/
def pushAll (p : Parser) (chunks : List (List UInt8)) : Except ParseError (Parser × List Event) := readChunks step p chunks

/-- A byte at a time. -/
def pushBytes (p : Parser) (stream : List UInt8) : Except ParseError (Parser × List Event) :=
  p.pushAll (stream.map fun byte => [byte])

end Parser

/-! ### Chunks and endings -/

/-- The parser without its memory of a CR. -/
def lineReader : LineReader Pending ParseError Event := ⟨Pending.takeByte, Pending.endLine⟩

/-- The events of a stream, if it is accepted. -/
def eventsOf (stream : List UInt8) : Except ParseError (List Event) := (Parser.new.push stream).map Prod.snd

namespace Parser

/-- The parser is a reader of lines, with the memory of a CR beside it. -/
theorem step_eq (p : Parser) (byte : UInt8) :
    (p.step byte).map (fun r => ((r.1.toPending, r.1.afterCr), r.2)) = lineReader.step (p.toPending, p.afterCr) byte := by
  unfold step LineReader.step
  dsimp only
  split_ifs with hsecond hend
  · rfl
  · show _ = (p.endLine).map _
    cases p.endLine <;> rfl
  · show _ = (p.takeByte byte).map _
    cases p.takeByte byte <;> rfl

theorem push_eq (p : Parser) (stream : List UInt8) :
    (p.push stream).map (fun r => ((r.1.toPending, r.1.afterCr), r.2)) =
      readAll lineReader.step (p.toPending, p.afterCr) stream :=
  readAll_map step (fun p => (p.toPending, p.afterCr)) step_eq p stream

/-- However a stream is cut into chunks, it is read as byte after byte. -/
theorem pushAll_eq (p : Parser) (chunks : List (List UInt8)) : p.pushAll chunks = p.pushBytes chunks.flatten := by
  have hbytes : (chunks.flatten.map fun byte => [byte]).flatten = chunks.flatten := by
    induction chunks.flatten with
    | nil => rfl
    | cons byte rest ih => rw [List.map_cons, List.flatten_cons, ih, List.singleton_append]
  unfold pushBytes pushAll
  rw [readChunks_eq, readChunks_eq, hbytes]

end Parser

/-- The events of a stream are those of its lines. -/
theorem eventsOf_render {lines : List EndedLine} {tail : List UInt8} (hplain : ∀ ended ∈ lines, Plain ended.1)
    (htail : Plain tail) (hapart : Apart lines) :
    eventsOf (render lines tail) = (lineReader.readLines {} (lines.map Prod.fst) tail).map Prod.snd := by
  have hread : LineReader.unflagged (readAll lineReader.step ({}, false) (render lines tail)) =
      lineReader.readLines {} (lines.map Prod.fst) tail :=
    LineReader.readAll_render hplain htail hapart fun h => absurd h (by decide)
  have hpush := Parser.push_eq Parser.new (render lines tail)
  rw [← hread]
  unfold eventsOf LineReader.unflagged
  show _ = Except.map _ (Except.map _ (readAll lineReader.step (Parser.new.toPending, Parser.new.afterCr) _))
  rw [← hpush]
  cases Parser.new.push (render lines tail) <;> rfl

/-- A stream with its endings spelled otherwise. -/
def respelled (ending : ℕ → Ending) (stream : List UInt8) : List UInt8 :=
  render (respell ending (cut stream).1) (cut stream).2

/-- Other endings do not change the events, if they stay as many as they are. -/
theorem eventsOf_respelled {ending : ℕ → Ending} {stream : List UInt8} (h : Apart (respell ending (cut stream).1)) :
    eventsOf (respelled ending stream) = eventsOf stream := by
  obtain ⟨hlines, htail⟩ := plain_cut stream
  have hplain : ∀ ended ∈ respell ending (cut stream).1, Plain ended.1 := by
    intro ended hmem
    have hfst : ended.1 ∈ (cut stream).1.map Prod.fst := by
      rw [← respell_lines ending]
      exact List.mem_map_of_mem hmem
    obtain ⟨original, horiginal, heq⟩ := List.mem_map.mp hfst
    rw [← heq]
    exact hlines original horiginal
  unfold respelled
  rw [eventsOf_render hplain htail h, respell_lines, ← eventsOf_render hlines htail (apart_cut stream), render_cut]

/-- **How a stream arrives does not change its events**, nor whether it is accepted: neither the chunks it comes in, nor
the spelling of its line endings, unless a CR and the LF of an empty line behind it become one. -/
theorem parser_invariance :
    (∀ (p : Parser) (chunks : List (List UInt8)), p.pushAll chunks = p.pushBytes chunks.flatten) ∧
      (∀ (ending : Ending) (stream : List UInt8), eventsOf (respelled (fun _ => ending) stream) = eventsOf stream) ∧
        ∀ (ending : ℕ → Ending) (stream : List UInt8), Apart (respell ending (cut stream).1) →
          eventsOf (respelled ending stream) = eventsOf stream :=
  ⟨Parser.pushAll_eq, fun ending _ => eventsOf_respelled (apart_respell_const ending _), fun _ _ h => eventsOf_respelled h⟩

/-- The end of a stream, as a server sends it. -/
def endStream : List UInt8 := "event: end\ndata: 1\n\n".toUTF8.data.toList

/-- A CR behind the data, and an LF for the empty line. -/
def splitCrlf : ℕ → Ending
  | 1 => .cr
  | _ => .lf

/-- With these endings the empty line is gone, and with it the event. -/
theorem eventsOf_respelled_splitCrlf : eventsOf (respelled splitCrlf endStream) ≠ eventsOf endStream := by
  decide

/-- CRLF behind the first line, CR behind the others. -/
def mixedEndings : ℕ → Ending
  | 0 => .crlf
  | _ => .cr

theorem parser_invariance_endStream : eventsOf (respelled mixedEndings endStream) = .ok [⟨.end, "1"⟩] :=
  (parser_invariance.2.2 mixedEndings endStream (by decide)).trans (by decide)

end DenonAvr.ApiContract
