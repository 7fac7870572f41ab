import DenonAvr.ApiContract.Events
import DenonAvr.ApiContract.Paths
import DenonAvr.Library.Json
import DenonAvr.Library.Utf8

/-!
# Events as text

What the server writes of an event, and of a keep-alive between two events. The framework writes the text, so what it
writes is an assumption (`SseFramework.Lawful`): the name, the data and an empty line. The parser makes of it the event
that was written, or fails when the event is too large (`reading_bytes`); of a text that is cut short within an event it
makes nothing (`reading_cut`).
-/

namespace DenonAvr.ApiContract

open Library

/-- A library that writes values as JSON and reads the payloads among them, the fields of an object in the order of the
text. -/
structure Direct (json : JsonText) (Payload : Json → Prop) : Prop where
  read_write : ∀ value, Payload value → json.read (json.write value) = some value
  newline : ∀ value, '\n' ∉ json.write value
  carriageReturn : ∀ value, '\r' ∉ json.write value

theorem canonical_direct (Payload : Json → Prop) : Direct Json.canonical Payload where
  read_write value _ := Json.canonical_read_render value
  newline value := (Json.printed_render value).notMem (by decide)
  carriageReturn value := (Json.printed_render value).notMem (by decide)

/-- Text within one line. -/
def OneLine (text : String) : Prop := '\n' ∉ text.toList ∧ '\r' ∉ text.toList

def lineOf (text : String) : List UInt8 := utf8Bytes text ++ [lfByte]

/-- The framework's response of server-sent events. -/
structure SseFramework where
  event : (name data : String) → List UInt8
  keepAlive : List UInt8

/-- An event is its name, its data and an empty line; a keep-alive is a comment. -/
structure SseFramework.Lawful (sse : SseFramework) : Prop where
  event : ∀ name data, OneLine name → OneLine data →
    sse.event name data = lineOf ("event: " ++ name) ++ lineOf ("data: " ++ data) ++ lineOf ""
  keepAlive : ∃ comment, OneLine comment ∧ comment.utf8ByteSize < maxEventBytes ∧
    sse.keepAlive = lineOf (":" ++ comment) ++ lineOf ""

/-- What the server writes, one after another. -/
inductive Written
  | event (name : EventName) (payload : Json)
  | keepAlive

namespace Written

def event? : Written → Option (EventName × Json)
  | .event name payload => some (name, payload)
  | .keepAlive => none

end Written

section Text
variable (json : JsonText) (sse : SseFramework)

/-- `serde_json::to_string`. -/
def dataOf (payload : Json) : String := String.ofList (json.write payload)

/-- An event and its data. -/
def eventOf (sent : EventName × Json) : Event := ⟨sent.1, dataOf json sent.2⟩

def Written.bytes : Written → List UInt8
  | .event name payload => sse.event name.asStr (dataOf json payload)
  | .keepAlive => sse.keepAlive

def bytesOf (written : List Written) : List UInt8 := written.flatMap (Written.bytes json sse)

/-- The line of the data is not longer than a reader accepts. -/
def Fits (sent : EventName × Json) : Prop := (dataOf json sent.2).utf8ByteSize + 6 ≤ maxEventBytes

instance (sent : EventName × Json) : Decidable (Fits json sent) := inferInstanceAs (Decidable (_ ≤ _))

/-- The events that were written. -/
def eventsIn (written : List Written) : List Event := (written.filterMap Written.event?).map (eventOf json)

end Text

/-! ### Lines -/

theorem length_utf8Bytes (text : String) : (utf8Bytes text).length = text.utf8ByteSize := by
  unfold utf8Bytes
  rw [Array.length_toList]
  rfl

/-- No character has more than four bytes. -/
theorem utf8ByteSize_ofList_le (cs : List Char) : (String.ofList cs).utf8ByteSize ≤ 4 * cs.length := by
  induction cs with
  | nil => simp
  | cons c cs ih =>
    have hfour := c.utf8Size_le_four
    rw [← List.singleton_append, String.ofList_append, String.utf8ByteSize_append, ← String.singleton_eq_ofList,
      String.utf8ByteSize_singleton, List.length_append, List.length_singleton]
    omega

theorem fits_of_length {json : JsonText} {sent : EventName × Json}
    (h : 4 * (json.write sent.2).length + 6 ≤ maxEventBytes) : Fits json sent := by
  have hbytes := utf8ByteSize_ofList_le (json.write sent.2)
  unfold Fits dataOf
  omega

theorem plain_utf8Bytes {text : String} (h : OneLine text) : Plain (utf8Bytes text) := by
  intro b hb
  rw [utf8Bytes_eq_flatMap] at hb
  obtain ⟨c, hc, hb⟩ := List.mem_flatMap.mp hb
  refine ⟨?_, ?_⟩
  · rintro rfl
    have hcr : c = '\r' := Char.ext (UInt32.toNat.inj (Utf8.toNat_of_mem hb (by decide)))
    exact h.2 (hcr ▸ hc)
  · rintro rfl
    have hlf : c = '\n' := Char.ext (UInt32.toNat.inj (Utf8.toNat_of_mem hb (by decide)))
    exact h.1 (hlf ▸ hc)

theorem OneLine.append {text more : String} (h : OneLine text) (hmore : OneLine more) : OneLine (text ++ more) := by
  unfold OneLine at *
  simp only [String.toList_append, List.mem_append, not_or]
  exact ⟨⟨h.1, hmore.1⟩, h.2, hmore.2⟩

theorem oneLine_asStr (name : EventName) : OneLine name.asStr := by
  cases name <;> exact ⟨by decide, by decide⟩

theorem oneLine_dataOf {json : JsonText} {Payload : Json → Prop} (hjson : Direct json Payload) (payload : Json) :
    OneLine (dataOf json payload) := by
  unfold OneLine dataOf
  rw [String.toList_ofList]
  exact ⟨hjson.newline payload, hjson.carriageReturn payload⟩

namespace Pending

variable {p : Pending}

theorem takeByte_eq (b : UInt8) (h : p.line.length < maxEventBytes) : p.takeByte b = .ok { p with line := p.line ++ [b] } :=
  if_neg (Nat.not_le_of_lt h)

/-- The bytes of a line that is not too long are kept. -/
theorem addAll_eq {line : List UInt8} (h : p.line.length + line.length ≤ maxEventBytes) :
    lineReader.addAll p line = .ok { p with line := p.line ++ line } := by
  induction line generalizing p with
  | nil => rw [List.append_nil]; rfl
  | cons b rest ih =>
    rw [List.length_cons] at h
    show (p.takeByte b).bind _ = _
    rw [takeByte_eq b (by omega)]
    show lineReader.addAll { p with line := p.line ++ [b] } rest = _
    rw [ih (by rw [List.length_append, List.length_singleton]; omega), List.append_assoc, List.singleton_append]

/-- A line that is too long is refused. -/
theorem addAll_tooLarge {line : List UInt8} (hlast : p.line.length ≤ maxEventBytes)
    (h : maxEventBytes < p.line.length + line.length) : lineReader.addAll p line = .error .tooLarge := by
  induction line generalizing p with
  | nil =>
    rw [List.length_nil] at h
    omega
  | cons b rest ih =>
    rw [List.length_cons] at h
    show (p.takeByte b).bind _ = _
    by_cases hfull : maxEventBytes ≤ p.line.length
    · have htake : p.takeByte b = .error .tooLarge := if_pos hfull
      rw [htake]
      rfl
    · rw [takeByte_eq b (by omega)]
      show lineReader.addAll { p with line := p.line ++ [b] } rest = _
      refine ih ?_ ?_ <;> rw [List.length_append, List.length_singleton] <;> omega

/-- A line of a key and a value. -/
theorem field_eq {key value : String} (hempty : key ≠ "") (hkey : ':' ∉ key.toList) :
    p.field (key ++ (": " ++ value)) =
      if key = "event" then .ok { p with name := some value }
      else if key = "data" then
        if maxEventBytes < p.dataBytes + (value.utf8ByteSize + 1) then .error .tooLarge
        else .ok { p with dataBytes := p.dataBytes + (value.utf8ByteSize + 1), data := p.data ++ [value] }
      else .ok p := by
  obtain ⟨c, rest, hcons⟩ : ∃ c rest, key.toList = c :: rest :=
    List.exists_cons_of_ne_nil fun hnil => hempty (String.toList_inj.mp hnil)
  have hhead : c ≠ ':' := fun heq => hkey (by rw [hcons, heq]; exact List.mem_cons_self)
  have hlist : (key ++ (": " ++ value)).toList = key.toList ++ ':' :: ' ' :: value.toList := by
    simp [String.toList_append]
  have hkept : ∀ d ∈ key.toList, decide (d ≠ ':') = true := fun d hd => decide_eq_true fun heq => hkey (heq ▸ hd)
  have hsplit : splitOnce (key ++ (": " ++ value)) = some (key, String.ofList (' ' :: value.toList)) := by
    unfold splitOnce
    rw [hlist, List.dropWhile_append_of_pos hkept, List.takeWhile_append_of_pos hkept]
    simp
  have hstrip : stripSpace (String.ofList (' ' :: value.toList)) = value := by
    unfold stripSpace
    rw [String.toList_ofList]
    exact String.ofList_toList
  unfold field
  rw [if_neg (by simp [hlist, hcons, hhead]), hsplit]
  dsimp only
  rw [hstrip]

theorem endLine_eq {text : String} (hempty : text ≠ "") :
    { p with line := utf8Bytes text }.endLine = ({ p with line := [] }.field text).map fun p => (p, none) := by
  unfold endLine
  dsimp only
  rw [fromUtf8_utf8Bytes]
  dsimp only
  rw [if_neg (by simpa using hempty)]

theorem line_field {text : String} {p' : Pending} (h : p.field text = .ok p') : p'.line = p.line := by
  unfold field at h
  split_ifs at h
  · obtain rfl := Except.ok.inj h
    rfl
  · dsimp only at h
    split at h <;> split_ifs at h <;> cases h <;> rfl

end Pending

/-! ### What is read of a line -/

/-- The parser, from what it has of a line and of an event on. -/
def reading (p : Pending) (bytes : List UInt8) : Except ParseError ((Pending × Bool) × List Event) :=
  readAll lineReader.step (p, false) bytes

section Reading
variable {p : Pending} {text : String} {bytes data more : List UInt8} {q : Pending × Bool} {events : List Event}

theorem reading_append {q : Pending} (h : reading p bytes = .ok ((q, false), events)) (more : List UInt8) :
    reading p (bytes ++ more) = (reading q more).map fun t => (t.1, events ++ t.2) := by
  unfold reading at *
  rw [readAll_append, h]
  rfl

/-- What is read of a text of which more is read begins it. -/
theorem reading_of_append (h : reading p (bytes ++ more) = .ok (q, events)) :
    ∃ r front, reading p bytes = .ok (r, front) ∧ front <+: events := by
  unfold reading at *
  rw [readAll_append] at h
  cases hfront : readAll lineReader.step (p, false) bytes with
  | error e =>
    rw [hfront] at h
    cases h
  | ok r =>
    rw [hfront] at h
    change Except.map _ (readAll lineReader.step r.1 more) = _ at h
    cases hback : readAll lineReader.step r.1 more with
    | error e =>
      rw [hback] at h
      cases h
    | ok t =>
      rw [hback] at h
      exact ⟨r.1, r.2, rfl, t.2, (Prod.mk.inj (Except.ok.inj h)).2⟩

/-- Within a line there are no events. -/
theorem reading_plain (h : Plain bytes) (hread : reading p bytes = .ok (q, events)) : events = [] := by
  unfold reading at hread
  rw [LineReader.readAll_plain h] at hread
  cases hadd : lineReader.addAll p bytes with
  | error e =>
    rw [hadd] at hread
    cases hread
  | ok p' =>
    rw [hadd] at hread
    exact (Prod.mk.inj (Except.ok.inj hread)).2.symm

theorem reading_lineOf (hline : OneLine text) (hp : p.line = []) (hfits : text.utf8ByteSize ≤ maxEventBytes) :
    reading p (lineOf text) =
      (Pending.endLine { p with line := utf8Bytes text }).map fun r => ((r.1, false), r.2.toList) := by
  have hadd : lineReader.addAll p (utf8Bytes text) = .ok { p with line := utf8Bytes text } := by
    rw [Pending.addAll_eq (by rw [hp, length_utf8Bytes]; simpa using hfits), hp, List.nil_append]
  have hending : ¬ ((if utf8Bytes text = [] then false else false) = true ∧ Ending.lf = Ending.lf) := by simp
  unfold reading lineOf
  rw [readAll_append, LineReader.readAll_plain (plain_utf8Bytes hline), hadd]
  show (readAll lineReader.step _ Ending.lf.bytes).map _ = _
  rw [LineReader.readAll_ending hending]
  show Except.map _ (Except.map _ ({ p with line := utf8Bytes text }.endLine)) = _
  cases Pending.endLine { p with line := utf8Bytes text } <;> rfl

theorem reading_tooLarge (hline : OneLine text) (hp : p.line = []) (h : maxEventBytes < text.utf8ByteSize)
    (more : List UInt8) : reading p (lineOf text ++ more) = .error .tooLarge := by
  have hadd : lineReader.addAll p (utf8Bytes text) = .error .tooLarge :=
    Pending.addAll_tooLarge (by rw [hp]; exact Nat.zero_le _) (by rw [hp, length_utf8Bytes]; simpa using h)
  unfold reading lineOf
  rw [List.append_assoc, readAll_append, LineReader.readAll_plain (plain_utf8Bytes hline), hadd]
  rfl

/-- The end of a line that is not empty gives no event. -/
theorem reading_lineOf_ok (hline : OneLine text) (hempty : text ≠ "") (hp : p.line = [])
    (h : reading p (lineOf text) = .ok (q, events)) : events = [] ∧ q.1.line = [] ∧ q.2 = false := by
  by_cases hfits : text.utf8ByteSize ≤ maxEventBytes
  · rw [reading_lineOf hline hp hfits, Pending.endLine_eq hempty] at h
    cases hfield : Pending.field { p with line := [] } text with
    | error e =>
      rw [hfield] at h
      cases h
    | ok p' =>
      rw [hfield] at h
      obtain ⟨rfl, rfl⟩ := Prod.mk.inj (Except.ok.inj h)
      exact ⟨rfl, Pending.line_field hfield, rfl⟩
  · rw [← List.append_nil (lineOf text), reading_tooLarge hline hp (by omega)] at h
    cases h

/-- Lines that are not empty give no event, wherever they are cut. -/
theorem reading_lines {lines : List String} (hlines : ∀ text ∈ lines, OneLine text ∧ text ≠ "")
    (hcut : data <+: lines.flatMap lineOf) (hp : p.line = []) (h : reading p data = .ok (q, events)) : events = [] := by
  induction lines generalizing p data events with
  | nil =>
    obtain rfl : data = [] := List.prefix_nil.mp hcut
    exact (Prod.mk.inj (Except.ok.inj h)).2.symm
  | cons text rest ih =>
    obtain ⟨hline, hempty⟩ := hlines text List.mem_cons_self
    rw [List.flatMap_cons] at hcut
    rcases List.prefix_or_prefix_of_prefix hcut (List.prefix_append (lineOf text) _) with hshort | hlong
    · rcases List.prefix_concat_iff.mp hshort with rfl | hwithin
      · exact (reading_lineOf_ok hline hempty hp h).1
      · exact reading_plain (fun b hb => plain_utf8Bytes hline b (hwithin.subset hb)) h
    · obtain ⟨more, rfl⟩ := hlong
      obtain ⟨⟨p', flag⟩, front, hfront, -⟩ := reading_of_append h
      obtain ⟨rfl, hp', rfl⟩ := reading_lineOf_ok hline hempty hp hfront
      rw [reading_append hfront] at h
      cases hback : reading p' more with
      | error e =>
        rw [hback] at h
        cases h
      | ok t =>
        rw [hback] at h
        obtain ⟨rfl, rfl⟩ := Prod.mk.inj (Except.ok.inj h)
        exact ih (fun text hmem => hlines text (List.mem_cons_of_mem _ hmem)) ((List.prefix_append_right_inj _).mp hcut)
          hp' hback

end Reading

/-! ### What is read of an event -/

section Written
variable {json : JsonText} {Payload : Json → Prop} {sse : SseFramework} {data : List UInt8} {q : Pending × Bool} {events : List Event}

namespace Written

/-- The lines before the empty one. -/
def lines (json : JsonText) (comment : String) : Written → List String
  | .event name payload => ["event: " ++ name.asStr, "data: " ++ dataOf json payload]
  | .keepAlive => [":" ++ comment]

theorem lines_of_bytes (hjson : Direct json Payload) (hsse : sse.Lawful) :
    ∃ comment, ∀ w : Written,
      w.bytes json sse = (w.lines json comment).flatMap lineOf ++ lineOf "" ∧
        ∀ text ∈ w.lines json comment, OneLine text ∧ text ≠ "" := by
  obtain ⟨comment, hcomment, -, hkeepAlive⟩ := hsse.keepAlive
  have hhead : ∀ (c : Char) (key rest : String), key.toList.head? = some c → key ++ rest ≠ "" := by
    intro c key rest hkey hempty
    have hlist := congrArg String.toList hempty
    rw [String.toList_append, String.toList_empty, List.append_eq_nil_iff] at hlist
    rw [hlist.1] at hkey
    cases hkey
  have hkey : OneLine "event: " ∧ OneLine "data: " ∧ OneLine ":" :=
    ⟨⟨by decide, by decide⟩, ⟨by decide, by decide⟩, by decide, by decide⟩
  refine ⟨comment, fun w => ?_⟩
  cases w with
  | event name payload =>
    refine ⟨?_, fun text hmem => ?_⟩
    · show sse.event name.asStr (dataOf json payload) = _
      rw [hsse.event _ _ (oneLine_asStr name) (oneLine_dataOf hjson payload)]
      simp [lines]
    · unfold lines at hmem
      rcases List.mem_pair.mp hmem with rfl | rfl
      · exact ⟨hkey.1.append (oneLine_asStr name), hhead 'e' _ _ rfl⟩
      · exact ⟨hkey.2.1.append (oneLine_dataOf hjson payload), hhead 'd' _ _ rfl⟩
  | keepAlive =>
    refine ⟨?_, fun text hmem => ?_⟩
    · show sse.keepAlive = _
      rw [hkeepAlive]
      simp [lines]
    · obtain rfl := List.mem_singleton.mp hmem
      exact ⟨hkey.2.2.append hcomment, hhead ':' _ _ rfl⟩

end Written

theorem reading_empty {p : Pending} (hp : p.line = []) :
    reading p (lineOf "") = .ok ((p.dispatch.1, false), p.dispatch.2.toList) := by
  have hclosed : Pending.endLine { p with line := utf8Bytes "" } = .ok p.dispatch := by
    unfold Pending.endLine
    dsimp only
    rw [fromUtf8_utf8Bytes]
    obtain ⟨line, name, data, dataBytes⟩ := p
    obtain rfl : line = [] := hp
    rfl
  rw [reading_lineOf ⟨by simp, by simp⟩ hp (Nat.zero_le _), hclosed]
  rfl

/-- The line of a key and a value, where the parser takes it. -/
theorem reading_field {p p' : Pending} {key value : String} (hline : OneLine (key ++ (": " ++ value))) (hp : p.line = [])
    (hfits : (key ++ (": " ++ value)).utf8ByteSize ≤ maxEventBytes)
    (h : p.field (key ++ (": " ++ value)) = .ok p') : reading p (lineOf (key ++ (": " ++ value))) = .ok ((p', false), []) := by
  have hnonempty : key ++ (": " ++ value) ≠ "" := by
    intro heq
    have hlist := congrArg String.toList heq
    simp at hlist
  have hsame : { p with line := [] } = p := by rw [← hp]
  rw [reading_lineOf hline hp hfits, Pending.endLine_eq hnonempty, hsame, h]
  rfl

/-- The lines of an event, one after the other. -/
theorem reading_event (hjson : Direct json Payload) (hsse : sse.Lawful) (name : EventName) (payload : Json) :
    reading {} ((Written.event name payload).bytes json sse) =
      if Fits json (name, payload) then .ok (({}, false), [eventOf json (name, payload)]) else .error .tooLarge := by
  obtain ⟨data, hdata⟩ : ∃ data, dataOf json payload = data := ⟨_, rfl⟩
  have honeLine : OneLine data := hdata ▸ oneLine_dataOf hjson payload
  have hnameLine : OneLine ("event" ++ (": " ++ name.asStr)) :=
    OneLine.append ⟨by decide, by decide⟩ (.append ⟨by decide, by decide⟩ (oneLine_asStr name))
  have hdataLine : OneLine ("data" ++ (": " ++ data)) :=
    OneLine.append ⟨by decide, by decide⟩ (.append ⟨by decide, by decide⟩ honeLine)
  have hname : reading {} (lineOf ("event" ++ (": " ++ name.asStr))) = .ok (({ name := some name.asStr }, false), []) := by
    refine reading_field hnameLine rfl ?_ ?_
    · cases name <;> decide
    · rw [Pending.field_eq (by decide) (by decide), if_pos rfl]
  have hsize : ("data" ++ (": " ++ data)).utf8ByteSize = data.utf8ByteSize + 6 := by
    rw [String.utf8ByteSize_append, String.utf8ByteSize_append]
    show 4 + (2 + data.utf8ByteSize) = _
    omega
  have hparse : EventName.parse name.asStr = some name := by cases name <;> rfl
  show reading {} (sse.event name.asStr (dataOf json payload)) = _
  rw [hdata, hsse.event _ _ (oneLine_asStr name) honeLine]
  show reading {} (lineOf ("event" ++ (": " ++ name.asStr)) ++ lineOf ("data" ++ (": " ++ data)) ++ lineOf "") = _
  rw [List.append_assoc, reading_append hname]
  have hevent : eventOf json (name, payload) = ⟨name, data⟩ := by rw [← hdata]; rfl
  have hiff : Fits json (name, payload) ↔ data.utf8ByteSize + 6 ≤ maxEventBytes := by rw [← hdata]; rfl
  by_cases hfits : data.utf8ByteSize + 6 ≤ maxEventBytes
  · rw [if_pos (hiff.mpr hfits), hevent]
    have hread : reading { name := some name.asStr } (lineOf ("data" ++ (": " ++ data))) =
        .ok (({ name := some name.asStr, data := [data], dataBytes := data.utf8ByteSize + 1 }, false), []) := by
      refine reading_field hdataLine rfl (by omega) ?_
      rw [Pending.field_eq (by decide) (by decide), if_neg (by decide), if_pos rfl, if_neg (by dsimp only; omega)]
      simp
    have hjoin : "\n".intercalate [data] = data := rfl
    rw [reading_append hread, reading_empty rfl]
    simp [Pending.dispatch, hparse, Except.map, hjoin]
  · rw [if_neg (mt hiff.mp hfits), reading_tooLarge hdataLine rfl (by omega)]
    rfl

theorem reading_keepAlive (hsse : sse.Lawful) : reading {} (Written.keepAlive.bytes json sse) = .ok (({}, false), []) := by
  obtain ⟨comment, hcomment, hsize, hkeepAlive⟩ := hsse.keepAlive
  have hline : OneLine (":" ++ comment) := OneLine.append ⟨by decide, by decide⟩ hcomment
  have hfits : (":" ++ comment).utf8ByteSize ≤ maxEventBytes := by
    rw [String.utf8ByteSize_append]
    show 1 + comment.utf8ByteSize ≤ _
    omega
  have hnonempty : ":" ++ comment ≠ "" := by
    intro heq
    have hlist := congrArg String.toList heq
    simp at hlist
  have hfield : Pending.field {} (":" ++ comment) = .ok {} := by
    unfold Pending.field
    rw [if_pos (by simp)]
  have hread : reading {} (lineOf (":" ++ comment)) = .ok (({}, false), []) := by
    rw [reading_lineOf hline rfl hfits, Pending.endLine_eq hnonempty, hfield]
    rfl
  show reading {} sse.keepAlive = _
  rw [hkeepAlive, reading_append hread, reading_empty rfl]
  rfl

/-- **The parser makes of what was written the event that it is**, and is as it was before, or the event is too large. -/
theorem reading_bytes (hjson : Direct json Payload) (hsse : sse.Lawful) (w : Written) :
    reading {} (w.bytes json sse) =
      if ∀ sent ∈ w.event?, Fits json sent then .ok (({}, false), (w.event?.map (eventOf json)).toList)
      else .error .tooLarge := by
  cases w with
  | event name payload =>
    rw [reading_event hjson hsse]
    simp [Written.event?]
  | keepAlive =>
    rw [reading_keepAlive hsse, if_pos (by simp [Written.event?])]
    rfl

/-- Of what is cut short the parser makes nothing. -/
theorem reading_cut (hjson : Direct json Payload) (hsse : sse.Lawful) {w : Written} (hcut : data <+: w.bytes json sse)
    (hne : data ≠ w.bytes json sse) (h : reading {} data = .ok (q, events)) : events = [] := by
  obtain ⟨comment, hw⟩ := Written.lines_of_bytes hjson hsse
  obtain ⟨hbytes, hlines⟩ := hw w
  have hempty : lineOf "" = [lfByte] := rfl
  rw [hbytes, hempty] at hcut hne
  exact reading_lines hlines ((List.prefix_concat_iff.mp hcut).resolve_left hne) rfl h

/-- What has arrived whole. -/
def arrived (json : JsonText) (sse : SseFramework) : List Written → List UInt8 → List Written
  | [], _ => []
  | w :: rest, data =>
    if w.bytes json sse <+: data then w :: arrived json sse rest (data.drop (w.bytes json sse).length) else []

variable (json sse) in
theorem isPrefix_arrived (written : List Written) (data : List UInt8) : arrived json sse written data <+: written := by
  induction written generalizing data with
  | nil => exact List.nil_prefix
  | cons w rest ih =>
    unfold arrived
    split_ifs
    · exact List.cons_prefix_cons.mpr ⟨rfl, ih _⟩
    · exact List.nil_prefix

theorem arrived_all (written : List Written) : arrived json sse written (bytesOf json sse written) = written := by
  induction written with
  | nil => rfl
  | cons w rest ih =>
    have hbytes : bytesOf json sse (w :: rest) = w.bytes json sse ++ bytesOf json sse rest := List.flatMap_cons
    unfold arrived
    rw [hbytes, if_pos (List.prefix_append _ _), List.drop_left, ih]

/-- **What the parser gives of a stream that was cut somewhere is what arrived whole**, if it does not fail. -/
theorem reading_bytesOf (hjson : Direct json Payload) (hsse : sse.Lawful) {written : List Written}
    (hcut : data <+: bytesOf json sse written) (h : reading {} data = .ok (q, events)) :
    events = eventsIn json (arrived json sse written data) := by
  induction written generalizing data events with
  | nil =>
    obtain rfl : data = [] := List.prefix_nil.mp hcut
    exact (Prod.mk.inj (Except.ok.inj h)).2.symm
  | cons w rest ih =>
    have hbytes : bytesOf json sse (w :: rest) = w.bytes json sse ++ bytesOf json sse rest := List.flatMap_cons
    rw [hbytes] at hcut
    unfold arrived
    split_ifs with hwhole
    · obtain ⟨more, rfl⟩ := hwhole
      obtain ⟨r, front, hfront, -⟩ := reading_of_append h
      have hread := reading_bytes hjson hsse w
      split_ifs at hread with hfits
      · rw [reading_append hread] at h
        cases hback : reading {} more with
        | error e =>
          rw [hback] at h
          cases h
        | ok t =>
          rw [hback] at h
          obtain ⟨rfl, rfl⟩ := Prod.mk.inj (Except.ok.inj h)
          rw [List.drop_left, ih ((List.prefix_append_right_inj _).mp hcut) hback]
          cases w <;> rfl
      · rw [hread] at hfront
        cases hfront
    · have hshort := (List.prefix_or_prefix_of_prefix hcut (List.prefix_append _ _)).resolve_right hwhole
      exact reading_cut hjson hsse hshort (fun heq => hwhole (heq ▸ List.prefix_rfl)) h

/-- A stream whose events all fit is read, wherever it is cut. -/
theorem reading_ok (hjson : Direct json Payload) (hsse : sse.Lawful) {written : List Written}
    (hfits : ∀ w ∈ written, ∀ sent ∈ w.event?, Fits json sent) (hcut : data <+: bytesOf json sse written) :
    ∃ q events, reading {} data = .ok (q, events) := by
  have hwhole : ∃ events, reading {} (bytesOf json sse written) = .ok (({}, false), events) := by
    clear hcut
    induction written with
    | nil => exact ⟨[], rfl⟩
    | cons w rest ih =>
      obtain ⟨events, hrest⟩ := ih fun w hmem => hfits w (List.mem_cons_of_mem _ hmem)
      have hread := reading_bytes hjson hsse w
      rw [if_pos (hfits w List.mem_cons_self)] at hread
      have hbytes : bytesOf json sse (w :: rest) = w.bytes json sse ++ bytesOf json sse rest := List.flatMap_cons
      rw [hbytes, reading_append hread, hrest]
      exact ⟨_, rfl⟩
  obtain ⟨events, hread⟩ := hwhole
  obtain ⟨more, hmore⟩ := hcut
  rw [← hmore] at hread
  obtain ⟨r, front, hfront, -⟩ := reading_of_append hread
  exact ⟨r, front, hfront⟩

end Written

end DenonAvr.ApiContract
