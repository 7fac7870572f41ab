import Mathlib.Tactic

/-!
# XML events

What the XML reader tells of a document: a tag begins or ends, or there is some text. Text comes in pieces. A reference to
an entity, a `CDATA` section and a comment are events of their own, so the text around them comes as several text events,
and what an element says is all of its pieces, one after the other (`Piece.spell`).

An escaped text is one with references in place of the characters that may not, or need not, stand for themselves. It is a
single piece only if there is nothing to escape (`isPlain_escape_iff`).
-/

namespace DenonAvr.Protocol

/-- The events that the parsers look at. The end of the document is the end of the list. -/
inductive XmlEvent
  | start (tag : String)
  | close (tag : String)
  | text (text : String)
  | cdata (text : String)
  /-- The name between `&` and `;`. -/
  | generalRef (name : String)
  /-- A comment, a declaration, an empty element. -/
  | other
deriving DecidableEq, Repr

/-- What the reader makes of a text: its events, or an error at the end. -/
abbrev XmlReader := String → List (Except String XmlEvent)

/-- The characters that XML has names for, and any by its number. -/
inductive Entity
  | lt | gt | amp | apos | quot
  | numbered (char : Char)
deriving DecidableEq, Repr

def Entity.name : Entity → String
  | lt => "lt"
  | gt => "gt"
  | amp => "amp"
  | apos => "apos"
  | quot => "quot"
  | numbered char => "#" ++ toString char.toNat

def Entity.char : Entity → Char
  | lt => '<'
  | gt => '>'
  | amp => '&'
  | apos => '\''
  | quot => '"'
  | numbered char => char

/-- A run of characters that stand for themselves. -/
structure CharData where
  text : String
  ne_empty : text ≠ ""
  plain : ∀ c ∈ text.toList, c ≠ '&' ∧ c ≠ '<'
deriving DecidableEq

/-- A piece of what stands between two tags. -/
inductive Piece
  | run (data : CharData)
  | reference (entity : Entity)
  | cdata (text : String)
  | comment
deriving DecidableEq

namespace Piece

/-- The characters a piece stands for. -/
def chars : Piece → List Char
  | run data => data.text.toList
  | reference entity => [entity.char]
  | cdata text => text.toList
  | comment => []

def event : Piece → XmlEvent
  | run data => .text data.text
  | reference entity => .generalRef entity.name
  | cdata text => .cdata text
  | comment => .other

/-- An element with some content. -/
def element (tag : String) (content : List Piece) : List XmlEvent := .start tag :: (content.map event ++ [.close tag])

/-- What the pieces say. -/
def spell (content : List Piece) : String := String.ofList (content.flatMap chars)

/-- The pieces that say something. -/
def speaking (content : List Piece) : List Piece := content.filter fun piece => !piece.chars.isEmpty

/-- All that is said is said by one run of characters. -/
def IsPlain (content : List Piece) : Prop := ∃ data, speaking content = [.run data]

/-- The last run of characters. -/
def lastRun (content : List Piece) : Option String :=
  content.foldl (fun last piece => match piece with
    | run data => some data.text
    | _ => last) none

section Content
variable {content rest : List Piece} {piece : Piece} {data : CharData}

theorem lastRun_concat_run (content : List Piece) (data : CharData) : lastRun (content ++ [.run data]) = some data.text := by
  unfold lastRun
  rw [List.foldl_append]
  rfl

theorem lastRun_concat_of_not_run (content : List Piece) (h : ∀ data, piece ≠ .run data) :
    lastRun (content ++ [piece]) = lastRun content := by
  unfold lastRun
  rw [List.foldl_append]
  cases piece with
  | run data => exact absurd rfl (h data)
  | _ => rfl

theorem flatMap_chars_speaking (content : List Piece) : (speaking content).flatMap chars = content.flatMap chars := by
  induction content with
  | nil => rfl
  | cons piece rest ih =>
    unfold speaking at ih ⊢
    cases hchars : piece.chars with
    | nil =>
      rw [List.filter_cons_of_neg (by simp [hchars]), ih, List.flatMap_cons, hchars, List.nil_append]
    | cons c cs =>
      rw [List.filter_cons_of_pos (by simp [hchars]), List.flatMap_cons, ih, List.flatMap_cons]

theorem chars_run_ne_nil (data : CharData) : (run data).chars ≠ [] := fun h =>
  data.ne_empty (String.toList_eq_nil_iff.mp h)

/-- Pieces that say nothing do not change the last run. -/
theorem lastRun_speaking (content : List Piece) : lastRun (speaking content) = lastRun content := by
  induction content using List.reverseRecOn with
  | nil => rfl
  | append_singleton content piece ih =>
    unfold speaking at ih ⊢
    rw [List.filter_append]
    cases piece with
    | run data =>
      rw [List.filter_cons_of_pos (by simpa using chars_run_ne_nil data), List.filter_nil, lastRun_concat_run,
        lastRun_concat_run]
    | comment =>
      rw [List.filter_cons_of_neg (by simp [chars]), List.filter_nil, List.append_nil, ih,
        lastRun_concat_of_not_run content (by simp)]
    | reference entity =>
      rw [List.filter_cons_of_pos (by simp [chars]), List.filter_nil, lastRun_concat_of_not_run _ (by simp),
        lastRun_concat_of_not_run content (by simp), ih]
    | cdata text =>
      rw [lastRun_concat_of_not_run content (by simp)]
      by_cases htext : text.toList = []
      · rw [List.filter_cons_of_neg (by simp [chars, htext]), List.filter_nil, List.append_nil, ih]
      · rw [List.filter_cons_of_pos (by simpa [chars] using htext), List.filter_nil,
          lastRun_concat_of_not_run _ (by simp), ih]

/-- The last run is one of the pieces. -/
theorem mem_of_lastRun {text : String} (h : lastRun content = some text) : ∃ data : CharData, .run data ∈ content ∧ data.text = text := by
  induction content using List.reverseRecOn with
  | nil => cases h
  | append_singleton content piece ih =>
    by_cases hrun : ∃ data, piece = .run data
    · obtain ⟨data, rfl⟩ := hrun
      rw [lastRun_concat_run] at h
      exact ⟨data, by simp, Option.some.inj h⟩
    · rw [lastRun_concat_of_not_run content fun data hdata => hrun ⟨data, hdata⟩] at h
      obtain ⟨data, hmem, htext⟩ := ih h
      exact ⟨data, by simp [hmem], htext⟩

/-- **The last run says it all only if it is all there is.** -/
theorem lastRun_eq_spell_iff : lastRun content = some (spell content) ↔ IsPlain content := by
  rw [← lastRun_speaking]
  have hspell : spell content = spell (speaking content) := by
    unfold spell
    rw [flatMap_chars_speaking]
  rw [hspell]
  constructor
  · intro hlast
    obtain ⟨data, hmem, htext⟩ := mem_of_lastRun hlast
    obtain ⟨before, after, heq⟩ := List.append_of_mem hmem
    have hchars : data.text.toList = before.flatMap chars ++ (data.text.toList ++ after.flatMap chars) := by
      conv_lhs => rw [htext, spell, heq, String.toList_ofList]
      simp [chars]
    have hlength := congrArg List.length hchars
    simp only [List.length_append] at hlength
    have hspeak : ∀ piece ∈ speaking content, piece.chars ≠ [] := by
      intro piece hpiece
      have := (List.mem_filter.mp hpiece).2
      simpa using this
    have hsilent : ∀ pieces : List Piece, (pieces.flatMap chars).length = 0 →
        (∀ piece ∈ pieces, piece ∈ speaking content) → pieces = [] := by
      intro pieces hzero hmem
      cases pieces with
      | nil => rfl
      | cons piece rest =>
        have hnil := List.length_eq_zero_iff.mp hzero
        rw [List.flatMap_cons, List.append_eq_nil_iff] at hnil
        exact absurd hnil.1 (hspeak piece (hmem piece List.mem_cons_self))
    have hbefore : before = [] := hsilent before (by omega) fun piece hpiece => by simp [heq, hpiece]
    have hafter : after = [] := hsilent after (by omega) fun piece hpiece => by simp [heq, hpiece]
    exact ⟨data, by rw [heq, hbefore, hafter, List.nil_append]⟩
  · rintro ⟨data, hdata⟩
    rw [hdata, ← List.nil_append [run data], lastRun_concat_run]
    simp [spell, chars]

end Content

end Piece

/-! ### Escaping -/

/-- Which characters are escaped, and how. The two that open markup are. -/
structure Escaping where
  entity : Char → Option Entity
  char : ∀ c e, entity c = some e → e.char = c
  amp : entity '&' ≠ none
  lt : entity '<' ≠ none

namespace Escaping
variable (escaping : Escaping)

/-- A character that stands for itself, and what follows it of the same run. -/
def single (c : Char) (h : escaping.entity c = none) : CharData where
  text := String.singleton c
  ne_empty := by simp
  plain := by
    intro c' hc'
    obtain rfl : c' = c := by simpa using hc'
    exact ⟨fun hamp => escaping.amp (hamp ▸ h), fun hlt => escaping.lt (hlt ▸ h)⟩

def extend (c : Char) (h : escaping.entity c = none) (data : CharData) : CharData where
  text := String.singleton c ++ data.text
  ne_empty := by simp [data.ne_empty]
  plain := by
    intro c' hc'
    rw [String.toList_append, List.mem_append] at hc'
    rcases hc' with hc' | hc'
    · exact (escaping.single c h).plain c' hc'
    · exact data.plain c' hc'

def escapeChars : List Char → List Piece
  | [] => []
  | c :: rest =>
    match h : escaping.entity c with
    | some entity => .reference entity :: escapeChars rest
    | none =>
      match escapeChars rest with
      | .run data :: pieces => .run (escaping.extend c h data) :: pieces
      | pieces => .run (escaping.single c h) :: pieces

def escape (text : String) : List Piece := escaping.escapeChars text.toList

variable {escaping} {c : Char} {rest : List Char}

theorem escapeChars_of_some {entity : Entity} (h : escaping.entity c = some entity) :
    escaping.escapeChars (c :: rest) = .reference entity :: escaping.escapeChars rest := by
  rw [escapeChars]
  split
  · rename_i heq
    rw [h] at heq
    cases heq
    rfl
  · rename_i heq
    rw [h] at heq
    cases heq

/-- A character that stands for itself is at the front of the first run. -/
theorem escapeChars_of_none (rest : List Char) (h : escaping.entity c = none) :
    (∃ data pieces, escaping.escapeChars rest = .run data :: pieces ∧
      escaping.escapeChars (c :: rest) = .run (escaping.extend c h data) :: pieces) ∨
    ((∀ data pieces, escaping.escapeChars rest ≠ .run data :: pieces) ∧
      escaping.escapeChars (c :: rest) = .run (escaping.single c h) :: escaping.escapeChars rest) := by
  rw [escapeChars]
  split
  · rename_i heq
    rw [h] at heq
    cases heq
  · split
    · rename_i data pieces hrest
      exact .inl ⟨data, pieces, hrest, rfl⟩
    · rename_i hrest
      exact .inr ⟨hrest, rfl⟩

theorem flatMap_escapeChars (chars : List Char) : (escaping.escapeChars chars).flatMap Piece.chars = chars := by
  induction chars with
  | nil => rfl
  | cons c rest ih =>
    cases h : escaping.entity c with
    | some entity =>
      rw [escapeChars_of_some h, List.flatMap_cons, ih]
      show [entity.char] ++ rest = c :: rest
      rw [escaping.char c entity h]
      rfl
    | none =>
      rcases escapeChars_of_none rest h with ⟨data, pieces, hrest, heq⟩ | ⟨-, heq⟩
      · rw [heq, List.flatMap_cons]
        rw [hrest, List.flatMap_cons] at ih
        show (String.singleton c ++ data.text).toList ++ _ = _
        rw [String.toList_append, List.append_assoc]
        exact (congrArg ((String.singleton c).toList ++ ·) ih).trans (by simp)
      · rw [heq, List.flatMap_cons, ih]
        show (String.singleton c).toList ++ rest = c :: rest
        simp

/-- An escaped text says the text. -/
theorem spell_escape (text : String) : Piece.spell (escaping.escape text) = text := by
  unfold Piece.spell escape
  rw [flatMap_escapeChars, String.ofList_toList]

/-- There is a reference for each character that is escaped. -/
theorem reference_mem_escapeChars {chars : List Char} (hc : c ∈ chars) {entity : Entity} (h : escaping.entity c = some entity) :
    .reference entity ∈ escaping.escapeChars chars := by
  induction chars with
  | nil => exact absurd hc List.not_mem_nil
  | cons first rest ih =>
    rcases List.mem_cons.mp hc with rfl | hc
    · rw [escapeChars_of_some h]
      exact List.mem_cons_self
    · have hrest := ih hc
      cases hfirst : escaping.entity first with
      | some entity' =>
        rw [escapeChars_of_some hfirst]
        exact List.mem_cons_of_mem _ hrest
      | none =>
        rcases escapeChars_of_none rest hfirst with ⟨data, pieces, heq, hcons⟩ | ⟨-, hcons⟩
        · rw [heq] at hrest
          rw [hcons]
          exact List.mem_cons_of_mem _ ((List.mem_cons.mp hrest).resolve_left (by simp))
        · rw [hcons]
          exact List.mem_cons_of_mem _ hrest

theorem escapeChars_of_all {chars : List Char} (hne : chars ≠ []) (h : ∀ c ∈ chars, escaping.entity c = none) :
    ∃ data, escaping.escapeChars chars = [.run data] := by
  induction chars with
  | nil => exact absurd rfl hne
  | cons first rest ih =>
    have hfirst := h first List.mem_cons_self
    by_cases hrest : rest = []
    · subst hrest
      rcases escapeChars_of_none [] hfirst with ⟨data, pieces, heq, -⟩ | ⟨-, hcons⟩
      · cases heq
      · exact ⟨_, hcons⟩
    · obtain ⟨data, hdata⟩ := ih hrest fun c hc => h c (List.mem_cons_of_mem _ hc)
      rcases escapeChars_of_none rest hfirst with ⟨data', pieces, heq, hcons⟩ | ⟨hnone, -⟩
      · rw [hdata] at heq
        obtain ⟨-, rfl⟩ := List.cons.inj heq
        exact ⟨_, hcons⟩
      · exact absurd hdata (hnone data [])

/-- **An escaped text is a single piece only if there is nothing to escape.** -/
theorem isPlain_escape_iff {text : String} (h : text ≠ "") :
    Piece.IsPlain (escaping.escape text) ↔ ∀ c ∈ text.toList, escaping.entity c = none := by
  constructor
  · rintro ⟨data, hdata⟩ c hc
    cases hentity : escaping.entity c with
    | none => rfl
    | some entity =>
      have hmem : .reference entity ∈ Piece.speaking (escaping.escape text) :=
        List.mem_filter.mpr ⟨reference_mem_escapeChars hc hentity, by simp [Piece.chars]⟩
      rw [hdata] at hmem
      cases List.mem_singleton.mp hmem
  · intro hnone
    obtain ⟨data, hdata⟩ := escapeChars_of_all (fun hnil => h (String.toList_eq_nil_iff.mp hnil)) hnone
    refine ⟨data, ?_⟩
    unfold escape
    rw [hdata]
    exact List.filter_cons_of_pos (by simpa using Piece.chars_run_ne_nil data)

end Escaping

/-- Every character that has a name is escaped. -/
def Escaping.full : Escaping where
  entity
    | '<' => some .lt
    | '>' => some .gt
    | '&' => some .amp
    | '\'' => some .apos
    | '"' => some .quot
    | _ => none
  char c e h := by
    split at h <;> cases h <;> rfl
  amp := by decide
  lt := by decide

end DenonAvr.Protocol
