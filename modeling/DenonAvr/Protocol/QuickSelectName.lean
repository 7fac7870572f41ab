import DenonAvr.Domain.Receiver
import DenonAvr.Protocol.Xml

/-!
# Quick Select names

The receiver's reply has an element for each of the four names. The parser follows the events of the XML reader: it keeps
which element it is in, and each text event replaces what that element has said so far.

So of a name that comes as several pieces only the last run of characters is left, and the names are returned whole only
if each comes as one. One that is escaped comes as one only if there is nothing to escape (`names_whole_iff`).
-/

namespace DenonAvr.Protocol

open Domain

structure ParsedQuickSelectNames where
  names : Fin 4 → Option String
  sources : Fin 4 → Option String
  complete : Bool

inductive QuickSelectNameProtocolError
  | malformedXml (error : String)
  | missingResponse
deriving DecidableEq

/-- The index after the prefix. A number too large for a `usize` is not one of the four either. -/
def indexedField (tag stem : String) : Option (Fin 4) :=
  if stem.toList.isPrefixOf tag.toList then
    let index := tag.toList.drop stem.length
    let digits := if index.head? = some '+' then index.drop 1 else index
    if digits.isEmpty || !digits.all Char.isDigit then none
    else
      let number := Nat.ofDigitChars 10 digits 0
      if h : 1 ≤ number ∧ number ≤ 4 then some ⟨number - 1, by omega⟩ else none
  else none

structure NameParser where
  names : Fin 4 → Option String := fun _ => none
  sources : Fin 4 → Option String := fun _ => none
  /-- The element under way: a name or a source, and which. -/
  current : Option (Bool × Fin 4) := none
  sawRoot : Bool := false
  sawCommand : Bool := false

namespace NameParser

def onStart (p : NameParser) (tag : String) : Except QuickSelectNameProtocolError NameParser :=
  if tag = "rx" then
    if p.sawRoot then .error (.malformedXml "duplicate rx root") else .ok { p with sawRoot := true }
  else if tag = "cmd" then
    if !p.sawRoot || p.sawCommand then .error (.malformedXml "unexpected cmd element")
    else .ok { p with sawCommand := true }
  else
    match indexedField tag "Name" with
    | some index => .ok { p with current := some (true, index) }
    | none =>
      match indexedField tag "Source" with
      | some index => .ok { p with current := some (false, index) }
      | none => .ok p

def onText (p : NameParser) (text : String) : NameParser :=
  match p.current with
  | some (true, index) => { p with names := Function.update p.names index (some text) }
  | some (false, index) => { p with sources := Function.update p.sources index (some text) }
  | none => p

def onEnd (p : NameParser) (tag : String) : NameParser :=
  if tag = "rx" then { p with sawRoot := false }
  else if tag = "cmd" || (indexedField tag "Name").isSome || (indexedField tag "Source").isSome then
    { p with current := none }
  else p

def onEvent (p : NameParser) : XmlEvent → Except QuickSelectNameProtocolError NameParser
  | .start tag => p.onStart tag
  | .text text => .ok (p.onText text)
  | .close tag => .ok (p.onEnd tag)
  | .cdata _ | .generalRef _ | .other => .ok p

/-- An event, or an error of the reader. -/
def onRead (p : NameParser) : Except String XmlEvent → Except QuickSelectNameProtocolError NameParser
  | .ok event => p.onEvent event
  | .error error => .error (.malformedXml error)

end NameParser

def parseQuickSelectNames (read : XmlReader) (xml : String) :
    Except QuickSelectNameProtocolError ParsedQuickSelectNames :=
  if isBlank xml then .error .missingResponse
  else
    match (read xml).foldlM NameParser.onRead {} with
    | .error error => .error error
    | .ok p =>
      if !p.sawCommand then .error (.malformedXml "response has no cmd")
      else .ok { complete := (List.finRange 4).all fun i => (p.names i).isSome, names := p.names, sources := p.sources }

/-! ### Replies -/

def nameTag (index : Fin 4) : String := "Name" ++ toString (index.val + 1)
def sourceTag (index : Fin 4) : String := "Source" ++ toString (index.val + 1)

/-- A tag the parser does not look for. -/
structure OtherTag where
  tag : String
  unknown : tag ≠ "rx" ∧ tag ≠ "cmd" ∧ indexedField tag "Name" = none ∧ indexedField tag "Source" = none

/-- What there is inside the command. -/
inductive ReplyItem
  | name (index : Fin 4) (content : List Piece)
  | source (index : Fin 4) (content : List Piece)
  | element (tag : OtherTag) (content : List Piece)
  /-- The blanks and comments between the elements. -/
  | between (piece : Piece)

def ReplyItem.events : ReplyItem → List XmlEvent
  | name index content => Piece.element (nameTag index) content
  | source index content => Piece.element (sourceTag index) content
  | element tag content => Piece.element tag.tag content
  | between piece => [piece.event]

/-- The content of a name. -/
def ReplyItem.nameContent (index : Fin 4) : ReplyItem → Option (List Piece)
  | name i content => if i = index then some content else none
  | _ => none

structure Reply where
  before : List Piece := []
  opening : List Piece := []
  items : List ReplyItem
  closing : List Piece := []

namespace Reply

def events (reply : Reply) : List XmlEvent :=
  reply.before.map Piece.event ++ .start "rx" :: (reply.opening.map Piece.event ++ .start "cmd" ::
    (reply.items.flatMap ReplyItem.events ++ .close "cmd" :: (reply.closing.map Piece.event ++ [.close "rx"])))

/-- The contents of the elements of one name. -/
def contents (reply : Reply) (index : Fin 4) : List (List Piece) :=
  reply.items.filterMap (ReplyItem.nameContent index)

end Reply

/-! ### What the parser hears -/

namespace NameParser
variable {p : NameParser} {index : Fin 4} {content : List Piece}

theorem onText_onText (a b : String) : (p.onText a).onText b = p.onText b := by
  obtain ⟨names, sources, current, sawRoot, sawCommand⟩ := p
  rcases current with _ | ⟨isName, index⟩
  · rfl
  · cases isName <;> simp [onText]

/-- Of the pieces of a content the last run of characters is heard. -/
theorem foldlM_content (p : NameParser) (content : List Piece) :
    (content.map Piece.event).foldlM onEvent p = .ok ((Piece.lastRun content).elim p p.onText) := by
  induction content using List.reverseRecOn with
  | nil => rfl
  | append_singleton content piece ih =>
    rw [List.map_append, List.foldlM_append, ih]
    cases piece with
    | run data =>
      rw [Piece.lastRun_concat_run]
      cases Piece.lastRun content with
      | none => rfl
      | some text => exact congrArg Except.ok (onText_onText text data.text)
    | _ =>
      rw [Piece.lastRun_concat_of_not_run content (by simp)]
      rfl

/-- Outside the elements nothing is heard. -/
theorem foldlM_between (h : p.current = none) (content : List Piece) :
    (content.map Piece.event).foldlM onEvent p = .ok p := by
  rw [foldlM_content]
  cases Piece.lastRun content with
  | none => rfl
  | some text =>
    show Except.ok (p.onText text) = .ok p
    unfold onText
    rw [h]

/-- What an item leaves. -/
def take (p : NameParser) : ReplyItem → NameParser
  | .name index content =>
    { p with names := (Piece.lastRun content).elim p.names fun text => Function.update p.names index (some text) }
  | .source index content =>
    { p with sources := (Piece.lastRun content).elim p.sources fun text => Function.update p.sources index (some text) }
  | .element _ _ | .between _ => p

theorem onStart_nameTag (p : NameParser) (index : Fin 4) :
    p.onStart (nameTag index) = .ok { p with current := some (true, index) } := by
  fin_cases index <;> rfl

theorem onStart_sourceTag (p : NameParser) (index : Fin 4) :
    p.onStart (sourceTag index) = .ok { p with current := some (false, index) } := by
  fin_cases index <;> rfl

theorem onEnd_nameTag (p : NameParser) (index : Fin 4) : p.onEnd (nameTag index) = { p with current := none } := by
  fin_cases index <;> rfl

theorem onEnd_sourceTag (p : NameParser) (index : Fin 4) : p.onEnd (sourceTag index) = { p with current := none } := by
  fin_cases index <;> rfl

theorem foldlM_cons_of_ok {event : XmlEvent} {p' : NameParser} (h : p.onEvent event = .ok p') (events : List XmlEvent) :
    (event :: events).foldlM onEvent p = events.foldlM onEvent p' := by
  rw [List.foldlM_cons, h]
  rfl

theorem foldlM_append_of_ok {events : List XmlEvent} {p' : NameParser} (h : events.foldlM onEvent p = .ok p')
    (rest : List XmlEvent) : (events ++ rest).foldlM onEvent p = rest.foldlM onEvent p' := by
  rw [List.foldlM_append, h]
  rfl

theorem foldlM_element {tag : String} {started ended : NameParser} (hstart : p.onStart tag = .ok started)
    (hend : ((Piece.lastRun content).elim started started.onText).onEnd tag = ended) :
    (Piece.element tag content).foldlM onEvent p = .ok ended := by
  have hevent : p.onEvent (.start tag) = .ok started := hstart
  unfold Piece.element
  rw [foldlM_cons_of_ok hevent, foldlM_append_of_ok (foldlM_content started content)]
  exact congrArg Except.ok hend

theorem foldlM_item (h : p.current = none) (item : ReplyItem) : item.events.foldlM onEvent p = .ok (p.take item) := by
  obtain ⟨names, sources, current, sawRoot, sawCommand⟩ := p
  obtain rfl : current = none := h
  cases item with
  | name index content =>
    refine foldlM_element (onStart_nameTag _ index) ?_
    rw [onEnd_nameTag]
    cases hlast : Piece.lastRun content <;> simp [take, hlast, onText]
  | source index content =>
    refine foldlM_element (onStart_sourceTag _ index) ?_
    rw [onEnd_sourceTag]
    cases hlast : Piece.lastRun content <;> simp [take, hlast, onText]
  | element tag content =>
    obtain ⟨hrx, hcmd, hname, hsource⟩ := tag.unknown
    have hstart : onStart { names, sources, current := none, sawRoot, sawCommand } tag.tag
        = .ok { names, sources, current := none, sawRoot, sawCommand } := by
      simp [onStart, hrx, hcmd, hname, hsource]
    refine foldlM_element hstart ?_
    cases hlast : Piece.lastRun content <;> simp [take, onEnd, onText, hrx, hcmd, hname, hsource]
  | between piece => exact foldlM_between rfl [piece]

theorem take_current (p : NameParser) (item : ReplyItem) : (p.take item).current = p.current := by
  cases item <;> rfl

theorem take_sawCommand (p : NameParser) (item : ReplyItem) : (p.take item).sawCommand = p.sawCommand := by
  cases item <;> rfl

theorem foldlM_items (h : p.current = none) (items : List ReplyItem) :
    (items.flatMap ReplyItem.events).foldlM onEvent p = .ok (items.foldl take p) := by
  induction items generalizing p with
  | nil => rfl
  | cons item items ih =>
    rw [List.flatMap_cons, List.foldlM_append, foldlM_item h item]
    exact ih ((p.take_current item).trans h)

theorem take_names (p : NameParser) (item : ReplyItem) (index : Fin 4) :
    (p.take item).names index = (item.nameContent index).elim (p.names index) fun content =>
      (Piece.lastRun content).or (p.names index) := by
  cases item with
  | name i content =>
    simp only [take, ReplyItem.nameContent]
    by_cases hi : i = index
    · subst hi
      cases hlast : Piece.lastRun content <;> simp [hlast]
    · rw [if_neg hi]
      cases hlast : Piece.lastRun content with
      | none => rfl
      | some text => exact Function.update_of_ne (Ne.symm hi) _ _
  | _ => rfl

/-- A name is what the last of its elements that says something leaves. -/
theorem foldl_take_names (items : List ReplyItem) (p : NameParser) (index : Fin 4) :
    (items.foldl take p).names index = (items.filterMap (ReplyItem.nameContent index)).foldl
      (fun name content => (Piece.lastRun content).or name) (p.names index) := by
  induction items generalizing p with
  | nil => rfl
  | cons item items ih =>
    rw [List.foldl_cons, ih, take_names]
    cases hcontent : item.nameContent index with
    | none => rw [List.filterMap_cons_none hcontent]; rfl
    | some content => rw [List.filterMap_cons_some hcontent]; rfl

theorem foldl_take_flags (items : List ReplyItem) (p : NameParser) :
    (items.foldl take p).current = p.current ∧ (items.foldl take p).sawCommand = p.sawCommand := by
  induction items generalizing p with
  | nil => exact ⟨rfl, rfl⟩
  | cons item items ih =>
    obtain ⟨hcurrent, hcommand⟩ := ih (p.take item)
    exact ⟨hcurrent.trans (p.take_current item), hcommand.trans (p.take_sawCommand item)⟩

end NameParser

/-- Where the parser is inside the command. -/
def NameParser.inCommand : NameParser := { sawRoot := true, sawCommand := true }

/-- **What is made of a reply**: each name is the last run of characters of its content. -/
theorem foldlM_events (reply : Reply) : ∃ p, reply.events.foldlM NameParser.onEvent {} = .ok p ∧
    p.sawCommand = true ∧ p.names = (reply.items.foldl NameParser.take .inCommand).names := by
  obtain ⟨hcurrent, hcommand⟩ := NameParser.foldl_take_flags reply.items .inCommand
  have hbefore := NameParser.foldlM_between (p := {}) rfl reply.before
  have hopening := NameParser.foldlM_between (p := { sawRoot := true }) rfl reply.opening
  have hitems := NameParser.foldlM_items (p := .inCommand) rfl reply.items
  generalize reply.items.foldl NameParser.take .inCommand = after at *
  have hclosing := NameParser.foldlM_between (p := { after with current := none }) rfl reply.closing
  refine ⟨{ after with current := none, sawRoot := false }, ?_, hcommand, rfl⟩
  have hroot : NameParser.onEvent {} (.start "rx") = .ok { sawRoot := true } := rfl
  have hstart : NameParser.onEvent { sawRoot := true } (.start "cmd") = .ok .inCommand := rfl
  have hend : NameParser.onEvent after (.close "cmd") = .ok { after with current := none } := rfl
  have hlast : NameParser.onEvent { after with current := none } (.close "rx")
      = .ok { after with current := none, sawRoot := false } := rfl
  unfold Reply.events
  rw [NameParser.foldlM_append_of_ok hbefore, NameParser.foldlM_cons_of_ok hroot,
    NameParser.foldlM_append_of_ok hopening, NameParser.foldlM_cons_of_ok hstart,
    NameParser.foldlM_append_of_ok hitems, NameParser.foldlM_cons_of_ok hend, NameParser.foldlM_append_of_ok hclosing,
    NameParser.foldlM_cons_of_ok hlast]
  rfl

/-! ### When the names are whole -/

/-- The parser returns these names. -/
def ReturnsNames (read : XmlReader) (xml : String) (names : Fin 4 → String) : Prop :=
  ∃ parsed, parseQuickSelectNames read xml = .ok parsed ∧ parsed.names = fun index => some (names index)

/-- The names a reply gives, each with the one content that spells it. -/
structure Gives (reply : Reply) (names : Fin 4 → String) (content : Fin 4 → List Piece) : Prop where
  once : ∀ index, reply.contents index = [content index]
  spell : ∀ index, Piece.spell (content index) = names index

theorem parseQuickSelectNames_reply {read : XmlReader} {xml : String} {reply : Reply} (hxml : isBlank xml = false)
    (hread : read xml = reply.events.map .ok) :
    ∃ parsed, parseQuickSelectNames read xml = .ok parsed ∧
      parsed.names = (reply.items.foldl NameParser.take .inCommand).names := by
  obtain ⟨p, hp, hcommand, hnames⟩ := foldlM_events reply
  have hfold : (read xml).foldlM NameParser.onRead {} = .ok p := by
    rw [hread, List.foldlM_map]
    exact hp
  unfold parseQuickSelectNames
  rw [if_neg (by simp [hxml]), hfold]
  dsimp only
  rw [hcommand]
  exact ⟨_, rfl, hnames⟩

/-- **The names are whole if and only if each is one run of characters.** -/
theorem returnsNames_iff (read : XmlReader) (xml : String) (reply : Reply) (names : Fin 4 → String)
    (content : Fin 4 → List Piece) (hgives : Gives reply names content) (hxml : isBlank xml = false)
    (hread : read xml = reply.events.map .ok) :
    ReturnsNames read xml names ↔ ∀ index, Piece.IsPlain (content index) := by
  obtain ⟨parsed, hparsed, hnames⟩ := parseQuickSelectNames_reply hxml hread
  have hlast : ∀ index, parsed.names index = Piece.lastRun (content index) := by
    intro index
    rw [hnames, NameParser.foldl_take_names]
    rw [show reply.items.filterMap (ReplyItem.nameContent index) = [content index] from hgives.once index]
    simp [NameParser.inCommand]
  have hwhole : ReturnsNames read xml names ↔ ∀ index, Piece.lastRun (content index) = some (names index) := by
    constructor
    · rintro ⟨parsed', hparsed', hnames'⟩ index
      obtain rfl : parsed = parsed' := Except.ok.inj (hparsed.symm.trans hparsed')
      rw [← hlast, hnames']
    · intro h
      exact ⟨parsed, hparsed, funext fun index => (hlast index).trans (h index)⟩
  rw [hwhole]
  refine forall_congr' fun index => ?_
  rw [← hgives.spell index]
  exact Piece.lastRun_eq_spell_iff

/-- What is whole of the names of a reply; an escaped name is one run only if nothing in it is escaped. -/
theorem names_whole_iff (read : XmlReader) (xml : String) (reply : Reply) (names : Fin 4 → String)
    (content : Fin 4 → List Piece) (hgives : Gives reply names content) (hxml : isBlank xml = false)
    (hread : read xml = reply.events.map .ok) :
    (ReturnsNames read xml names ↔ ∀ index, Piece.IsPlain (content index)) ∧
      ∀ (escaping : Escaping) (index : Fin 4), names index ≠ "" → content index = escaping.escape (names index) →
        (Piece.IsPlain (content index) ↔ ∀ c ∈ (names index).toList, escaping.entity c = none) := by
  refine ⟨returnsNames_iff read xml reply names content hgives hxml hread, fun escaping index hne hcontent => ?_⟩
  rw [hcontent]
  exact Escaping.isPlain_escape_iff hne

def filmNames : Fin 4 → String := ![ "Film & TV", "Game", "Music", "News"]

def filmXml : String :=
  "<rx><cmd><Name1>Film &amp; TV</Name1><Name2>Game</Name2><Name3>Music</Name3><Name4>News</Name4></cmd></rx>"

def filmContent (index : Fin 4) : List Piece := Escaping.full.escape (filmNames index)

def filmReply : Reply := { items := (List.finRange 4).map fun index => .name index (filmContent index) }

/-- What the reader makes of the one document. -/
def readFilm : XmlReader := fun xml => if xml = filmXml then filmReply.events.map .ok else []

theorem gives_film : Gives filmReply filmNames filmContent where
  once index := by fin_cases index <;> rfl
  spell index := Escaping.spell_escape _

theorem readFilm_film : readFilm filmXml = filmReply.events.map .ok := if_pos rfl

theorem names_whole_iff_film :
    (ReturnsNames readFilm filmXml filmNames ↔ ∀ index, Piece.IsPlain (filmContent index)) ∧
      ∀ (escaping : Escaping) (index : Fin 4), filmNames index ≠ "" →
        filmContent index = escaping.escape (filmNames index) →
          (Piece.IsPlain (filmContent index) ↔ ∀ c ∈ (filmNames index).toList, escaping.entity c = none) :=
  names_whole_iff readFilm filmXml filmReply filmNames filmContent gives_film (by decide) readFilm_film

/-- **A name with an ampersand is cut down.** -/
theorem not_returnsNames_film :
    ¬ ∀ (read : XmlReader) (xml : String) (reply : Reply) (names : Fin 4 → String) (content : Fin 4 → List Piece),
      Gives reply names content → (∀ index, names index ≠ "") → isBlank xml = false →
        read xml = reply.events.map .ok → ReturnsNames read xml names := by
  intro hall
  have hreturns := hall readFilm filmXml filmReply filmNames filmContent gives_film (by decide) (by decide) readFilm_film
  have hplain := (returnsNames_iff readFilm filmXml filmReply filmNames filmContent gives_film (by decide)
    readFilm_film).mp hreturns 0
  have hnone := (Escaping.isPlain_escape_iff (by decide)).mp hplain '&' (by decide)
  exact absurd hnone (by decide)

end DenonAvr.Protocol
