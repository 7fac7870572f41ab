import DenonAvr.Protocol.X3800h
import DenonAvr.Protocol.Xml
import Mathlib.Data.Finmap
import Mathlib.Data.Finset.Sort
import Mathlib.Data.String.Basic

/-!
# The source catalog

The receiver tells of its sources in two lists of rows: one gives them labels, the other says which are in use. The rows
are read from the events of the XML reader, and added to the catalog one by one. An entry takes what the first row about
it knows, and a row that knows otherwise is a conflict.

What becomes of the rows depends on which there are, not on their order (`catalog_merge`): the entries are those that the
rows name (`Describes`), and there is a conflict just when two rows know different things of one source.
-/

namespace DenonAvr.Protocol

open Domain

inductive SourceVisibility
  | shown | hidden | unknown
deriving DecidableEq, Repr

structure SourceEntry where
  id : SourceId
  displayName : Option String
  visibility : SourceVisibility
deriving DecidableEq

/-- How much of the catalog a reply had. -/
inductive CatalogResponseEvidence
  | complete | partly | unsupported
deriving DecidableEq, Repr

structure ParsedSourceCatalog where
  entries : List SourceEntry
  evidence : CatalogResponseEvidence
deriving DecidableEq

inductive SourceCatalogProtocolError
  | malformedXml (error : String)
  | conflictingEntry (id : String)
deriving DecidableEq

/-! ### Rows -/

/-- A row: the list it is in, and the texts of its elements. -/
structure Row where
  list : String
  values : List (String × String) := []
deriving DecidableEq

namespace Row

def value (row : Row) (name : String) : Option String := row.values.lookup name

/-- `entry(name).or_default().push_str(text)`. -/
def push (row : Row) (name text : String) : Row :=
  if (row.value name).isSome then
    { row with values := row.values.map fun (key, old) => if key = name then (key, old ++ text) else (key, old) }
  else { row with values := row.values ++ [(name, text)] }

end Row

/-- `to_ascii_lowercase`. -/
def asciiLowercase (text : String) : String := String.ofList (text.toList.map Char.toLower)

structure RowReader where
  /-- The elements under way, the innermost first. -/
  path : List String := []
  rows : List Row := []
  row : Option Row := none
deriving DecidableEq

namespace RowReader

def onStart (r : RowReader) (tag : String) : RowReader :=
  let name := asciiLowercase tag
  let row := match r.path with
    | parent :: _ =>
      if name = "list" ∧ (parent = "functionrename" ∨ parent = "functiondelete") then some { list := parent } else r.row
    | [] => r.row
  { r with path := name :: r.path, row }

/-- `unescape` is the XML library's. -/
def appendText (unescape : String → Except String String) (r : RowReader) (text : String) :
    Except SourceCatalogProtocolError RowReader :=
  match r.row, r.path with
  | some row, name :: _ =>
    if name = "list" then .ok r
    else
      match unescape text with
      | .error error => .error (.malformedXml error)
      | .ok decoded => .ok { r with row := some (row.push name decoded) }
  | _, _ => .ok r

def onEnd (r : RowReader) (tag : String) : RowReader :=
  let r := if asciiLowercase tag = "list" then { r with rows := r.rows ++ r.row.toList, row := none } else r
  { r with path := r.path.tail }

def onRead (unescape : String → Except String String) (r : RowReader) :
    Except String XmlEvent → Except SourceCatalogProtocolError RowReader
  | .ok (.start tag) => .ok (r.onStart tag)
  | .ok (.text text) => r.appendText unescape text
  | .ok (.cdata text) => r.appendText unescape text
  | .ok (.generalRef name) => r.appendText unescape ("&" ++ name ++ ";")
  | .ok (.close tag) => .ok (r.onEnd tag)
  | .ok .other => .ok r
  | .error error => .error (.malformedXml error)

end RowReader

def xmlRows (unescape : String → Except String String) (events : List (Except String XmlEvent)) :
    Except SourceCatalogProtocolError (List Row) :=
  match events.foldlM (RowReader.onRead unescape) {} with
  | .error error => .error error
  | .ok r => if r.path.isEmpty then .ok r.rows else .error (.malformedXml "unclosed element")

/-! ### The catalog -/

def trimText (text : String) : String := String.ofList (trimEnd (text.toList.dropWhile isWhitespace))

structure Catalog where
  entries : Finmap fun _ : String => SourceEntry := ∅
  sawRename : Bool := false
  sawDelete : Bool := false

namespace Catalog

/-- The entry of a source, or a new one. -/
def entryOr (c : Catalog) (id : SourceId) : SourceEntry :=
  (c.entries.lookup id.value).getD { id, displayName := none, visibility := .unknown }

/-- A row that gives a source a label. -/
def addRename (c : Catalog) (row : Row) : Except SourceCatalogProtocolError Catalog :=
  let c := { c with sawRename := true }
  match row.value "name" with
  | none => .ok c
  | some name =>
    let name := trimText name
    if name = "" then .ok c
    else
      match SourceId.new name with
      | .error error => .error (.malformedXml error)
      | .ok id =>
        let entry := c.entryOr id
        let label := ((row.value "rename").map trimText).filter (· ≠ "")
        match entry.displayName, label with
        | some previous, some label =>
          if previous ≠ label then .error (.conflictingEntry name)
          else .ok { c with entries := c.entries.insert name entry }
        | none, some label => .ok { c with entries := c.entries.insert name { entry with displayName := some label } }
        | _, none => .ok { c with entries := c.entries.insert name entry }

/-- A row that says whether a source is in use. -/
def addDelete (c : Catalog) (row : Row) : Except SourceCatalogProtocolError Catalog :=
  let c := { c with sawDelete := true }
  match row.value "funcname" with
  | none => .ok c
  | some name =>
    let name := trimText name
    if name = "" then .ok c
    else
      match SourceId.new name with
      | .error error => .error (.malformedXml error)
      | .ok id =>
        let entry := c.entryOr id
        let visibility := match (row.value "use").map trimText with
          | some "0" => .hidden
          | some "1" => .shown
          | _ => .unknown
        if entry.visibility ≠ .unknown ∧ visibility ≠ .unknown ∧ entry.visibility ≠ visibility then
          .error (.conflictingEntry name)
        else if visibility ≠ .unknown then
          .ok { c with entries := c.entries.insert name { entry with visibility } }
        else .ok { c with entries := c.entries.insert name entry }

def addRow (c : Catalog) (row : Row) : Except SourceCatalogProtocolError Catalog :=
  if row.list = "functionrename" then c.addRename row
  else if row.list = "functiondelete" then c.addDelete row
  else .ok c

/-- The entries in the order of their keys. -/
def values (c : Catalog) : List SourceEntry := (c.entries.keys.sort (· ≤ ·)).filterMap c.entries.lookup

def evidence (c : Catalog) : CatalogResponseEvidence :=
  match c.sawRename, c.sawDelete with
  | true, true => .complete
  | true, false | false, true => .partly
  | false, false => .unsupported

end Catalog

/-- The catalog of some rows. -/
def catalogOf (rows : List Row) : Except SourceCatalogProtocolError ParsedSourceCatalog :=
  match rows.foldlM Catalog.addRow {} with
  | .error error => .error error
  | .ok c => .ok { entries := c.values, evidence := c.evidence }

def parseSourceCatalogResponse (read : XmlReader) (unescape : String → Except String String) (xml : String) :
    Except SourceCatalogProtocolError ParsedSourceCatalog :=
  match xmlRows unescape (read xml) with
  | .error error => .error error
  | .ok rows => catalogOf rows

/-! ### What a row knows -/

namespace Row

/-- The source a row is about. -/
def source (row : Row) : Option String :=
  let name :=
    if row.list = "functionrename" then row.value "name"
    else if row.list = "functiondelete" then row.value "funcname"
    else none
  (name.map trimText).filter (· ≠ "")

/-- The label a row gives its source. -/
def label (row : Row) : Option String :=
  if row.list = "functionrename" then ((row.value "rename").map trimText).filter (· ≠ "") else none

/-- What a row says of the visibility of its source. -/
def visibility (row : Row) : SourceVisibility :=
  if row.list = "functiondelete" then
    match (row.value "use").map trimText with
    | some "0" => .hidden
    | some "1" => .shown
    | _ => .unknown
  else .unknown

end Row

/-- Two rows know different things. -/
def Row.Disagree (a b : Row) : Prop :=
  (∃ label label', a.label = some label ∧ b.label = some label' ∧ label ≠ label') ∨
    a.visibility ≠ .unknown ∧ b.visibility ≠ .unknown ∧ a.visibility ≠ b.visibility

/-- Two rows know different things of one source. -/
def Conflicted (rows : List Row) : Prop :=
  ∃ a ∈ rows, ∃ b ∈ rows, ∃ id, a.source = some id ∧ b.source = some id ∧ a.Disagree b

/-- Every source that is named has a valid id. -/
def ValidIds (rows : List Row) : Prop := ∀ row ∈ rows, ∀ id, row.source = some id → isPlainText id = true

/-! ### One row -/

/-- What an entry takes from a row. -/
def SourceEntry.learn (entry : SourceEntry) (row : Row) : SourceEntry :=
  { entry with
    displayName := entry.displayName.or row.label
    visibility := if row.visibility = .unknown then entry.visibility else row.visibility }

/-- An entry and a row know different things. -/
def SourceEntry.Clash (entry : SourceEntry) (row : Row) : Prop :=
  (∃ label label', entry.displayName = some label ∧ row.label = some label' ∧ label ≠ label') ∨
    entry.visibility ≠ .unknown ∧ row.visibility ≠ .unknown ∧ entry.visibility ≠ row.visibility

namespace SourceEntry
variable {entry : SourceEntry} {row : Row}

theorem learn_displayName (h : ¬ entry.Clash row) (label : String) :
    (entry.learn row).displayName = some label ↔ entry.displayName = some label ∨ row.label = some label := by
  have hsame : ∀ old new, entry.displayName = some old → row.label = some new → old = new := by
    intro old new hold hnew
    by_contra hne
    exact h (.inl ⟨old, new, hold, hnew, hne⟩)
  unfold learn
  cases hold : entry.displayName with
  | none => simp
  | some old =>
    cases hnew : row.label with
    | none => simp
    | some new =>
      have heq := hsame old new hold hnew
      simp [heq]

theorem learn_visibility (h : ¬ entry.Clash row) {visibility : SourceVisibility} (hknown : visibility ≠ .unknown) :
    (entry.learn row).visibility = visibility ↔ entry.visibility = visibility ∨ row.visibility = visibility := by
  have hsame : entry.visibility ≠ .unknown → row.visibility ≠ .unknown → entry.visibility = row.visibility := by
    intro hold hnew
    by_contra hne
    exact h (.inr ⟨hold, hnew, hne⟩)
  unfold learn
  by_cases hnew : row.visibility = .unknown
  · simp [hnew, Ne.symm hknown]
  · by_cases hold : entry.visibility = .unknown
    · simp [hnew, hold, Ne.symm hknown]
    · simp [hnew, hsame hold hnew]

/-- An entry is its id and what it knows. -/
theorem eq_of_knows {entry' : SourceEntry} (hid : entry.id.value = entry'.id.value)
    (hlabel : ∀ label, entry.displayName = some label ↔ entry'.displayName = some label)
    (hvisibility : ∀ visibility, visibility ≠ .unknown →
      (entry.visibility = visibility ↔ entry'.visibility = visibility)) : entry = entry' := by
  obtain ⟨⟨id, hvalid⟩, displayName, visibility⟩ := entry
  obtain ⟨⟨id', hvalid'⟩, displayName', visibility'⟩ := entry'
  have hname : displayName = displayName' := Option.ext hlabel
  have hsame : visibility = visibility' := by
    by_cases hknown : visibility = .unknown
    · by_contra hne
      rw [hknown] at hne
      exact hne ((hknown.symm.trans ((hvisibility visibility' (Ne.symm hne)).mpr rfl)))
    · exact ((hvisibility visibility hknown).mp rfl).symm
  simp only at hid
  subst hid hname hsame
  rfl

end SourceEntry

namespace Catalog
variable {c : Catalog} {rows : List Row} {row : Row} {name : String}

/-- The list of a row was there. -/
def saw (c : Catalog) (row : Row) : Catalog :=
  { c with
    sawRename := c.sawRename || row.list == "functionrename"
    sawDelete := c.sawDelete || row.list == "functiondelete" }

@[simp] theorem saw_entries : (c.saw row).entries = c.entries := rfl

theorem named_iff {text : Option String} :
    (text.map trimText).filter (· ≠ "") = some name ↔ ∃ raw, text = some raw ∧ trimText raw = name ∧ name ≠ "" := by
  cases text with
  | none => simp
  | some raw =>
    rw [Option.filter_eq_some_iff]
    simp

theorem unnamed_iff {text : Option String} :
    (text.map trimText).filter (· ≠ "") = none ↔ ∀ raw, text = some raw → trimText raw = "" := by
  cases text with
  | none => simp
  | some raw => simp

/-- A row without a source changes no entry. -/
theorem addRow_of_none (c : Catalog) (h : row.source = none) : c.addRow row = .ok (c.saw row) := by
  unfold Row.source at h
  unfold addRow saw
  by_cases hrename : row.list = "functionrename"
  · simp only [hrename, if_true] at h ⊢
    have hblank := unnamed_iff.mp h
    unfold addRename
    cases hname : row.value "name" with
    | none => simp
    | some raw => simp [hblank raw hname]
  · by_cases hdelete : row.list = "functiondelete"
    · simp only [hdelete, if_true] at h ⊢
      have hblank := unnamed_iff.mp h
      unfold addDelete
      cases hname : row.value "funcname" with
      | none => simp
      | some raw => simp [hblank raw hname]
    · have hrename' : (row.list == "functionrename") = false := beq_eq_false_iff_ne.mpr hrename
      have hdelete' : (row.list == "functiondelete") = false := beq_eq_false_iff_ne.mpr hdelete
      simp [hrename, hdelete, hrename', hdelete']

/-- A row with a source is merged into its entry, unless the two know different things. -/
theorem addRename_of_some {raw : String} (hrename : row.list = "functionrename") (hraw : row.value "name" = some raw)
    (htrim : trimText raw = name) (hne : name ≠ "") (hid : isPlainText name = true) :
    ((c.entryOr ⟨name, hid⟩).Clash row → c.addRename row = .error (.conflictingEntry name)) ∧
      (¬ (c.entryOr ⟨name, hid⟩).Clash row → c.addRename row
        = .ok { c.saw row with entries := c.entries.insert name ((c.entryOr ⟨name, hid⟩).learn row) }) := by
  have hvisibility : row.visibility = .unknown := if_neg (by simp [hrename])
  have hlabel : row.label = ((row.value "rename").map trimText).filter (· ≠ "") := if_pos hrename
  have hnew : SourceId.new name = .ok ⟨name, hid⟩ := dif_pos hid
  have hsaw : c.saw row = { c with sawRename := true } := by simp [saw, hrename]
  have hentry : entryOr { c with sawRename := true } ⟨name, hid⟩ = c.entryOr ⟨name, hid⟩ := rfl
  unfold addRename SourceEntry.Clash SourceEntry.learn
  simp only [hraw, htrim, hne, hnew, hsaw, hentry, hvisibility, ← hlabel, if_false, if_true]
  obtain ⟨id, old, visibility⟩ := c.entryOr ⟨name, hid⟩
  cases old with
  | none => cases row.label <;> simp
  | some old =>
    cases row.label with
    | none => simp
    | some label => by_cases hsame : old = label <;> simp [hsame]

theorem addDelete_of_some {raw : String} (hdelete : row.list = "functiondelete")
    (hraw : row.value "funcname" = some raw) (htrim : trimText raw = name) (hne : name ≠ "")
    (hid : isPlainText name = true) :
    ((c.entryOr ⟨name, hid⟩).Clash row → c.addDelete row = .error (.conflictingEntry name)) ∧
      (¬ (c.entryOr ⟨name, hid⟩).Clash row → c.addDelete row
        = .ok { c.saw row with entries := c.entries.insert name ((c.entryOr ⟨name, hid⟩).learn row) }) := by
  have hlabel : row.label = none := if_neg (by simp [hdelete])
  have hnew : SourceId.new name = .ok ⟨name, hid⟩ := dif_pos hid
  have hsaw : c.saw row = { c with sawDelete := true } := by simp [saw, hdelete]
  have hentry : entryOr { c with sawDelete := true } ⟨name, hid⟩ = c.entryOr ⟨name, hid⟩ := rfl
  have hvisibility : row.visibility = match (row.value "use").map trimText with
      | some "0" => .hidden
      | some "1" => .shown
      | _ => .unknown := if_pos hdelete
  unfold addDelete SourceEntry.Clash SourceEntry.learn
  simp only [hraw, htrim, hne, hnew, hsaw, hentry, hlabel, ← hvisibility, if_false]
  obtain ⟨id, label, old⟩ := c.entryOr ⟨name, hid⟩
  by_cases hnow : row.visibility = .unknown
  · simp [hnow]
  · by_cases hold : old = .unknown <;> by_cases hsame : old = row.visibility <;> simp [hnow, hold, hsame]

/-- A row with a source is merged into the entry, unless the two know different things. -/
theorem addRow_of_some (c : Catalog) (hsource : row.source = some name) (hid : isPlainText name = true) :
    ((c.entryOr ⟨name, hid⟩).Clash row → c.addRow row = .error (.conflictingEntry name)) ∧
      (¬ (c.entryOr ⟨name, hid⟩).Clash row → c.addRow row
        = .ok { c.saw row with entries := c.entries.insert name ((c.entryOr ⟨name, hid⟩).learn row) }) := by
  unfold Row.source at hsource
  unfold addRow
  by_cases hrename : row.list = "functionrename"
  · rw [if_pos hrename] at hsource ⊢
    obtain ⟨raw, hraw, htrim, hne⟩ := named_iff.mp hsource
    exact addRename_of_some hrename hraw htrim hne hid
  · rw [if_neg hrename] at hsource ⊢
    by_cases hdelete : row.list = "functiondelete"
    · rw [if_pos hdelete] at hsource ⊢
      obtain ⟨raw, hraw, htrim, hne⟩ := named_iff.mp hsource
      exact addDelete_of_some hdelete hraw htrim hne hid
    · rw [if_neg hdelete] at hsource
      cases hsource

end Catalog

/-! ### What the rows know -/

/-- The catalog knows what the rows know. -/
structure Describes (rows : List Row) (c : Catalog) : Prop where
  named : ∀ name, (c.entries.lookup name).isSome ↔ ∃ row ∈ rows, row.source = some name
  key : ∀ name entry, c.entries.lookup name = some entry → entry.id.value = name
  label : ∀ name label, (c.entries.lookup name).bind SourceEntry.displayName = some label
    ↔ ∃ row ∈ rows, row.source = some name ∧ row.label = some label
  visibility : ∀ name visibility, visibility ≠ .unknown →
    ((c.entries.lookup name).map SourceEntry.visibility = some visibility
      ↔ ∃ row ∈ rows, row.source = some name ∧ row.visibility = visibility)
  sawRename : c.sawRename = true ↔ ∃ row ∈ rows, row.list = "functionrename"
  sawDelete : c.sawDelete = true ↔ ∃ row ∈ rows, row.list = "functiondelete"

theorem exists_mem_concat {rows : List Row} {row : Row} {P : Row → Prop} :
    (∃ other ∈ rows ++ [row], P other) ↔ (∃ other ∈ rows, P other) ∨ P row := by
  simp only [List.mem_append, List.mem_singleton, or_and_right, exists_or, exists_eq_left]

namespace Describes
variable {c c' : Catalog} {rows : List Row} {row : Row} {name : String}

theorem nil : Describes [] {} where
  named := by simp
  key := by simp
  label := by simp
  visibility := by simp
  sawRename := by simp
  sawDelete := by simp

theorem saw (h : Describes rows c) :
    ((c.saw row).sawRename = true ↔ ∃ other ∈ rows ++ [row], other.list = "functionrename") ∧
      ((c.saw row).sawDelete = true ↔ ∃ other ∈ rows ++ [row], other.list = "functiondelete") := by
  simp only [Catalog.saw, Bool.or_eq_true, beq_iff_eq, exists_mem_concat, h.sawRename, h.sawDelete, and_self]

/-- A row without a source adds nothing to what the rows know. -/
theorem concat_of_none (h : Describes rows c) (hsource : row.source = none) :
    Describes (rows ++ [row]) (c.saw row) where
  named name := by simpa [exists_mem_concat, hsource] using h.named name
  key := h.key
  label name label := by simpa [exists_mem_concat, hsource] using h.label name label
  visibility name visibility hknown := by
    simpa [exists_mem_concat, hsource] using h.visibility name visibility hknown
  sawRename := h.saw.1
  sawDelete := h.saw.2

/-- What the entry of a source knows is what the rows know of it. -/
theorem entryOr_displayName (h : Describes rows c) (hid : isPlainText name = true) (label : String) :
    (c.entryOr ⟨name, hid⟩).displayName = some label
      ↔ ∃ row ∈ rows, row.source = some name ∧ row.label = some label := by
  rw [← h.label]
  unfold Catalog.entryOr
  cases c.entries.lookup name <;> simp

theorem entryOr_visibility (h : Describes rows c) (hid : isPlainText name = true) {visibility : SourceVisibility}
    (hknown : visibility ≠ .unknown) :
    (c.entryOr ⟨name, hid⟩).visibility = visibility
      ↔ ∃ row ∈ rows, row.source = some name ∧ row.visibility = visibility := by
  rw [← h.visibility name visibility hknown]
  unfold Catalog.entryOr
  cases c.entries.lookup name <;> simp [Ne.symm hknown]

/-- Rows that a catalog describes do not disagree: it has one label and one visibility for each source. -/
theorem not_conflicted (h : Describes rows c) : ¬ Conflicted rows := by
  rintro ⟨a, ha, b, hb, name, hsource, hsource', ⟨label, label', hlabel, hlabel', hne⟩ | ⟨hknown, hknown', hne⟩⟩
  · have hone := (h.label name label).mpr ⟨a, ha, hsource, hlabel⟩
    have htwo := (h.label name label').mpr ⟨b, hb, hsource', hlabel'⟩
    exact hne (Option.some.inj (hone.symm.trans htwo))
  · have hone := (h.visibility name _ hknown).mpr ⟨a, ha, hsource, rfl⟩
    have htwo := (h.visibility name _ hknown').mpr ⟨b, hb, hsource', rfl⟩
    exact hne (Option.some.inj (hone.symm.trans htwo))

/-- A row that clashes with its entry disagrees with a row before it. -/
theorem conflicted_concat (h : Describes rows c) (hsource : row.source = some name) (hid : isPlainText name = true)
    (hclash : (c.entryOr ⟨name, hid⟩).Clash row) : Conflicted (rows ++ [row]) := by
  have hlast : row ∈ rows ++ [row] := List.mem_append_right rows (List.mem_singleton_self row)
  rcases hclash with ⟨label, label', hold, hnew, hne⟩ | ⟨hold, hnew, hne⟩
  · obtain ⟨a, ha, hsame, hlabel⟩ := (h.entryOr_displayName hid label).mp hold
    exact ⟨a, List.mem_append_left [row] ha, row, hlast, name, hsame, hsource, .inl ⟨label, label', hlabel, hnew, hne⟩⟩
  · obtain ⟨a, ha, hsame, hvisibility⟩ := (h.entryOr_visibility hid hold).mp rfl
    rw [← hvisibility] at hold hne
    exact ⟨a, List.mem_append_left [row] ha, row, hlast, name, hsame, hsource, .inr ⟨hold, hnew, hne⟩⟩

/-- A row that does not clash with its entry adds what it knows. -/
theorem concat_of_some (h : Describes rows c) (hsource : row.source = some name) (hid : isPlainText name = true)
    (hclash : ¬ (c.entryOr ⟨name, hid⟩).Clash row) :
    Describes (rows ++ [row])
      { c.saw row with entries := c.entries.insert name ((c.entryOr ⟨name, hid⟩).learn row) } where
  named other := by
    rw [exists_mem_concat, ← h.named other, hsource]
    by_cases hother : other = name
    · rw [hother, Finmap.lookup_insert]
      simp
    · simp [Finmap.lookup_insert_of_ne _ hother, Ne.symm hother]
  key other entry hentry := by
    by_cases hother : other = name
    · rw [hother, Finmap.lookup_insert, Option.some.injEq] at hentry
      rw [← hentry, hother]
      unfold SourceEntry.learn Catalog.entryOr
      cases hlookup : c.entries.lookup name with
      | none => rfl
      | some old => exact h.key name old hlookup
    · rw [Finmap.lookup_insert_of_ne _ hother] at hentry
      exact h.key other entry hentry
  label other label := by
    rw [exists_mem_concat, hsource]
    by_cases hother : other = name
    · rw [hother, Finmap.lookup_insert, Option.bind_some, SourceEntry.learn_displayName hclash,
        h.entryOr_displayName hid]
      simp
    · rw [Finmap.lookup_insert_of_ne _ hother, h.label]
      simp [Ne.symm hother]
  visibility other visibility hknown := by
    rw [exists_mem_concat, hsource]
    by_cases hother : other = name
    · rw [hother, Finmap.lookup_insert, Option.map_some, Option.some.injEq,
        SourceEntry.learn_visibility hclash hknown, h.entryOr_visibility hid hknown]
      simp
    · rw [Finmap.lookup_insert_of_ne _ hother, h.visibility other visibility hknown]
      simp [Ne.symm hother]
  sawRename := h.saw.1
  sawDelete := h.saw.2

/-- Only one catalog knows what the rows know. -/
theorem unique {c' : Catalog} (h : Describes rows c) (h' : Describes rows c') : c = c' := by
  have hentries : c.entries = c'.entries := by
    refine Finmap.ext_lookup fun name => ?_
    have hnamed : (c.entries.lookup name).isSome ↔ (c'.entries.lookup name).isSome :=
      (h.named name).trans (h'.named name).symm
    have hlabel := fun label => (h.label name label).trans (h'.label name label).symm
    have hvisibility := fun visibility hknown =>
      (h.visibility name visibility hknown).trans (h'.visibility name visibility hknown).symm
    cases hlookup : c.entries.lookup name with
    | none =>
      have hmissing : ¬ (c'.entries.lookup name).isSome := by
        rw [← hnamed, hlookup]
        exact Bool.false_ne_true
      exact (Option.not_isSome_iff_eq_none.mp hmissing).symm
    | some entry =>
      obtain ⟨entry', hlookup'⟩ := Option.isSome_iff_exists.mp (hnamed.mp (by rw [hlookup]; rfl))
      rw [hlookup'] at hlabel hvisibility ⊢
      rw [hlookup] at hlabel hvisibility
      simp only [Option.bind_some, Option.map_some, Option.some.injEq] at hlabel hvisibility
      have hid := (h.key name entry hlookup).trans (h'.key name entry' hlookup').symm
      exact congrArg some (SourceEntry.eq_of_knows hid hlabel hvisibility)
  have hrename : c.sawRename = c'.sawRename := Bool.eq_iff_iff.mpr (h.sawRename.trans h'.sawRename.symm)
  have hdelete : c.sawDelete = c'.sawDelete := Bool.eq_iff_iff.mpr (h.sawDelete.trans h'.sawDelete.symm)
  obtain ⟨entries, sawRename, sawDelete⟩ := c
  simp only at hentries hrename hdelete
  rw [hentries, hrename, hdelete]

/-- What the rows know does not depend on their order. -/
theorem perm {rows' : List Row} (h : Describes rows c) (hperm : rows.Perm rows') : Describes rows' c where
  named name := by simpa only [hperm.mem_iff] using h.named name
  key := h.key
  label name label := by simpa only [hperm.mem_iff] using h.label name label
  visibility name visibility hknown := by simpa only [hperm.mem_iff] using h.visibility name visibility hknown
  sawRename := by simpa only [hperm.mem_iff] using h.sawRename
  sawDelete := by simpa only [hperm.mem_iff] using h.sawDelete

/-- A row is merged, or disagrees with one before it. -/
theorem addRow (h : Describes rows c) (hvalid : ∀ name, row.source = some name → isPlainText name = true) :
    (∃ c', c.addRow row = .ok c' ∧ Describes (rows ++ [row]) c') ∨
      (∃ id, c.addRow row = .error (.conflictingEntry id)) ∧ Conflicted (rows ++ [row]) := by
  cases hsource : row.source with
  | none => exact .inl ⟨c.saw row, c.addRow_of_none hsource, h.concat_of_none hsource⟩
  | some name =>
    have hid := hvalid name hsource
    obtain ⟨herror, hmerged⟩ := c.addRow_of_some hsource hid
    by_cases hclash : (c.entryOr ⟨name, hid⟩).Clash row
    · exact .inr ⟨⟨name, herror hclash⟩, h.conflicted_concat hsource hid hclash⟩
    · exact .inl ⟨_, hmerged hclash, h.concat_of_some hsource hid hclash⟩

end Describes

theorem Conflicted.concat {rows : List Row} (h : Conflicted rows) (row : Row) : Conflicted (rows ++ [row]) := by
  obtain ⟨a, ha, b, hb, hdisagree⟩ := h
  exact ⟨a, List.mem_append_left [row] ha, b, List.mem_append_left [row] hb, hdisagree⟩

theorem Conflicted.perm {rows rows' : List Row} (h : Conflicted rows) (hperm : rows.Perm rows') :
    Conflicted rows' := by
  obtain ⟨a, ha, b, hb, hdisagree⟩ := h
  exact ⟨a, hperm.subset ha, b, hperm.subset hb, hdisagree⟩

/-- The rows are merged into a catalog that describes them, or two of them disagree. -/
theorem foldlM_addRow {rows : List Row} (hvalid : ValidIds rows) :
    (∃ c, rows.foldlM Catalog.addRow {} = .ok c ∧ Describes rows c) ∨
      (∃ id, rows.foldlM Catalog.addRow {} = .error (.conflictingEntry id)) ∧ Conflicted rows := by
  induction rows using List.reverseRecOn with
  | nil => exact .inl ⟨{}, rfl, .nil⟩
  | append_singleton rows row ih =>
    have hbefore : ValidIds rows := fun other hother => hvalid other (List.mem_append_left [row] hother)
    have hlast := hvalid row (List.mem_append_right rows (List.mem_singleton_self row))
    rw [List.foldlM_append]
    rcases ih hbefore with ⟨c, hc, hdescribes⟩ | ⟨⟨id, herror⟩, hconflict⟩
    · have hone : List.foldlM Catalog.addRow c [row] = c.addRow row := by
        rw [List.foldlM_cons]
        exact bind_pure _
      rw [hc]
      change (∃ c', List.foldlM Catalog.addRow c [row] = .ok c' ∧ _) ∨
        (∃ id, List.foldlM Catalog.addRow c [row] = .error (.conflictingEntry id)) ∧ _
      rw [hone]
      exact hdescribes.addRow hlast
    · rw [herror]
      exact .inr ⟨⟨id, rfl⟩, hconflict.concat row⟩

/-! ### The entries -/

/-- Of entries under different keys, one has a given key. -/
theorem filter_filterMap_eq_singleton {names : List String} {lookup : String → Option SourceEntry} {name : String}
    {entry : SourceEntry} (hnodup : names.Nodup) (hmem : name ∈ names) (hentry : lookup name = some entry)
    (hkey : ∀ name entry, lookup name = some entry → entry.id.value = name) :
    (names.filterMap lookup).filter (·.id.value = name) = [entry] := by
  have hother : ∀ names : List String, name ∉ names → (names.filterMap lookup).filter (·.id.value = name) = [] := by
    intro names hname
    refine List.filter_eq_nil_iff.mpr fun other hmem => ?_
    obtain ⟨key, hkeys, hlookup⟩ := List.mem_filterMap.mp hmem
    have hid := hkey key other hlookup
    rw [decide_eq_true_iff, hid]
    rintro rfl
    exact hname hkeys
  obtain ⟨before, after, rfl⟩ := List.append_of_mem hmem
  obtain ⟨-, hafter, hdisjoint⟩ := List.nodup_append.mp hnodup
  have hbefore : name ∉ before := fun h => hdisjoint name h name List.mem_cons_self rfl
  rw [List.filterMap_append, List.filterMap_cons_some hentry, List.filter_append, List.filter_cons,
    hother before hbefore, hother after (List.nodup_cons.mp hafter).1]
  simp [hkey name entry hentry]

theorem Describes.filter_values {rows : List Row} {c : Catalog} {name : String} {entry : SourceEntry}
    (h : Describes rows c) (hentry : c.entries.lookup name = some entry) :
    c.values.filter (·.id.value = name) = [entry] := by
  have hmem : name ∈ c.entries.keys :=
    Finmap.mem_keys.mpr (Finmap.lookup_isSome.mp (by rw [hentry]; rfl))
  exact filter_filterMap_eq_singleton (Finset.sort_nodup _ _) ((Finset.mem_sort _).mpr hmem) hentry h.key

theorem catalogOf_cases {rows : List Row} (hvalid : ValidIds rows) :
    (∃ c, catalogOf rows = .ok { entries := c.values, evidence := c.evidence } ∧ Describes rows c) ∨
      (∃ id, catalogOf rows = .error (.conflictingEntry id)) ∧ Conflicted rows := by
  unfold catalogOf
  rcases foldlM_addRow hvalid with ⟨c, hc, hdescribes⟩ | ⟨⟨id, herror⟩, hconflict⟩
  · rw [hc]
    exact .inl ⟨c, rfl, hdescribes⟩
  · rw [herror]
    exact .inr ⟨⟨id, rfl⟩, hconflict⟩

theorem catalogOf_eq_error_iff {rows : List Row} (hvalid : ValidIds rows) :
    (∃ error, catalogOf rows = .error error) ↔ Conflicted rows := by
  rcases catalogOf_cases hvalid with ⟨c, hc, hdescribes⟩ | ⟨⟨id, herror⟩, hconflict⟩
  · rw [hc]
    exact iff_of_false (by simp) hdescribes.not_conflicted
  · exact iff_of_true ⟨_, herror⟩ hconflict

theorem toOption_catalogOf_perm {rows rows' : List Row} (hvalid : ValidIds rows) (hperm : rows.Perm rows') :
    (catalogOf rows').toOption = (catalogOf rows).toOption := by
  have hvalid' : ValidIds rows' := fun row hrow => hvalid row (hperm.symm.subset hrow)
  rcases catalogOf_cases hvalid with ⟨c, hc, hdescribes⟩ | ⟨⟨id, herror⟩, hconflict⟩ <;>
    rcases catalogOf_cases hvalid' with ⟨c', hc', hdescribes'⟩ | ⟨⟨id', herror'⟩, hconflict'⟩
  · rw [hc, hc', (hdescribes.perm hperm).unique hdescribes']
  · exact absurd (hconflict'.perm hperm.symm) hdescribes.not_conflicted
  · exact absurd (hconflict.perm hperm) hdescribes'.not_conflicted
  · rw [herror, herror']
    rfl

/-- The rows make one catalog in any order, unless two know different things of a source: it has an entry for each source
they name, with what they know, and hides none that they do not. -/
theorem catalog_merge (rows : List Row) (hvalid : ValidIds rows) :
    (∀ rows', rows.Perm rows' → (catalogOf rows').toOption = (catalogOf rows).toOption) ∧
      ((∃ error, catalogOf rows = .error error) ↔ Conflicted rows) ∧
      (∀ error, catalogOf rows = .error error → ∃ id, error = .conflictingEntry id) ∧
      ∀ catalog, catalogOf rows = .ok catalog →
        (∀ name, (∃ row ∈ rows, row.source = some name) →
          ∃ entry, catalog.entries.filter (·.id.value = name) = [entry] ∧
            (∀ label, entry.displayName = some label ↔
              ∃ row ∈ rows, row.source = some name ∧ row.label = some label) ∧
            ∀ visibility, visibility ≠ .unknown → (entry.visibility = visibility ↔
              ∃ row ∈ rows, row.source = some name ∧ row.visibility = visibility)) ∧
        ∀ entry ∈ catalog.entries, entry.visibility = .hidden →
          ∃ row ∈ rows, row.source = some entry.id.value ∧ row.visibility = .hidden := by
  refine ⟨fun rows' hperm => toOption_catalogOf_perm hvalid hperm, catalogOf_eq_error_iff hvalid, ?_, ?_⟩
  · intro error hcatalog
    rcases catalogOf_cases hvalid with ⟨c, hc, -⟩ | ⟨⟨id, herror⟩, -⟩
    · rw [hc] at hcatalog
      cases hcatalog
    · exact ⟨id, Except.error.inj (hcatalog.symm.trans herror)⟩
  · intro catalog hcatalog
    rcases catalogOf_cases hvalid with ⟨c, hc, h⟩ | ⟨⟨id, herror⟩, -⟩
    · obtain rfl := Except.ok.inj (hc.symm.trans hcatalog)
      refine ⟨fun name hnamed => ?_, fun entry hentry hhidden => ?_⟩
      · obtain ⟨entry, hentry⟩ := Option.isSome_iff_exists.mp ((h.named name).mpr hnamed)
        refine ⟨entry, h.filter_values hentry, fun label => ?_, fun visibility hknown => ?_⟩
        · rw [← h.label, hentry, Option.bind_some]
        · rw [← h.visibility name visibility hknown, hentry, Option.map_some, Option.some.injEq]
      · obtain ⟨name, -, hlookup⟩ := List.mem_filterMap.mp hentry
        rw [h.key name entry hlookup]
        refine (h.visibility name .hidden (by simp)).mp ?_
        rw [hlookup, Option.map_some, hhidden]
    · rw [herror] at hcatalog
      cases hcatalog

section Reply
variable {read : XmlReader} {unescape : String → Except String String} {xml xml' : String} {rows rows' : List Row}

theorem parseSourceCatalogResponse_of_rows (hrows : xmlRows unescape (read xml) = .ok rows) :
    parseSourceCatalogResponse read unescape xml = catalogOf rows := by
  rw [parseSourceCatalogResponse, hrows]

/-- A reply that can be read is refused just when its rows are in conflict. -/
theorem parseSourceCatalogResponse_eq_error_iff (hrows : xmlRows unescape (read xml) = .ok rows) (hvalid : ValidIds rows) :
    (∃ error, parseSourceCatalogResponse read unescape xml = .error error) ↔ Conflicted rows := by
  rw [parseSourceCatalogResponse_of_rows hrows]
  exact catalogOf_eq_error_iff hvalid

/-- Two replies with the same rows, in whatever order, give the same catalog. -/
theorem toOption_parseSourceCatalogResponse (hrows : xmlRows unescape (read xml) = .ok rows)
    (hrows' : xmlRows unescape (read xml') = .ok rows') (hperm : rows.Perm rows') (hvalid : ValidIds rows) :
    (parseSourceCatalogResponse read unescape xml').toOption = (parseSourceCatalogResponse read unescape xml).toOption := by
  rw [parseSourceCatalogResponse_of_rows hrows, parseSourceCatalogResponse_of_rows hrows']
  exact toOption_catalogOf_perm hvalid hperm

end Reply

/-- A source is hidden by one row and shown by another, with a row between them that says neither. -/
def gameRows : List Row :=
  [{ list := "functiondelete", values := [("funcname", "GAME"), ("use", "0")] },
    { list := "functionrename", values := [("name", " GAME "), ("rename", "")] },
    { list := "functiondelete", values := [("funcname", "GAME"), ("use", "1")] }]

theorem catalog_merge_game :
    Conflicted gameRows ∧ ∀ rows', gameRows.Perm rows' → (catalogOf rows').toOption = none := by
  have hall : ∀ row ∈ gameRows, row.source.all isPlainText = true := by decide
  have hvalid : ValidIds gameRows := fun row hrow name hname => by simpa [hname] using hall row hrow
  have herror : catalogOf gameRows = .error (.conflictingEntry "GAME") := by rfl
  obtain ⟨hperm, hconflict, -⟩ := catalog_merge gameRows hvalid
  refine ⟨hconflict.mp ⟨_, herror⟩, fun rows' hrows => ?_⟩
  rw [hperm rows' hrows, herror]
  rfl

end DenonAvr.Protocol
