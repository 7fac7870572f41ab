import Mathlib.Tactic
import Mathlib.Data.List.Sort
import Mathlib.Data.String.Basic

/-!
# JSON

Values, and what a program relies on of a library that writes them as text and reads them back (`JsonText`): that it
reads what it wrote of the values that the program writes, each on one line, and reads no text of a map that was cut
short.

`canonical` is such a library. It writes values without blanks, with numbers in decimal and control characters
escaped, and reads exactly the texts that it writes (`canonical_lawful`).
-/

namespace DenonAvr.Library

inductive Json
  | null
  | bool (value : Bool)
  | number (value : ℤ)
  | string (value : String)
  | array (items : List Json)
  /-- A map. Its keys are in order. -/
  | object (fields : List (String × Json))

namespace Json

/-! ### Values -/

def get (fields : List (String × Json)) (key : String) : Option Json := fields.lookup key

/-- `as_u64`. -/
def asNat : Json → Option ℕ
  | number value => if 0 ≤ value then some value.toNat else none
  | _ => none

/-- `as_i64`. -/
def asInt : Json → Option ℤ
  | number value => some value
  | _ => none

def asStr : Json → Option String
  | string value => some value
  | _ => none

def asBool : Json → Option Bool
  | bool value => some value
  | _ => none

def asArray : Json → Option (List Json)
  | array items => some items
  | _ => none

def asObject : Json → Option (List (String × Json))
  | object fields => some fields
  | _ => none

@[simp] theorem asNat_number (n : ℕ) : asNat (number n) = some n := by simp [asNat]
@[simp] theorem asInt_number (n : ℤ) : asInt (number n) = some n := rfl
@[simp] theorem asStr_string (text : String) : asStr (string text) = some text := rfl
@[simp] theorem asBool_bool (value : Bool) : asBool (bool value) = some value := rfl
@[simp] theorem asArray_array (items : List Json) : asArray (array items) = some items := rfl
@[simp] theorem asObject_object (fields : List (String × Json)) : asObject (object fields) = some fields := rfl

/-- Values of what may be missing. -/
def orNull {α : Type*} (value : α → Json) : Option α → Json
  | some a => value a
  | none => null

/-- The map that has these fields. -/
def ofFields (fields : List (String × Json)) : List (String × Json) :=
  fields.mergeSort fun field other => decide (field.1 ≤ other.1)

theorem lookup_of_perm {fields fields' : List (String × Json)} (hperm : fields.Perm fields')
    (hnodup : (fields.map Prod.fst).Nodup) (key : String) : fields.lookup key = fields'.lookup key := by
  induction hperm with
  | nil => rfl
  | cons field _ ih =>
    rw [List.lookup_cons, List.lookup_cons, ih (List.nodup_cons.mp hnodup).2]
  | swap field other rest =>
    obtain ⟨k, v⟩ := field
    obtain ⟨k', v'⟩ := other
    simp only [List.map_cons, List.nodup_cons, List.mem_cons, not_or] at hnodup
    rw [List.lookup_cons, List.lookup_cons, List.lookup_cons, List.lookup_cons]
    by_cases hkey : key = k
    · have hother : key ≠ k' := fun heq => hnodup.1.1 (heq.symm.trans hkey)
      rw [beq_false_of_ne hother]
    · rw [beq_false_of_ne hkey]
  | trans hfirst _ ih ih' => exact (ih hnodup).trans (ih' ((hfirst.map Prod.fst).nodup_iff.mp hnodup))

/-- A map says what its fields say. -/
theorem get_ofFields {fields : List (String × Json)} (hnodup : (fields.map Prod.fst).Nodup) (key : String) :
    get (ofFields fields) key = fields.lookup key := by
  have hperm := List.mergeSort_perm fields fun field other => decide (field.1 ≤ other.1)
  exact lookup_of_perm hperm ((hperm.map Prod.fst).nodup_iff.mpr hnodup) key

end Json

/-! ### Text -/

/-- A library that writes values as text and reads them. -/
structure JsonText where
  write : Json → List Char
  read : List Char → Option Json

def isJsonBlank (c : Char) : Bool := c = ' ' || c = '\n' || c = '\t' || c = '\r'

/-- What a program relies on that writes the maps of `Written`. Of other values it does not matter whether they are read
back. -/
structure JsonText.Lawful (json : JsonText) (Written : List (String × Json) → Prop) : Prop where
  read_write : ∀ fields, Written fields → json.read (json.write (.object fields)) = some (.object fields)
  /-- A map is written on one line. -/
  newline : ∀ fields, Written fields → '\n' ∉ json.write (.object fields)
  write_object : ∀ fields, Written fields → ∃ body, json.write (.object fields) = '{' :: body ++ ['}']
  /-- A map that is cut short is not read. -/
  read_cut : ∀ fields text, Written fields → text <+: json.write (.object fields) →
    text ≠ json.write (.object fields) → json.read text = none
  /-- What is read as an object is closed, up to blanks. -/
  read_object : ∀ text fields, json.read text = some (.object fields) →
    ∃ body blanks, text = body ++ '}' :: blanks ∧ ∀ c ∈ blanks, isJsonBlank c = true

/-! ### A library that does so -/

namespace Json

def digitChar (d : ℕ) : Char := Char.ofNat (d + 48)

def digitValue (c : Char) : ℕ := c.toNat - 48

/-- Decimal digits. -/
def natText (n : ℕ) : List Char := if n = 0 then ['0'] else (Nat.digits 10 n).reverse.map digitChar

def intText (n : ℤ) : List Char := if n < 0 then '-' :: natText n.natAbs else natText n.natAbs

def hexChar (d : ℕ) : Char := if d < 10 then Char.ofNat (d + 48) else Char.ofNat (d + 87)

def hexValue (c : Char) : ℕ := if c.toNat < 97 then c.toNat - 48 else c.toNat - 87

def escaped (c : Char) : List Char :=
  if c = '"' ∨ c = '\\' then ['\\', c]
  else if c.toNat < 0x20 then ['\\', 'u', '0', '0', hexChar (c.toNat / 16), hexChar (c.toNat % 16)]
  else [c]

def quoted (text : String) : List Char := '"' :: text.toList.flatMap escaped ++ ['"']

/-- What stands before an item. -/
def separator (first : Bool) : List Char := if first then [] else [',']

mutual
def render : Json → List Char
  | .null => ['n', 'u', 'l', 'l']
  | .bool true => ['t', 'r', 'u', 'e']
  | .bool false => ['f', 'a', 'l', 's', 'e']
  | .number n => intText n
  | .string text => quoted text
  | .array items => '[' :: renderItems true items
  | .object fields => '{' :: renderFields true fields

def renderItems (first : Bool) : List Json → List Char
  | [] => [']']
  | item :: items => separator first ++ (render item ++ renderItems false items)

def renderFields (first : Bool) : List (String × Json) → List Char
  | [] => ['}']
  | (key, value) :: fields =>
    separator first ++ (quoted key ++ ':' :: (render value ++ renderFields false fields))
end

/-- The rest of a quoted text. -/
def readQuoted : List Char → Option (List Char × List Char)
  | '"' :: rest => some ([], rest)
  | '\\' :: 'u' :: '0' :: '0' :: high :: low :: rest =>
    (readQuoted rest).map fun (text, rest) => (Char.ofNat (hexValue high * 16 + hexValue low) :: text, rest)
  | '\\' :: c :: rest => (readQuoted rest).map fun (text, rest) => (c :: text, rest)
  | c :: rest => (readQuoted rest).map fun (text, rest) => (c :: text, rest)
  | [] => none

def readNat (text : List Char) : Option (ℕ × List Char) :=
  let digits := text.takeWhile Char.isDigit
  if digits = [] then none
  else some (Nat.ofDigits 10 (digits.map digitValue).reverse, text.dropWhile Char.isDigit)

def readInt : List Char → Option (ℤ × List Char)
  | '-' :: text => (readNat text).map fun (n, rest) => (-(n : ℤ), rest)
  | text => (readNat text).map fun (n, rest) => ((n : ℤ), rest)

/-- Drop what stands before an item. -/
def skipSeparator : Bool → List Char → Option (List Char)
  | true, text => some text
  | false, ',' :: text => some text
  | false, _ => none

mutual
def readValue : ℕ → List Char → Option (Json × List Char)
  | 0, _ => none
  | fuel + 1, text =>
    match text with
    | 'n' :: 'u' :: 'l' :: 'l' :: rest => some (.null, rest)
    | 't' :: 'r' :: 'u' :: 'e' :: rest => some (.bool true, rest)
    | 'f' :: 'a' :: 'l' :: 's' :: 'e' :: rest => some (.bool false, rest)
    | '"' :: rest => (readQuoted rest).map fun (text, rest) => (.string (String.ofList text), rest)
    | '[' :: rest => (readItems fuel true rest).map fun (items, rest) => (.array items, rest)
    | '{' :: rest => (readFields fuel true rest).map fun (fields, rest) => (.object fields, rest)
    | text => (readInt text).map fun (n, rest) => (.number n, rest)

def readItems : ℕ → Bool → List Char → Option (List Json × List Char)
  | 0, _, _ => none
  | fuel + 1, first, text =>
    match text with
    | ']' :: rest => some ([], rest)
    | text => do
      let text ← skipSeparator first text
      let (item, text) ← readValue fuel text
      let (items, text) ← readItems fuel false text
      return (item :: items, text)

def readFields : ℕ → Bool → List Char → Option (List (String × Json) × List Char)
  | 0, _, _ => none
  | fuel + 1, first, text =>
    match text with
    | '}' :: rest => some ([], rest)
    | text => do
      let text ← skipSeparator first text
      match text with
      | '"' :: text =>
        let (key, text) ← readQuoted text
        match text with
        | ':' :: text =>
          let (value, text) ← readValue fuel text
          let (fields, text) ← readFields fuel false text
          return ((String.ofList key, value) :: fields, text)
        | _ => none
      | _ => none
end

/-! #### What was written is read back -/

section Read
variable {rest : List Char}

theorem digitValue_digitChar {d : ℕ} (h : d < 10) : digitValue (digitChar d) = d := by
  have hall : ∀ d < 10, digitValue (digitChar d) = d := by decide
  exact hall d h

theorem isDigit_digitChar {d : ℕ} (h : d < 10) : (digitChar d).isDigit = true := by
  have hall : ∀ d < 10, (digitChar d).isDigit = true := by decide
  exact hall d h

theorem natText_isDigit (n : ℕ) : ∀ c ∈ natText n, c.isDigit = true := by
  unfold natText
  split_ifs
  · intro c hc
    rw [List.mem_singleton.mp hc]
    decide
  · intro c hc
    obtain ⟨d, hd, rfl⟩ := List.mem_map.mp hc
    exact isDigit_digitChar (Nat.digits_lt_base (by norm_num) (List.mem_reverse.mp hd))

theorem natText_ne_nil (n : ℕ) : natText n ≠ [] := by
  unfold natText
  split_ifs with h
  · simp
  · simp [Nat.digits_ne_nil_iff_ne_zero.mpr h]

theorem ofDigits_natText (n : ℕ) : Nat.ofDigits 10 ((natText n).map digitValue).reverse = n := by
  unfold natText
  split_ifs with h
  · rw [h]
    decide
  · have hmap : ((Nat.digits 10 n).reverse.map digitChar).map digitValue = (Nat.digits 10 n).reverse := by
      rw [List.map_map]
      refine (List.map_congr_left fun d hd => ?_).trans (List.map_id _)
      exact digitValue_digitChar (Nat.digits_lt_base (by norm_num) (List.mem_reverse.mp hd))
    rw [hmap, List.reverse_reverse, Nat.ofDigits_digits]

/-- The text goes on with something other than a digit. -/
def EndsNumber (rest : List Char) : Prop := ∀ c ∈ rest.head?, c.isDigit = false

theorem readNat_natText (n : ℕ) (hrest : EndsNumber rest) : readNat (natText n ++ rest) = some (n, rest) := by
  have hall := natText_isDigit n
  have htake : rest.takeWhile Char.isDigit = [] ∧ rest.dropWhile Char.isDigit = rest := by
    cases rest with
    | nil => exact ⟨rfl, rfl⟩
    | cons c rest =>
      have hc := hrest c rfl
      simp [hc]
  unfold readNat
  rw [List.takeWhile_append_of_pos hall, List.dropWhile_append_of_pos hall, htake.1, htake.2, List.append_nil,
    if_neg (natText_ne_nil n), ofDigits_natText]

theorem natText_head (n : ℕ) : ∃ c text, natText n = c :: text ∧ c.isDigit = true := by
  obtain ⟨c, text, h⟩ := List.exists_cons_of_ne_nil (natText_ne_nil n)
  exact ⟨c, text, h, natText_isDigit n c (by rw [h]; simp)⟩

theorem readInt_intText (n : ℤ) (hrest : EndsNumber rest) : readInt (intText n ++ rest) = some (n, rest) := by
  unfold intText
  split_ifs with h
  · simp only [List.cons_append, readInt, readNat_natText _ hrest, Option.map_some]
    congr 2
    omega
  · obtain ⟨c, text, htext, hc⟩ := natText_head n.natAbs
    have hread := readNat_natText n.natAbs hrest
    rw [htext, List.cons_append] at hread ⊢
    unfold readInt
    split
    · rename_i heq
      obtain ⟨rfl, -⟩ := List.cons.inj heq
      cases hc
    · rw [hread]
      show some ((n.natAbs : ℤ), rest) = some (n, rest)
      rw [Int.natAbs_of_nonneg (not_lt.mp h)]

theorem readQuoted_escaped (c : Char) (rest : List Char) :
    readQuoted (escaped c ++ rest) = (readQuoted rest).map fun (text, rest) => (c :: text, rest) := by
  have hhex : ∀ n < 32, hexValue (hexChar (n / 16)) * 16 + hexValue (hexChar (n % 16)) = n := by decide
  unfold escaped
  split_ifs with hspecial hcontrol
  · obtain rfl | rfl := hspecial <;> rfl
  · have hc : Char.ofNat (hexValue (hexChar (c.toNat / 16)) * 16 + hexValue (hexChar (c.toNat % 16))) = c := by
      rw [hhex _ hcontrol, Char.ofNat_toNat]
    show (readQuoted rest).map _ = _
    rw [hc]
  · obtain ⟨hquote, hslash⟩ := not_or.mp hspecial
    rw [List.singleton_append, readQuoted]
    · exact hquote
    · intro _ _ _ heq _
      exact hslash heq
    · intro _ _ heq _
      exact hslash heq

theorem readQuoted_flatMap (text : List Char) (rest : List Char) :
    readQuoted (text.flatMap escaped ++ '"' :: rest) = some (text, rest) := by
  induction text with
  | nil => rfl
  | cons c text ih => rw [List.flatMap_cons, List.append_assoc, readQuoted_escaped, ih, Option.map_some]

theorem readQuoted_quoted (text : String) (rest : List Char) :
    readQuoted (text.toList.flatMap escaped ++ '"' :: rest) = some (text.toList, rest) :=
  readQuoted_flatMap text.toList rest

theorem quoted_append (text : String) (rest : List Char) :
    quoted text ++ rest = '"' :: (text.toList.flatMap escaped ++ '"' :: rest) := by simp [quoted]

theorem intText_head (n : ℤ) : ∃ c text, intText n = c :: text ∧ (c.isDigit = true ∨ c = '-') := by
  unfold intText
  split_ifs
  · exact ⟨_, _, rfl, .inr rfl⟩
  · obtain ⟨c, text, h, hc⟩ := natText_head n.natAbs
    exact ⟨c, text, h, .inl hc⟩

/-- No value starts as an array or an object ends. -/
theorem render_head (value : Json) : ∃ c text, render value = c :: text ∧ c ≠ ']' := by
  cases value with
  | null => exact ⟨_, _, rfl, by decide⟩
  | bool value => cases value <;> exact ⟨_, _, rfl, by decide⟩
  | number n =>
    obtain ⟨c, text, h, hc⟩ := intText_head n
    refine ⟨c, text, h, ?_⟩
    rintro rfl
    exact absurd hc (by decide)
  | string text => exact ⟨_, _, rfl, by decide⟩
  | array items => exact ⟨_, _, rfl, by decide⟩
  | object fields => exact ⟨_, _, rfl, by decide⟩

theorem length_render_pos (value : Json) : 0 < (render value).length := by
  obtain ⟨c, text, h, -⟩ := render_head value
  simp [h]

theorem length_renderItems_pos (first : Bool) (items : List Json) : 0 < (renderItems first items).length := by
  cases items with
  | nil => simp [renderItems]
  | cons item items =>
    have := length_render_pos item
    simp only [renderItems, List.length_append]
    omega

theorem length_renderFields_pos (first : Bool) (fields : List (String × Json)) :
    0 < (renderFields first fields).length := by
  cases fields with
  | nil => simp [renderFields]
  | cons field fields =>
    obtain ⟨key, value⟩ := field
    have := length_render_pos value
    simp only [renderFields, List.length_append, List.length_cons]
    omega

theorem endsNumber_renderItems (items : List Json) (rest : List Char) :
    EndsNumber (renderItems false items ++ rest) := by
  cases items <;> simp [EndsNumber, renderItems, separator]

theorem endsNumber_renderFields (fields : List (String × Json)) (rest : List Char) :
    EndsNumber (renderFields false fields ++ rest) := by
  cases fields <;> simp [EndsNumber, renderFields, separator]

theorem readValue_number (fuel : ℕ) (n : ℤ) (hrest : EndsNumber rest) :
    readValue (fuel + 1) (intText n ++ rest) = some (.number n, rest) := by
  have hread := readInt_intText n hrest
  obtain ⟨c, text, htext, hc⟩ := intText_head n
  rw [htext, List.cons_append] at hread ⊢
  have hne : c ≠ 'n' ∧ c ≠ 't' ∧ c ≠ 'f' ∧ c ≠ '"' ∧ c ≠ '[' ∧ c ≠ '{' := by
    refine ⟨?_, ?_, ?_, ?_, ?_, ?_⟩ <;> (rintro rfl; exact absurd hc (by decide))
  obtain ⟨hn, ht, hf, hq, ha, ho⟩ := hne
  unfold readValue
  split <;> rename_i heq
  · exact absurd (List.cons.inj heq).1 hn
  · exact absurd (List.cons.inj heq).1 ht
  · exact absurd (List.cons.inj heq).1 hf
  · exact absurd (List.cons.inj heq).1 hq
  · exact absurd (List.cons.inj heq).1 ha
  · exact absurd (List.cons.inj heq).1 ho
  · rw [hread, Option.map_some]

/-- An item is reached behind its separator. -/
theorem readItems_cons (fuel : ℕ) (first : Bool) (item : Json) (rest : List Char) :
    readItems (fuel + 1) first (separator first ++ (render item ++ rest)) = (do
      let (item, text) ← readValue fuel (render item ++ rest)
      let (items, text) ← readItems fuel false text
      return (item :: items, text)) := by
  obtain ⟨c, text, htext, hc⟩ := render_head item
  cases first with
  | false => rfl
  | true =>
    rw [htext]
    show readItems (fuel + 1) true (c :: (text ++ rest)) = _
    rw [readItems]
    · rfl
    · intro _ heq
      exact hc (List.cons.inj heq).1

theorem readFields_cons (fuel : ℕ) (first : Bool) (key : String) (rest : List Char) :
    readFields (fuel + 1) first (separator first ++ (quoted key ++ ':' :: rest)) = (do
      let (value, text) ← readValue fuel rest
      let (fields, text) ← readFields fuel false text
      return ((key, value) :: fields, text)) := by
  have hkey := readQuoted_quoted key (':' :: rest)
  rw [quoted_append]
  cases first <;>
  · show (do
      let (key, text) ← readQuoted (key.toList.flatMap escaped ++ '"' :: ':' :: rest)
      match text with
      | ':' :: text =>
        let (value, text) ← readValue fuel text
        let (fields, text) ← readFields fuel false text
        return ((String.ofList key, value) :: fields, text)
      | _ => none) = _
    rw [hkey]
    show (do
      let (value, text) ← readValue fuel rest
      let (fields, text) ← readFields fuel false text
      return ((String.ofList key.toList, value) :: fields, text)) = _
    rw [String.ofList_toList]

/-- Fuel for every character is enough. -/
theorem read_render (fuel : ℕ) :
    (∀ value rest, (render value).length ≤ fuel → EndsNumber rest →
      readValue fuel (render value ++ rest) = some (value, rest)) ∧
    (∀ first items rest, (renderItems first items).length ≤ fuel →
      readItems fuel first (renderItems first items ++ rest) = some (items, rest)) ∧
    (∀ first fields rest, (renderFields first fields).length ≤ fuel →
      readFields fuel first (renderFields first fields ++ rest) = some (fields, rest)) := by
  induction fuel with
  | zero =>
    refine ⟨fun value _ h => ?_, fun first items _ h => ?_, fun first fields _ h => ?_⟩
    · have := length_render_pos value
      omega
    · have := length_renderItems_pos first items
      omega
    · have := length_renderFields_pos first fields
      omega
  | succ fuel ih =>
    obtain ⟨ihvalue, ihitems, ihfields⟩ := ih
    refine ⟨fun value rest h hrest => ?_, fun first items rest h => ?_, fun first fields rest h => ?_⟩
    · cases value with
      | null => rfl
      | bool value => cases value <;> rfl
      | number n => exact readValue_number fuel n hrest
      | string text =>
        show readValue (fuel + 1) (quoted text ++ rest) = _
        rw [quoted_append]
        show (readQuoted (text.toList.flatMap escaped ++ '"' :: rest)).map _ = _
        rw [readQuoted_quoted]
        show some (Json.string (String.ofList text.toList), rest) = _
        rw [String.ofList_toList]
      | array items =>
        have hitems := ihitems true items rest (Nat.le_of_succ_le_succ h)
        show (readItems fuel true (renderItems true items ++ rest)).map _ = _
        rw [hitems, Option.map_some]
      | object fields =>
        have hfields := ihfields true fields rest (Nat.le_of_succ_le_succ h)
        show (readFields fuel true (renderFields true fields ++ rest)).map _ = _
        rw [hfields, Option.map_some]
    · cases items with
      | nil => rfl
      | cons item items =>
        have hpos := length_render_pos item
        have hpos' := length_renderItems_pos false items
        rw [renderItems] at h ⊢
        simp only [List.length_append] at h
        rw [List.append_assoc, List.append_assoc, readItems_cons,
          ihvalue item _ (by omega) (endsNumber_renderItems items rest)]
        show (do
          let (items, text) ← readItems fuel false (renderItems false items ++ rest)
          return (item :: items, text)) = _
        rw [ihitems false items rest (by omega)]
        rfl
    · cases fields with
      | nil => rfl
      | cons field fields =>
        obtain ⟨key, value⟩ := field
        have hpos := length_render_pos value
        have hpos' := length_renderFields_pos false fields
        rw [renderFields] at h ⊢
        simp only [List.length_append, List.length_cons] at h
        rw [List.append_assoc, List.append_assoc, List.cons_append, List.append_assoc, readFields_cons,
          ihvalue value _ (by omega) (endsNumber_renderFields fields rest)]
        show (do
          let (fields, text) ← readFields fuel false (renderFields false fields ++ rest)
          return ((key, value) :: fields, text)) = _
        rw [ihfields false fields rest (by omega)]
        rfl

end Read

/-! #### Lines -/

/-- Text without control characters. -/
def Printed (text : List Char) : Prop := ∀ c ∈ text, 32 ≤ c.toNat

instance (text : List Char) : Decidable (Printed text) :=
  decidable_of_iff (text.all fun c => decide (32 ≤ c.toNat)) (by simp [Printed])

theorem Printed.append {text more : List Char} (h : Printed text) (hmore : Printed more) : Printed (text ++ more) := by
  intro c hc
  exact (List.mem_append.mp hc).elim (h c) (hmore c)

theorem Printed.cons {c : Char} {text : List Char} (hc : 32 ≤ c.toNat) (h : Printed text) : Printed (c :: text) := by
  intro d hd
  rcases List.mem_cons.mp hd with rfl | hd
  · exact hc
  · exact h d hd

theorem Printed.notMem {text : List Char} (h : Printed text) {control : Char} (hcontrol : control.toNat < 32) :
    control ∉ text := by
  intro hmem
  have hprinted := h control hmem
  omega

theorem printed_natText (n : ℕ) : Printed (natText n) := by
  intro c hc
  have hdigit := natText_isDigit n c hc
  unfold Char.isDigit at hdigit
  simp only [Bool.and_eq_true, decide_eq_true_eq] at hdigit
  have hlow : 48 ≤ c.toNat := UInt32.le_iff_toNat_le.mp hdigit.1
  omega

theorem printed_intText (n : ℤ) : Printed (intText n) := by
  unfold intText
  split_ifs
  · exact .cons (by decide) (printed_natText _)
  · exact printed_natText _

theorem printed_escaped (c : Char) : Printed (escaped c) := by
  have hhex : ∀ d < 16, 32 ≤ (hexChar d).toNat := by decide
  unfold escaped
  split_ifs with hspecial hlow
  · obtain rfl | rfl := hspecial <;> decide
  · have hprefix : Printed ['\\', 'u', '0', '0'] := by decide
    exact hprefix.append (.cons (hhex _ (by omega)) (.cons (hhex _ (by omega)) (by decide)))
  · intro d hd
    rw [List.mem_singleton] at hd
    subst hd
    omega

theorem printed_quoted (text : String) : Printed (quoted text) := by
  have hbody : Printed (text.toList.flatMap escaped) := by
    intro c hc
    obtain ⟨d, -, hd⟩ := List.mem_flatMap.mp hc
    exact printed_escaped d c hd
  exact (Printed.cons (by decide) hbody).append (by decide)

theorem printed_separator (first : Bool) : Printed (separator first) := by cases first <;> decide

mutual
/-- **No control character is written.** -/
theorem printed_render : ∀ value, Printed (render value)
  | .null => by decide
  | .bool true => by decide
  | .bool false => by decide
  | .number n => printed_intText n
  | .string text => printed_quoted text
  | .array items => .cons (by decide) (printed_renderItems true items)
  | .object fields => .cons (by decide) (printed_renderFields true fields)

theorem printed_renderItems (first : Bool) : ∀ items, Printed (renderItems first items)
  | [] => show Printed [']'] by decide
  | item :: items => (printed_separator first).append ((printed_render item).append (printed_renderItems false items))

theorem printed_renderFields (first : Bool) : ∀ fields, Printed (renderFields first fields)
  | [] => show Printed ['}'] by decide
  | (key, value) :: fields =>
    (printed_separator first).append ((printed_quoted key).append
      (.cons (by decide) ((printed_render value).append (printed_renderFields false fields))))
end

theorem renderFields_closed (first : Bool) (fields : List (String × Json)) :
    ∃ body, renderFields first fields = body ++ ['}'] := by
  induction fields generalizing first with
  | nil => exact ⟨[], rfl⟩
  | cons field fields ih =>
    obtain ⟨key, value⟩ := field
    obtain ⟨body, hbody⟩ := ih false
    exact ⟨separator first ++ (quoted key ++ ':' :: (render value ++ body)), by simp [renderFields, hbody]⟩

/-! #### The library -/

def canonical : JsonText where
  write := render
  read := fun text =>
    match readValue (text.length + 1) text with
    | some (value, []) => if render value = text then some value else none
    | _ => none

theorem render_of_read {text : List Char} {value : Json} (h : canonical.read text = some value) :
    render value = text := by
  unfold canonical at h
  dsimp only at h
  split at h
  · split_ifs at h with htext
    rw [← Option.some.inj h, htext]
  · cases h

theorem canonical_read_render (value : Json) : canonical.read (render value) = some value := by
  have hread := (read_render ((render value).length + 1)).1 value [] (by omega) (by simp [EndsNumber])
  rw [List.append_nil] at hread
  unfold canonical
  dsimp only
  rw [hread]
  exact if_pos rfl

theorem canonical_write_object (fields : List (String × Json)) :
    ∃ body, canonical.write (.object fields) = '{' :: body ++ ['}'] := by
  obtain ⟨body, hbody⟩ := renderFields_closed true fields
  exact ⟨body, congrArg ('{' :: ·) hbody⟩

/-- A text that is read starts one text of an object at most. -/
theorem renderFields_append_inj {fields fields' : List (String × Json)} {rest : List Char}
    (h : renderFields true fields' ++ rest = renderFields true fields) : rest = [] := by
  have hlength := congrArg List.length h
  rw [List.length_append] at hlength
  obtain ⟨fuel, hfuel⟩ : ∃ fuel, (renderFields true fields).length = fuel := ⟨_, rfl⟩
  have hfields := (read_render fuel).2.2 true fields [] hfuel.le
  have hfields' := (read_render fuel).2.2 true fields' rest (by omega)
  rw [h, ← List.append_nil (renderFields true fields), hfields] at hfields'
  exact (Prod.mk.inj (Option.some.inj hfields')).2.symm

theorem canonical_read_cut (fields : List (String × Json)) (text : List Char)
    (hcut : text <+: canonical.write (.object fields)) (hne : text ≠ canonical.write (.object fields)) :
    canonical.read text = none := by
  by_contra hread
  obtain ⟨value, hvalue⟩ := Option.ne_none_iff_exists'.mp hread
  obtain rfl := render_of_read hvalue
  obtain ⟨rest, hrest⟩ := hcut
  have hrest : render value ++ rest = '{' :: renderFields true fields := hrest
  cases value with
  | null => exact absurd (List.cons.inj hrest).1 (by decide)
  | bool value => cases value <;> exact absurd (List.cons.inj hrest).1 (by decide)
  | number n =>
    obtain ⟨c, text, htext, hc⟩ := intText_head n
    rw [render, htext] at hrest
    rw [(List.cons.inj hrest).1] at hc
    exact absurd hc (by decide)
  | string text => exact absurd (List.cons.inj hrest).1 (by decide)
  | array items => exact absurd (List.cons.inj hrest).1 (by decide)
  | object fields' =>
    have hbody : renderFields true fields' ++ rest = renderFields true fields := (List.cons.inj hrest).2
    rw [renderFields_append_inj hbody, List.append_nil] at hbody
    exact hne (congrArg ('{' :: ·) hbody)

theorem canonical_lawful (Written : List (String × Json) → Prop) : canonical.Lawful Written where
  read_write fields _ := canonical_read_render (.object fields)
  newline fields _ := (printed_render (.object fields)).notMem (by decide)
  write_object fields _ := canonical_write_object fields
  read_cut fields text _ := canonical_read_cut fields text
  read_object := by
    intro text fields h
    obtain ⟨body, hbody⟩ := canonical_write_object fields
    exact ⟨'{' :: body, [], (render_of_read h).symm.trans hbody, by simp⟩

end Json

end DenonAvr.Library
