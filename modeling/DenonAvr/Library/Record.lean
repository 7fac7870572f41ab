import DenonAvr.Library.Json

/-!
# Records as JSON

How values are written as JSON and read back (`Coding`), and how records are (`Record`): a record has a field for each of
its keys, one after another, and some may be left out. Its reader looks at the fields with its keys, wherever they stand
and whatever stands between them, unless it is a strict one.

What is written is read as what it was wherever the numbers fit (`ReadsBack`). Whether a whole record is read back is a
question about its fields, which `simp` answers.
-/

namespace DenonAvr.Library

open Json (asArray asBool asInt asNat asStr)

variable {α β : Type*}

/-! ### Values -/

structure Coding (α : Type*) where
  write : α → Json
  read : Json → Option α
  write_ne_null : ∀ a, write a ≠ .null

namespace Coding

/-- What is written is read as what it was. -/
def ReadsBack (c : Coding α) (a : α) : Prop := c.read (c.write a) = some a

def text : Coding String := ⟨.string, asStr, by simp⟩

def flag : Coding Bool := ⟨.bool, asBool, by simp⟩

/-- A whole number within bounds. -/
def number (least greatest : ℤ) : Coding ℤ where
  write := .number
  read value := (asInt value).filter fun n => decide (least ≤ n ∧ n ≤ greatest)
  write_ne_null := by simp

def u64 : Coding ℕ where
  write n := .number n
  read value := (asNat value).filter fun n => decide (n < 2 ^ 64)
  write_ne_null := by simp

def list (c : Coding α) : Coding (List α) where
  write items := .array (items.map c.write)
  read value := (asArray value).bind fun items => items.mapM c.read
  write_ne_null := by simp

/-- A choice, by name. A name may also stand for itself as the key of nothing. -/
def choice (all : List α) (name : α → String) : Coding α where
  write a := .string (name a)
  read
    | .string text | .object [(text, .null)] => all.find? fun a => name a == text
    | _ => none
  write_ne_null := by simp

@[simp] theorem readsBack_text (value : String) : text.ReadsBack value := rfl

@[simp] theorem readsBack_flag (value : Bool) : flag.ReadsBack value := rfl

@[simp] theorem readsBack_number {least greatest n : ℤ} :
    (number least greatest).ReadsBack n ↔ least ≤ n ∧ n ≤ greatest := by
  simp [ReadsBack, number, Option.filter]

@[simp] theorem readsBack_u64 {n : ℕ} : u64.ReadsBack n ↔ n < 2 ^ 64 := by
  simp [ReadsBack, u64, Option.filter]

theorem readsBack_list {c : Coding α} {items : List α} (h : ∀ a ∈ items, c.ReadsBack a) : c.list.ReadsBack items := by
  unfold ReadsBack list
  dsimp only
  rw [Json.asArray_array, Option.bind_some]
  induction items with
  | nil => rfl
  | cons a items ih =>
    have ha : c.read (c.write a) = some a := h a List.mem_cons_self
    rw [List.map_cons, List.mapM_cons, ha, ih fun b hb => h b (List.mem_cons_of_mem _ hb)]
    rfl

theorem readsBack_choice {all : List α} {name : α → String} {a : α} (hmem : a ∈ all)
    (hname : ∀ b ∈ all, name b = name a → b = a) : (choice all name).ReadsBack a := by
  unfold ReadsBack choice
  dsimp only
  cases hfind : all.find? fun b => name b == name a with
  | none => exact absurd (List.find?_eq_none.mp hfind a hmem) (by simp)
  | some b => rw [hname b (List.mem_of_find?_eq_some hfind) (by simpa using List.find?_some hfind)]

end Coding

/-! ### Records -/

structure Record (α : Type*) where
  keys : List String
  write : α → List (String × Json)
  read : List (String × Json) → Option α
  nodup : keys.Nodup
  /-- The fields stand in the order of their keys, and some may be left out. -/
  write_keys : ∀ a, ((write a).map Prod.fst).Sublist keys
  read_congr : ∀ fields fields', (∀ key ∈ keys, Json.get fields key = Json.get fields' key) → read fields = read fields'

namespace Record

variable {r : Record α} {s : Record β} {a : α} {b : β} {fields : List (String × Json)} {key : String}

/-- What is written is read as what it was. -/
def ReadsBack (r : Record α) (a : α) : Prop := r.read (r.write a) = some a

def nothing (a : α) : Record α where
  keys := []
  write _ := []
  read _ := some a
  nodup := .nil
  write_keys _ := .slnil
  read_congr _ _ _ := rfl

def field (key : String) (c : Coding α) : Record α where
  keys := [key]
  write a := [(key, c.write a)]
  read fields := (Json.get fields key).bind c.read
  nodup := List.nodup_singleton key
  write_keys _ := .refl _
  read_congr fields fields' h := by rw [h key List.mem_cons_self]

/-- A field that is left out when there is nothing to write. -/
def optional (key : String) (c : Coding α) : Record (Option α) where
  keys := [key]
  write value := (value.map fun a => (key, c.write a)).toList
  read fields :=
    match Json.get fields key with
    | none | some .null => some none
    | some value => (c.read value).map some
  nodup := List.nodup_singleton key
  write_keys value := by cases value <;> simp
  read_congr fields fields' h := by rw [h key List.mem_cons_self]

/-- A list that is left out when `skips` says so and it is empty, and empty when it is missing. -/
def listOf (key : String) (c : Coding α) (skips : Bool) : Record (List α) where
  keys := [key]
  write items := if skips && items.isEmpty then [] else [(key, c.list.write items)]
  read fields := ((Json.get fields key).map c.list.read).getD (some [])
  nodup := List.nodup_singleton key
  write_keys items := by split_ifs <;> simp
  read_congr fields fields' h := by rw [h key List.mem_cons_self]

theorem get_eq_none (h : key ∉ fields.map Prod.fst) : Json.get fields key = none := by
  unfold Json.get
  rw [List.lookup_eq_none_iff]
  intro field hmem
  have hne : field.1 ≠ key := fun heq => h (heq ▸ List.mem_map_of_mem hmem)
  simpa using hne.symm

theorem get_append (more : List (String × Json)) : Json.get (fields ++ more) key = (Json.get fields key).or (Json.get more key) :=
  List.lookup_append

theorem get_write_of_notMem (h : key ∉ r.keys) : Json.get (r.write a) key = none :=
  get_eq_none fun hmem => h ((r.write_keys a).subset hmem)

/-- No key of one is a key of the other. -/
def apartFrom (r : Record α) (s : Record β) : Bool := r.keys.all fun key => !s.keys.contains key

theorem notMem_of_apartFrom (h : r.apartFrom s = true) (hkey : key ∈ r.keys) : key ∉ s.keys := by
  have hall := List.all_eq_true.mp h key hkey
  simpa using hall

/-- The fields of one record and then those of another. -/
def and (r : Record α) (s : Record β) (h : r.apartFrom s = true := by exact of_decide_eq_true (Eq.refl true)) :
    Record (α × β) where
  keys := r.keys ++ s.keys
  write p := r.write p.1 ++ s.write p.2
  read fields := (r.read fields).bind fun a => (s.read fields).map fun b => (a, b)
  nodup := List.nodup_append.mpr ⟨r.nodup, s.nodup, fun key hr key' hs heq => notMem_of_apartFrom h hr (heq ▸ hs)⟩
  write_keys p := by
    rw [List.map_append]
    exact (r.write_keys p.1).append (s.write_keys p.2)
  read_congr fields fields' hsame := by
    rw [r.read_congr fields fields' fun key hkey => hsame key (List.mem_append_left _ hkey),
      s.read_congr fields fields' fun key hkey => hsame key (List.mem_append_right _ hkey)]

/-- The same fields for other values. -/
def map (r : Record α) (make : α → β) (back : β → α) : Record β where
  keys := r.keys
  write b := r.write (back b)
  read fields := (r.read fields).map make
  nodup := r.nodup
  write_keys b := r.write_keys (back b)
  read_congr fields fields' hsame := by rw [r.read_congr fields fields' hsame]

@[simp] theorem readsBack_nothing {a b : α} : (nothing a).ReadsBack b ↔ a = b := by
  simp [ReadsBack, nothing]

@[simp] theorem readsBack_field {c : Coding α} : (field key c).ReadsBack a ↔ c.ReadsBack a := by
  simp [ReadsBack, Coding.ReadsBack, field, Json.get]

theorem read_optional {c : Coding α} {value : Json} (hget : Json.get fields key = some value) (hnull : value ≠ .null) :
    (optional key c).read fields = (c.read value).map some := by
  unfold optional
  dsimp only
  rw [hget]
  cases value with
  | null => exact absurd rfl hnull
  | _ => rfl

@[simp] theorem readsBack_optional {c : Coding α} {value : Option α} :
    (optional key c).ReadsBack value ↔ ∀ a ∈ value, c.ReadsBack a := by
  cases value with
  | none => simp [ReadsBack, optional, Json.get]
  | some a =>
    have hget : Json.get ((optional key c).write (some a)) key = some (c.write a) := by simp [optional, Json.get]
    unfold ReadsBack Coding.ReadsBack
    rw [read_optional hget (c.write_ne_null a)]
    simp

theorem readsBack_listOf {c : Coding α} {skips : Bool} {items : List α} (h : ∀ a ∈ items, c.ReadsBack a) :
    (listOf key c skips).ReadsBack items := by
  have hread : c.list.read (c.list.write items) = some items := Coding.readsBack_list h
  unfold ReadsBack listOf
  dsimp only
  split_ifs with hskip
  · simp only [Bool.and_eq_true, List.isEmpty_iff] at hskip
    simp [Json.get, hskip.2]
  · simp [Json.get, hread]

theorem ReadsBack.map {make : α → β} {back : β → α} (hback : r.ReadsBack (back b)) (h : make (back b) = b) :
    (r.map make back).ReadsBack b := by
  have hread : r.read (r.write (back b)) = some (back b) := hback
  unfold ReadsBack Record.map
  dsimp only
  rw [hread, Option.map_some, h]

@[simp] theorem readsBack_and {h : r.apartFrom s = true} {p : α × β} :
    (r.and s h).ReadsBack p ↔ r.ReadsBack p.1 ∧ s.ReadsBack p.2 := by
  obtain ⟨a, b⟩ := p
  have hleft : r.read (r.write a ++ s.write b) = r.read (r.write a) := by
    apply r.read_congr
    intro key hkey
    rw [get_append, get_write_of_notMem (notMem_of_apartFrom h hkey), Option.or_none]
  have hright : s.read (r.write a ++ s.write b) = s.read (s.write b) := by
    apply s.read_congr
    intro key hkey
    rw [get_append, get_write_of_notMem fun hmem => notMem_of_apartFrom h hmem hkey, Option.none_or]
  unfold ReadsBack and
  dsimp only
  rw [hleft, hright]
  cases r.read (r.write a) <;> cases s.read (s.write b) <;> simp

/-! #### A record as a value -/

/-- The fields that the record knows. -/
def known (r : Record α) (fields : List (String × Json)) : List (String × Json) :=
  fields.filter fun field => decide (field.1 ∈ r.keys)

/-- A record as an object. It is read if no known key stands twice, and a strict reader knows every key. -/
def coding (r : Record α) (strict : Bool) : Coding α where
  write a := .object (r.write a)
  read
    | .object fields =>
      if ((r.known fields).map Prod.fst).Nodup ∧ (strict = true → ∀ field ∈ fields, field.1 ∈ r.keys) then r.read fields else none
    | _ => none
  write_ne_null := by simp

variable {strict : Bool}

theorem known_write : r.known (r.write a) = r.write a := by
  unfold known
  rw [List.filter_eq_self]
  intro field hmem
  exact decide_eq_true ((r.write_keys a).subset (List.mem_map_of_mem hmem))

theorem coding_readsBack (hback : r.ReadsBack a) : (r.coding strict).ReadsBack a := by
  have hnodup : ((r.known (r.write a)).map Prod.fst).Nodup := by
    rw [known_write]
    exact r.nodup.sublist (r.write_keys a)
  unfold Coding.ReadsBack coding
  dsimp only
  rw [if_pos ⟨hnodup, fun _ field hmem => (r.write_keys a).subset (List.mem_map_of_mem hmem)⟩]
  exact hback

end Record

end DenonAvr.Library
