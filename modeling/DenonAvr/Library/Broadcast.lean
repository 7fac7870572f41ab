import Mathlib.Tactic
import Mathlib.Data.List.Basic

/-!
# A broadcast channel

Readers of one list of items that only grows. A reader is given the items from its start on that it may see, in order, and
may be told that it fell behind, in place of items that were dropped (`Covers`). Which items are dropped, and how many at
once, is left open, so this is a channel of any capacity.
-/

namespace DenonAvr.Library

/-- What a reader is given. -/
inductive Given (α : Type*)
  | update (item : α)
  | missed
deriving DecidableEq

namespace Given

def update? {α : Type*} : Given α → Option α
  | update item => some item
  | missed => none

/-- About the items with `p`, or about dropped ones. -/
def about {α : Type*} (p : α → Bool) : Given α → Bool
  | update item => p item
  | missed => true

end Given

/-- What is given stands for the items: each is given or dropped, and something is told where some were dropped. -/
inductive Covers {α : Type*} : List α → List (Given α) → Prop
  | nil : Covers [] []
  | update {items : List α} {given : List (Given α)} (item : α) (h : Covers items given) :
      Covers (item :: items) (.update item :: given)
  | missed {items : List α} {given : List (Given α)} (dropped : List α) (h : Covers items given) :
      Covers (dropped ++ items) (.missed :: given)

namespace Covers

variable {α : Type*} {items more : List α} {given next : List (Given α)} {p : α → Bool} {a : α}

theorem append (h : Covers items given) (hmore : Covers more next) : Covers (items ++ more) (given ++ next) := by
  induction h with
  | nil => exact hmore
  | update item _ ih => exact .update item ih
  | missed dropped _ ih =>
    rw [List.append_assoc]
    exact .missed dropped ih

theorem sublist (h : Covers items given) : (given.filterMap Given.update?).Sublist items := by
  induction h with
  | nil => exact .slnil
  | update item _ ih => exact ih.cons_cons item
  | missed dropped _ ih => exact ih.trans (List.sublist_append_right dropped _)

theorem filter (h : Covers items given) : Covers (items.filter p) (given.filter (Given.about p)) := by
  induction h with
  | nil => exact .nil
  | update item _ ih =>
    cases hp : p item with
    | true =>
      rw [List.filter_cons_of_pos hp, List.filter_cons_of_pos (show Given.about p (.update item) = true from hp)]
      exact .update item ih
    | false =>
      rw [List.filter_cons_of_neg (by rw [hp]; exact Bool.false_ne_true),
        List.filter_cons_of_neg (by rw [Given.about, hp]; exact Bool.false_ne_true)]
      exact ih
  | missed dropped _ ih =>
    rw [List.filter_append, List.filter_cons_of_pos rfl]
    exact .missed _ ih

theorem eq_missed_of_nil (h : Covers [] given) : ∀ last ∈ given, last = .missed := by
  generalize hitems : ([] : List α) = items at h
  induction h with
  | nil => exact nofun
  | update item _ _ => cases hitems
  | missed dropped _ ih =>
    obtain ⟨-, hrest⟩ := List.append_eq_nil_iff.mp hitems.symm
    intro last hlast
    obtain rfl | hlast := List.mem_cons.mp hlast
    · rfl
    · exact ih hrest.symm last hlast

/-- The last item is the last that is given, unless something is told to be missing after that. -/
theorem getLast (h : Covers items given) (hlast : items.getLast? = some a) :
    given.getLast? = some (.update a) ∨ given.getLast? = some .missed := by
  induction h with
  | nil => cases hlast
  | @update items given item h ih =>
    rw [List.getLast?_cons] at hlast ⊢
    cases hgiven : given.getLast? with
    | none =>
      obtain rfl := List.getLast?_eq_none_iff.mp hgiven
      cases h
      exact .inl (congrArg (some ∘ Given.update) (Option.some.inj hlast))
    | some last =>
      cases hitems : items.getLast? with
      | none =>
        obtain rfl := List.getLast?_eq_none_iff.mp hitems
        obtain rfl := h.eq_missed_of_nil last (List.mem_of_getLast? hgiven)
        exact .inr rfl
      | some b =>
        rw [hitems] at hlast
        rw [hgiven] at ih
        exact ih (hitems.trans hlast)
  | @missed items given dropped h ih =>
    rw [List.getLast?_cons]
    cases hgiven : given.getLast? with
    | none => exact .inr rfl
    | some last =>
      cases hitems : items.getLast? with
      | none =>
        obtain rfl := List.getLast?_eq_none_iff.mp hitems
        obtain rfl := h.eq_missed_of_nil last (List.mem_of_getLast? hgiven)
        exact .inr rfl
      | some b =>
        rw [List.getLast?_append, hitems] at hlast
        rw [hgiven] at ih
        exact ih (hitems.trans hlast)

end Covers

/-- A reader's place in the channel. -/
structure Reader (α : Type*) where
  start : ℕ
  position : ℕ
  given : List (Given α)
deriving DecidableEq

namespace Reader

variable {α : Type*} {p : α → Bool} {sent : List α} {reader reader' : Reader α}

def subscribe (sent : List α) : Reader α := ⟨sent.length, sent.length, []⟩

/-- The next item. The reader is given it if it may see it. -/
def read (p : α → Bool) (sent : List α) (reader : Reader α) : Option (Reader α) :=
  sent[reader.position]?.map fun item =>
    { reader with
      position := reader.position + 1
      given := reader.given ++ if p item then [.update item] else [] }

/-- So many items are gone, and the reader is told. -/
def lag (sent : List α) (count : ℕ) (reader : Reader α) : Option (Reader α) :=
  if 0 < count ∧ reader.position + count ≤ sent.length then
    some { reader with position := reader.position + count, given := reader.given ++ [.missed] }
  else none

/-- The items from the start to the place of the reader. -/
def passed (sent : List α) (reader : Reader α) : List α := (sent.take reader.position).drop reader.start

/-- What the reader was given covers what it may see. -/
structure Tracks (p : α → Bool) (sent : List α) (reader : Reader α) : Prop where
  start : reader.start ≤ reader.position
  position : reader.position ≤ sent.length
  covers : Covers ((reader.passed sent).filter p) reader.given

theorem tracks_subscribe : (subscribe sent).Tracks p sent := by
  refine ⟨le_rfl, le_rfl, ?_⟩
  have hpassed : (subscribe sent).passed sent = [] := List.drop_eq_nil_of_le (List.length_take_le _ _)
  rw [hpassed]
  exact .nil

theorem Tracks.concat (h : reader.Tracks p sent) (items : List α) : reader.Tracks p (sent ++ items) := by
  have hpassed : reader.passed (sent ++ items) = reader.passed sent := by
    unfold passed
    rw [List.take_append_of_le_length h.position]
  exact ⟨h.start, h.position.trans (by simp), by rw [hpassed]; exact h.covers⟩

/-- What the reader passes by moving on. -/
theorem Tracks.passed_move (h : reader.Tracks p sent) (count : ℕ) (given : List (Given α)) :
    passed sent { reader with position := reader.position + count, given } =
      reader.passed sent ++ (sent.drop reader.position).take count := by
  unfold passed
  dsimp only
  rw [List.take_add, List.drop_append_of_le_length]
  rw [List.length_take]
  exact le_min h.start (h.start.trans h.position)

theorem Tracks.read (h : reader.Tracks p sent) (hread : reader.read p sent = some reader') : reader'.Tracks p sent := by
  obtain ⟨item, hitem, rfl⟩ := Option.map_eq_some_iff.mp hread
  have hlt := (List.getElem?_eq_some_iff.mp hitem).1
  refine ⟨h.start.trans (Nat.le_succ _), hlt, ?_⟩
  have hnext : (sent.drop reader.position).take 1 = [item] := by
    rw [List.drop_eq_getElem_cons hlt, (List.getElem?_eq_some_iff.mp hitem).2, List.take_succ_cons, List.take_zero]
  rw [h.passed_move, hnext, List.filter_append]
  refine h.covers.append ?_
  cases hp : p item with
  | true =>
    rw [List.filter_cons_of_pos hp]
    exact .update item .nil
  | false =>
    rw [List.filter_cons_of_neg (by rw [hp]; exact Bool.false_ne_true)]
    exact .nil

theorem Tracks.lag (h : reader.Tracks p sent) {count : ℕ} (hlag : reader.lag sent count = some reader') :
    reader'.Tracks p sent := by
  unfold Reader.lag at hlag
  split_ifs at hlag with hle
  obtain rfl := Option.some.inj hlag
  refine ⟨h.start.trans (Nat.le_add_right _ _), hle.2, ?_⟩
  rw [h.passed_move, List.filter_append]
  refine h.covers.append ?_
  rw [← List.append_nil (((sent.drop reader.position).take count).filter p)]
  exact .missed _ .nil

end Reader

end DenonAvr.Library
