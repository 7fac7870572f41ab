import Mathlib.Tactic

/-!
# Logs of edits

Something that is edited item by item is the fold of a log of edits. What the last edit of an item wrote is what the whole
log leaves of the item (`Edits.shows_of_last`).

A map with ordered keys is the list of its entries. Its operations need no premise that the list is in order, as far as a
lookup is concerned.
-/

namespace DenonAvr.Library

/-! ### The last edit of an item -/

/-- Edits of items. -/
structure Edits (σ ε ι : Type*) where
  apply : σ → ε → σ
  item : ε → ι
  Shows : σ → ε → Prop
  own : ∀ s e, Shows (apply s e) e
  other : ∀ s e e', item e' ≠ item e → Shows s e → Shows (apply s e') e

namespace Edits

variable {σ ε ι : Type*} (E : Edits σ ε ι)

/-- An edit still shows after edits of other items. -/
theorem shows_foldl {s : σ} {e : ε} {log : List ε} (h : E.Shows s e) (hlog : ∀ e' ∈ log, E.item e' ≠ E.item e) :
    E.Shows (log.foldl E.apply s) e := by
  induction log generalizing s with
  | nil => exact h
  | cons e' log ih =>
    refine ih (E.other s e e' (hlog e' List.mem_cons_self) h) fun e'' he'' => ?_
    exact hlog e'' (List.mem_cons_of_mem _ he'')

/-- **The last edit of an item shows.** -/
theorem shows_of_last {s : σ} {e : ε} {before after : List ε} (hafter : ∀ e' ∈ after, E.item e' ≠ E.item e) :
    E.Shows ((before ++ e :: after).foldl E.apply s) e := by
  rw [List.foldl_append, List.foldl_cons]
  exact E.shows_foldl (E.own _ e) hafter

end Edits

/-! ### Ordered entries -/

section Entries
variable {κ α : Type*} {key other : κ} {value : α} {entries : List (κ × α)}

theorem lookup_cons_of_ne [BEq κ] [LawfulBEq κ] (h : other ≠ key) :
    ((key, value) :: entries).lookup other = entries.lookup other := by
  rw [List.lookup_cons, beq_false_of_ne h]

variable [LinearOrder κ]

/-- The entries with the value at the key, in order if they are. -/
def insertEntry (key : κ) (value : α) : List (κ × α) → List (κ × α)
  | [] => [(key, value)]
  | entry :: entries =>
    if key < entry.1 then (key, value) :: entry :: entries
    else if key = entry.1 then (key, value) :: entries
    else entry :: insertEntry key value entries

def removeEntry (key : κ) (entries : List (κ × α)) : List (κ × α) := entries.filter fun entry => entry.1 ≠ key

section Lookup
variable [BEq κ] [LawfulBEq κ]

theorem lookup_insertEntry : (insertEntry key value entries).lookup key = some value := by
  induction entries with
  | nil => exact List.lookup_cons_self
  | cons entry entries ih =>
    unfold insertEntry
    split_ifs with hlt heq
    · exact List.lookup_cons_self
    · exact List.lookup_cons_self
    · exact (lookup_cons_of_ne heq).trans ih

theorem lookup_insertEntry_of_ne (h : other ≠ key) :
    (insertEntry key value entries).lookup other = entries.lookup other := by
  induction entries with
  | nil => exact lookup_cons_of_ne h
  | cons entry entries ih =>
    unfold insertEntry
    split_ifs with hlt heq
    · exact lookup_cons_of_ne h
    · rw [lookup_cons_of_ne h]
      exact (lookup_cons_of_ne (heq ▸ h)).symm
    · rw [List.lookup_cons, List.lookup_cons, ih]

theorem lookup_removeEntry : (removeEntry key entries).lookup key = none := by
  unfold removeEntry
  induction entries with
  | nil => rfl
  | cons entry entries ih =>
    rw [List.filter_cons]
    split_ifs with hkept
    · have hne : key ≠ entry.1 := fun heq => of_decide_eq_true hkept heq.symm
      exact (lookup_cons_of_ne hne).trans ih
    · exact ih

theorem lookup_removeEntry_of_ne (h : other ≠ key) : (removeEntry key entries).lookup other = entries.lookup other := by
  unfold removeEntry
  induction entries with
  | nil => rfl
  | cons entry entries ih =>
    rw [List.filter_cons]
    split_ifs with hkept
    · rw [List.lookup_cons, List.lookup_cons, ih]
    · have hkey : entry.1 = key := by simpa using hkept
      exact ih.trans (lookup_cons_of_ne (hkey ▸ h)).symm

end Lookup

theorem mem_insertEntry {entry : κ × α} (h : entry ∈ insertEntry key value entries) :
    entry = (key, value) ∨ entry ∈ entries := by
  induction entries with
  | nil => exact .inl (List.mem_singleton.mp h)
  | cons first entries ih =>
    unfold insertEntry at h
    split_ifs at h with hlt heq
    · exact List.mem_cons.mp h
    · exact (List.mem_cons.mp h).imp_right (List.mem_cons_of_mem _)
    · obtain rfl | hmem := List.mem_cons.mp h
      · exact .inr List.mem_cons_self
      · exact (ih hmem).imp_right (List.mem_cons_of_mem _)

end Entries

end DenonAvr.Library
