import DenonAvr.Policy.Evaluate
import Mathlib.Data.List.Sort

/-!
# The ledger

The volume changes the budget is measured over, each under the key of its operation. A change is reserved when
its request is judged and stays unless the operation certainly wrote nothing; it is kept for the longest window a
policy may have.

The entries are one list, each with its receiver, in the order they were made. `recent` is what a judgement reads.
-/

namespace DenonAvr.Application

open Domain Policy

/-- How long an entry is kept, in milliseconds. -/
def retention : ℕ := 24 * 60 * 60 * 1000

/-- Names one operation across restarts. -/
structure OpKey where
  run : WallTime
  operation : OperationId
deriving DecidableEq

structure LedgerEntry where
  receiver : ReceiverId
  key : OpKey
  change : RecentChange
deriving DecidableEq

structure Ledger where
  entries : List LedgerEntry := []
deriving DecidableEq

namespace Ledger

/-- Count `change` against `receiver` from now on. -/
def reserve (ledger : Ledger) (receiver : ReceiverId) (key : OpKey) (change : RecentChange) : Ledger :=
  ⟨ledger.entries ++ [⟨receiver, key, change⟩]⟩

/-- The operation ended. -/
def settle (ledger : Ledger) (receiver : ReceiverId) (key : OpKey) (dispatched : Bool) : Ledger :=
  if dispatched then ledger
  else ⟨ledger.entries.filter fun entry => !(entry.receiver == receiver && entry.key == key)⟩

/-- Add an entry unless its operation is counted already. -/
def absorb (held : List LedgerEntry) (entry : LedgerEntry) : List LedgerEntry :=
  if held.any fun existing => existing.receiver == entry.receiver && existing.key == entry.key then held
  else held ++ [entry]

/-- Take in what `other` holds. -/
def merge (ledger other : Ledger) : Ledger := ⟨other.entries.foldl absorb ledger.entries⟩

/-- The changes to `receiver` inside `longestWindow` before `now`, oldest first. -/
def recent (ledger : Ledger) (receiver : ReceiverId) (now : WallTime) (longestWindow : ℕ) : List RecentChange :=
  let since := now.saturatingSub longestWindow
  let changes := (ledger.entries.filter (·.receiver == receiver)).map (·.change)
  (changes.filter fun change => decide (since < change.time)).insertionSort fun a b => a.time ≤ b.time

/-- Drop what is older than the retention. -/
def prune (ledger : Ledger) (now : WallTime) : Ledger :=
  ⟨ledger.entries.filter fun entry => decide (now.saturatingSub retention ≤ entry.change.time)⟩

section Lemmas
variable {ledger other : Ledger} {receiver : ReceiverId} {key : OpKey} {change : RecentChange}
  {now : WallTime} {entry : LedgerEntry}

@[simp] theorem mem_reserve :
    entry ∈ (ledger.reserve receiver key change).entries ↔ entry ∈ ledger.entries ∨ entry = ⟨receiver, key, change⟩ := by
  simp [reserve]

@[simp] theorem settle_true : ledger.settle receiver key true = ledger := rfl

@[simp] theorem mem_settle_false :
    entry ∈ (ledger.settle receiver key false).entries ↔
      entry ∈ ledger.entries ∧ ¬ (entry.receiver = receiver ∧ entry.key = key) := by
  simp only [settle, Bool.false_eq_true, if_false, List.mem_filter, Bool.not_eq_true', Bool.and_eq_false_iff,
    beq_eq_false_iff_ne, not_and_or]

theorem mem_of_mem_settle {dispatched : Bool} (h : entry ∈ (ledger.settle receiver key dispatched).entries) :
    entry ∈ ledger.entries := by
  cases dispatched
  · exact (mem_settle_false.mp h).1
  · exact h

theorem prune_entries : (ledger.prune now).entries =
    ledger.entries.filter fun entry => decide (now.saturatingSub retention ≤ entry.change.time) :=
  rfl

theorem settle_false_entries : (ledger.settle receiver key false).entries =
    ledger.entries.filter fun entry => !(entry.receiver == receiver && entry.key == key) :=
  rfl

@[simp] theorem mem_prune :
    entry ∈ (ledger.prune now).entries ↔
      entry ∈ ledger.entries ∧ now.saturatingSub retention ≤ entry.change.time := by
  simp [prune]

theorem mem_recent {longestWindow : ℕ} :
    change ∈ ledger.recent receiver now longestWindow ↔
      (∃ key, ⟨receiver, key, change⟩ ∈ ledger.entries) ∧ now.saturatingSub longestWindow < change.time := by
  simp only [recent, List.mem_insertionSort, List.mem_filter, List.mem_map, beq_iff_eq, decide_eq_true_eq]
  constructor
  · rintro ⟨⟨entry, ⟨hmem, rfl⟩, rfl⟩, htime⟩
    exact ⟨⟨entry.key, hmem⟩, htime⟩
  · rintro ⟨⟨key, hmem⟩, htime⟩
    exact ⟨⟨_, ⟨hmem, rfl⟩, rfl⟩, htime⟩

/-- What a fold of `absorb` holds: everything it started from, and from the rest nothing but its elements. -/
theorem mem_foldl_absorb {held more : List LedgerEntry} (h : entry ∈ more.foldl absorb held) :
    entry ∈ held ∨ entry ∈ more := by
  induction more generalizing held with
  | nil => exact .inl h
  | cons e more ih =>
    rcases ih h with hmem | hmem
    · unfold absorb at hmem
      split_ifs at hmem
      · exact .inl hmem
      · rcases List.mem_append.mp hmem with hmem | hmem
        · exact .inl hmem
        · exact .inr (List.mem_cons.mpr (.inl (List.mem_singleton.mp hmem)))
    · exact .inr (List.mem_cons_of_mem _ hmem)

theorem mem_foldl_absorb_of_mem {held : List LedgerEntry} (more : List LedgerEntry) (h : entry ∈ held) :
    entry ∈ more.foldl absorb held := by
  induction more generalizing held with
  | nil => exact h
  | cons e more ih =>
    refine ih ?_
    unfold absorb
    split_ifs
    · exact h
    · exact List.mem_append_left _ h

/-- Every operation of the rest is counted, by its own entry or by one that was held. -/
theorem key_mem_foldl_absorb {held more : List LedgerEntry} (h : entry ∈ more) :
    ∃ e ∈ more.foldl absorb held, e.receiver = entry.receiver ∧ e.key = entry.key := by
  induction more generalizing held with
  | nil => cases h
  | cons e more ih =>
    rcases List.mem_cons.mp h with rfl | h
    · by_cases hany : (held.any fun existing =>
          existing.receiver == entry.receiver && existing.key == entry.key) = true
      · obtain ⟨existing, hmem, heq⟩ := List.any_eq_true.mp hany
        simp only [Bool.and_eq_true, beq_iff_eq] at heq
        have hheld : existing ∈ absorb held entry := by
          unfold absorb
          rw [if_pos hany]
          exact hmem
        exact ⟨existing, mem_foldl_absorb_of_mem more hheld, heq⟩
      · have hheld : entry ∈ absorb held entry := by
          unfold absorb
          rw [if_neg hany]
          exact List.mem_append_right _ (List.mem_singleton_self _)
        exact ⟨entry, mem_foldl_absorb_of_mem more hheld, rfl, rfl⟩
    · exact ih h

theorem mem_merge_of_mem_left (h : entry ∈ ledger.entries) : entry ∈ (ledger.merge other).entries :=
  mem_foldl_absorb_of_mem _ h

theorem mem_merge (h : entry ∈ (ledger.merge other).entries) : entry ∈ ledger.entries ∨ entry ∈ other.entries :=
  mem_foldl_absorb h

theorem key_mem_merge_right (h : entry ∈ other.entries) :
    ∃ e ∈ (ledger.merge other).entries, e.receiver = entry.receiver ∧ e.key = entry.key :=
  key_mem_foldl_absorb h

end Lemmas

end Ledger

end DenonAvr.Application
