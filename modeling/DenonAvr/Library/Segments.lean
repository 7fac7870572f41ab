import Mathlib.Tactic
import Mathlib.Data.List.Basic

/-!
# Delimited segments of a stream

A stream cut at a delimiter. `IsSegment` says that two positions bound a maximal segment: it is closed by a
delimiter, has none inside, and begins where the stream begins or right behind a delimiter. A reader that
takes one symbol after another holds the slice from where it began (`Collecting`); when it meets a delimiter
it holds a segment exactly if it began at the start of one (`Collecting.isSegment_iff`). A reader that throws
its symbols away begins anew in the middle of a segment (`Collecting.not_atStart`).
-/

namespace DenonAvr.Library

variable {α : Type*} {delim : α} {stream : List α} {start stop position : ℕ} {buffer : List α} {x : α}

/-- The symbols from `start` up to `stop`. -/
def slice (stream : List α) (start stop : ℕ) : List α := (stream.take stop).drop start

/-- `start` is where the stream begins, or right behind a delimiter. -/
def AtStart (delim : α) (stream : List α) (start : ℕ) : Prop :=
  ∀ i, i + 1 = start → stream[i]? = some delim

/-- A run of symbols without a delimiter, closed by one. -/
structure IsClosed (delim : α) (stream : List α) (start stop : ℕ) : Prop where
  le : start ≤ stop
  closed : stream[stop]? = some delim
  free : ∀ i, start ≤ i → i < stop → stream[i]? ≠ some delim

/-- A maximal delimited segment. -/
structure IsSegment (delim : α) (stream : List α) (start stop : ℕ) : Prop extends
    IsClosed delim stream start stop where
  opened : AtStart delim stream start

theorem slice_self (stream : List α) (start : ℕ) : slice stream start start = [] := by
  simp [slice]

theorem slice_succ (hle : start ≤ stop) (hx : stream[stop]? = some x) :
    slice stream start (stop + 1) = slice stream start stop ++ [x] := by
  have hlt : stop < stream.length := (List.getElem?_eq_some_iff.mp hx).1
  have hlen : start ≤ (stream.take stop).length := by
    rw [List.length_take]
    omega
  unfold slice
  rw [List.take_add_one, hx, Option.toList_some, List.drop_append_of_le_length hlen]

theorem slice_ne_nil (h : slice stream start stop ≠ []) : start < stop := by
  by_contra hle
  apply h
  rw [slice, List.drop_eq_nil_iff, List.length_take]
  omega

theorem atStart_zero : AtStart delim stream 0 := by
  intro i hi
  omega

theorem atStart_succ (h : stream[stop]? = some delim) : AtStart delim stream (stop + 1) := by
  intro i hi
  obtain rfl : i = stop := by omega
  exact h

/-- The reader began at `start`, has come to `position`, met no delimiter, and holds what it read. -/
structure Collecting (delim : α) (stream : List α) (start position : ℕ) (buffer : List α) : Prop where
  le : start ≤ position
  within : position ≤ stream.length
  holds : buffer = slice stream start position
  free : ∀ i, start ≤ i → i < position → stream[i]? ≠ some delim

namespace Collecting

theorem restart (h : position ≤ stream.length) : Collecting delim stream position position [] :=
  ⟨le_rfl, h, (slice_self _ _).symm, fun i h h' => by omega⟩

theorem push (h : Collecting delim stream start position buffer) (hx : stream[position]? = some x)
    (hne : x ≠ delim) : Collecting delim stream start (position + 1) (buffer ++ [x]) := by
  refine ⟨Nat.le_succ_of_le h.le, (List.getElem?_eq_some_iff.mp hx).1, ?_, fun i hi hi' => ?_⟩
  · rw [slice_succ h.le hx, h.holds]
  · rcases Nat.lt_succ_iff_lt_or_eq.mp hi' with hlt | rfl
    · exact h.free i hi hlt
    · rw [hx]
      simpa using hne

theorem isClosed (h : Collecting delim stream start position buffer)
    (hx : stream[position]? = some delim) : IsClosed delim stream start position :=
  ⟨h.le, hx, h.free⟩

/-- What the reader holds at a delimiter is a segment exactly when it began at the start of one. -/
theorem isSegment_iff (h : Collecting delim stream start position buffer)
    (hx : stream[position]? = some delim) :
    IsSegment delim stream start position ↔ AtStart delim stream start :=
  ⟨fun hs => hs.opened, fun ho => ⟨h.isClosed hx, ho⟩⟩

/-- A reader that has read something is not at the start of a segment. -/
theorem not_atStart (h : Collecting delim stream start position buffer) (hne : buffer ≠ []) :
    ¬ AtStart delim stream position := by
  have hlt : start < position := slice_ne_nil (h.holds ▸ hne)
  intro ho
  exact h.free (position - 1) (by omega) (by omega) (ho (position - 1) (by omega))

/-- A reader that holds nothing has not moved since it began. -/
theorem start_eq_of_nil (h : Collecting delim stream start position buffer) (hnil : buffer = []) :
    start = position := by
  have hslice : slice stream start position = [] := h.holds.symm.trans hnil
  rw [slice, List.drop_eq_nil_iff, List.length_take] at hslice
  have hle := h.le
  have hlen := h.within
  omega

end Collecting

end DenonAvr.Library
