import Mathlib.Tactic
import Mathlib.Order.Lattice

/-!
# Floors over half-open windows

A running minimum kept as a `foldl` from a start value, and the window it is taken over. The window
`now - width < at` is the computable form with truncated subtraction; `WithinWindow`, `now < at + width`,
is what it is meant to say. They agree except for entries dated at the origin while the window still
reaches past it (`since_lt_iff`).
-/

namespace DenonAvr.Library

/-! ### The floor -/

section Floor
variable {α : Type*} [LinearOrder α]

/-- What lies under a running minimum lies under its start and under every element. -/
theorem le_foldl_min {x start : α} {levels : List α} :
    x ≤ levels.foldl min start ↔ x ≤ start ∧ ∀ level ∈ levels, x ≤ level := by
  induction levels generalizing start with
  | nil => simp
  | cons level levels ih =>
    simp only [List.foldl_cons, ih, le_min_iff, List.mem_cons, forall_eq_or_imp, and_assoc]

theorem foldl_min_le_start (start : α) (levels : List α) : levels.foldl min start ≤ start :=
  (le_foldl_min.mp le_rfl).1

theorem foldl_min_le_of_mem {start level : α} {levels : List α} (h : level ∈ levels) :
    levels.foldl min start ≤ level :=
  (le_foldl_min.mp le_rfl).2 level h

/-- A list whose elements are each covered from below has the lower floor. -/
theorem foldl_min_anti {start start' : α} {levels levels' : List α} (hstart : start' ≤ start)
    (h : ∀ level ∈ levels, start' ≤ level ∨ ∃ level' ∈ levels', level' ≤ level) :
    levels'.foldl min start' ≤ levels.foldl min start := by
  refine le_foldl_min.mpr ⟨(foldl_min_le_start _ _).trans hstart, fun level hmem => ?_⟩
  rcases h level hmem with hle | ⟨level', hmem', hle⟩
  · exact (foldl_min_le_start _ _).trans hle
  · exact (foldl_min_le_of_mem hmem').trans hle

end Floor

/-! ### The window -/

/-- `at_` is less than `width` before `now`, or later than `now`. -/
def WithinWindow (now width time : ℕ) : Prop := now < time + width

instance (now width time : ℕ) : Decidable (WithinWindow now width time) :=
  inferInstanceAs (Decidable (now < time + width))

theorem since_lt_iff {now width time : ℕ} :
    now - width < time ↔ WithinWindow now width time ∧ (width ≤ now ∨ 0 < time) := by
  unfold WithinWindow
  omega

/-- Later entries stay inside, and so do entries of a wider window. -/
theorem since_lt_mono {now width width' time time' : ℕ} (hwidth : width ≤ width') (htime : time ≤ time')
    (h : now - width < time) : now - width' < time' := by
  omega

end DenonAvr.Library
