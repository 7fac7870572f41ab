import Mathlib.Tactic

/-!
# Sliding windows

Instants in the order they come, and a bound on how many of them fall into any window of a given width (`AtMost`). The
windows are half-open: two instants that are exactly one width apart are in none together.

A limiter does not keep every instant. What it keeps need only agree with the whole history on the instants that are
younger than the width (`Recalls`), and that outlives the dropping of old ones from either end, or of all of them. When
it holds, an instant that is let through with fewer than `n` kept ones leaves at most `n` in every window
(`AtMost.push`).
-/

namespace DenonAvr.Library

/-- The instant is younger than the width. -/
def live (width now t : ℕ) : Bool := decide (now < t + width)

/-- At most `n` instants fall into any window of the width. -/
def AtMost (n width : ℕ) (times : List ℕ) : Prop :=
  ∀ start, times.countP (fun t => decide (start ≤ t ∧ t < start + width)) ≤ n

/-- What is kept agrees with the whole on the instants that are younger than the width. -/
def Recalls (width now : ℕ) (times recent : List ℕ) : Prop :=
  times.filter (live width now) = recent.filter (live width now)

section Window
variable {n width now now' t : ℕ} {times recent kept : List ℕ}

theorem live_iff : live width now t = true ↔ now < t + width := decide_eq_true_iff

theorem live_eq_false_iff : live width now t = false ↔ t + width ≤ now := by
  rw [live, decide_eq_false_iff_not, not_lt]

/-- An age is compared with the width as an end of life with the present. -/
theorem decide_age_lt (hwidth : 0 < width) (now t : ℕ) : decide (now - t < width) = live width now t := by
  unfold live
  refine decide_eq_decide.mpr ?_
  omega

theorem decide_le_age (hwidth : 0 < width) (now t : ℕ) : decide (width ≤ now - t) = !live width now t := by
  rw [← decide_age_lt hwidth, ← decide_not]
  exact decide_eq_decide.mpr not_lt.symm

theorem live_of_later (hlater : now ≤ now') (h : live width now' t = true) : live width now t = true := by
  rw [live_iff] at h ⊢
  exact hlater.trans_lt h

/-! ### What is kept -/

theorem Recalls.refl (width now : ℕ) (times : List ℕ) : Recalls width now times times := rfl

theorem Recalls.trans (h : Recalls width now times recent) (h' : Recalls width now recent kept) :
    Recalls width now times kept := Eq.trans h h'

/-- What agrees now agrees later. -/
theorem Recalls.later (h : Recalls width now times recent) (hlater : now ≤ now') :
    Recalls width now' times recent := by
  have hnarrow : ∀ l : List ℕ, (l.filter (live width now)).filter (live width now') = l.filter (live width now') := by
    intro l
    rw [List.filter_filter]
    refine List.filter_congr fun t _ => ?_
    rw [Bool.and_eq_left_iff_imp]
    exact live_of_later hlater
  unfold Recalls at h ⊢
  rw [← hnarrow times, h, hnarrow recent]

theorem Recalls.concat (h : Recalls width now times recent) (t : ℕ) :
    Recalls width now (times ++ [t]) (recent ++ [t]) := by
  unfold Recalls at h ⊢
  rw [List.filter_append, List.filter_append, h]

/-- The old ones may be dropped, -/
theorem recalls_filter (width now : ℕ) (times : List ℕ) :
    Recalls width now times (times.filter (live width now)) := by
  unfold Recalls
  rw [List.filter_filter]
  exact List.filter_congr fun t _ => (Bool.and_self _).symm

/-- and all of them when none is young. -/
theorem recalls_nil (h : ∀ t ∈ times, live width now t = false) : Recalls width now times [] :=
  List.filter_eq_nil_iff.mpr fun t ht => by rw [h t ht]; exact Bool.false_ne_true

/-- There are no more young ones than are kept. -/
theorem Recalls.countP_le (h : Recalls width now times recent) : times.countP (live width now) ≤ recent.length := by
  rw [List.countP_eq_length_filter, h]
  exact List.length_filter_le _ _

/-! ### The bound -/

theorem atMost_nil (n width : ℕ) : AtMost n width [] := fun _ => Nat.zero_le n

/-- **One more instant.** It shares a window with young instants only. -/
theorem AtMost.concat (h : AtMost n width times) (hroom : times.countP (live width now) < n) :
    AtMost n width (times ++ [now]) := by
  intro start
  rw [List.countP_append, List.countP_singleton]
  by_cases hinside : start ≤ now ∧ now < start + width
  · have hshared : times.countP (fun t => decide (start ≤ t ∧ t < start + width)) ≤ times.countP (live width now) := by
      refine List.countP_mono_left fun t _ ht => ?_
      rw [decide_eq_true_eq] at ht
      exact live_iff.mpr (hinside.2.trans_le (Nat.add_le_add_right ht.1 width))
    rw [if_pos (decide_eq_true hinside)]
    omega
  · rw [if_neg (by rwa [decide_eq_true_eq])]
    exact h start

/-- What a limiter lets through while it keeps fewer than `n`. -/
theorem AtMost.push (h : AtMost n width times) (hrecalls : Recalls width now times recent) (hroom : recent.length < n) :
    AtMost n width (times ++ [now]) :=
  h.concat (hrecalls.countP_le.trans_lt hroom)

/-! ### Instants in order -/

/-- In order, the last is the youngest. -/
theorem le_of_getLast? (hsorted : times.Pairwise (· ≤ ·)) {last : ℕ} (hlast : times.getLast? = some last) :
    ∀ t ∈ times, t ≤ last := by
  obtain ⟨front, rfl⟩ := List.getLast?_eq_some_iff.mp hlast
  intro t ht
  obtain ht | ht := List.mem_append.mp ht
  · exact (List.pairwise_append.mp hsorted).2.2 t ht last List.mem_cons_self
  · rw [List.mem_singleton.mp ht]

/-- In order, what is dropped from the front is all that is old. -/
theorem dropWhile_eq_filter_live (hsorted : times.Pairwise (· ≤ ·)) (width now : ℕ) :
    (times.dropWhile fun t => !live width now t) = times.filter (live width now) := by
  induction times with
  | nil => rfl
  | cons t times ih =>
    obtain ⟨hfirst, hrest⟩ := List.pairwise_cons.mp hsorted
    cases ht : live width now t with
    | false => rw [List.dropWhile_cons_of_pos (by simp [ht]), List.filter_cons_of_neg (by simp [ht]), ih hrest]
    | true =>
      have hall : ∀ u ∈ t :: times, live width now u = true := by
        intro u hu
        obtain rfl | hu := List.mem_cons.mp hu
        · exact ht
        · rw [live_iff] at ht ⊢
          exact ht.trans_le (Nat.add_le_add_right (hfirst u hu) width)
      rw [List.dropWhile_cons_of_neg (by simp [ht]), List.filter_eq_self.mpr hall]

theorem pairwise_concat (hsorted : times.Pairwise (· ≤ ·)) (hle : ∀ t ∈ times, t ≤ now) :
    (times ++ [now]).Pairwise (· ≤ ·) := by
  refine List.pairwise_append.mpr ⟨hsorted, List.pairwise_singleton _ _, fun t ht u hu => ?_⟩
  rw [List.mem_singleton.mp hu]
  exact hle t ht

/-! ### A limiter -/

/-- What a limiter of `n` in a window keeps of the instants that it has let through by now. -/
structure Within (n width now : ℕ) (times kept : List ℕ) : Prop where
  atMost : AtMost n width times
  recalls : Recalls width now times kept
  sorted : kept.Pairwise (· ≤ ·)
  past : ∀ t ∈ kept, t ≤ now
  short : kept.length ≤ n

theorem within_nil (n width now : ℕ) : Within n width now [] [] :=
  ⟨atMost_nil n width, .refl width now [], .nil, fun _ ht => absurd ht List.not_mem_nil, Nat.zero_le n⟩

theorem Within.later (h : Within n width now times recent) (hlater : now ≤ now') : Within n width now' times recent :=
  { h with recalls := h.recalls.later hlater, past := fun t ht => (h.past t ht).trans hlater }

/-- Old ones are forgotten. -/
theorem Within.filter (h : Within n width now times recent) :
    Within n width now times (recent.filter (live width now)) where
  atMost := h.atMost
  recalls := h.recalls.trans (recalls_filter width now recent)
  sorted := h.sorted.sublist List.filter_sublist
  past t ht := h.past t (List.mem_filter.mp ht).1
  short := (List.length_filter_le _ _).trans h.short

theorem Within.clear (h : Within n width now times recent) (hold : ∀ t ∈ recent, live width now t = false) :
    Within n width now times [] where
  atMost := h.atMost
  recalls := h.recalls.trans (recalls_nil hold)
  sorted := .nil
  past _ ht := absurd ht List.not_mem_nil
  short := Nat.zero_le n

/-- **One more is let through.** -/
theorem Within.push (h : Within n width now times recent) (hroom : recent.length < n) :
    Within n width now (times ++ [now]) (recent ++ [now]) where
  atMost := h.atMost.push h.recalls hroom
  recalls := h.recalls.concat now
  sorted := pairwise_concat h.sorted h.past
  past t ht := by
    obtain ht | ht := List.mem_append.mp ht
    · exact h.past t ht
    · exact (List.mem_singleton.mp ht).le
  short := by
    rw [List.length_append, List.length_singleton]
    exact hroom

/-- A limiter that is full has room again when its oldest instant is as old as the window is wide. -/
theorem Within.room_after {oldest : ℕ} {rest : List ℕ} (h : Within n width now times (oldest :: rest))
    (hyoung : live width now oldest = true) (hwait : now + (width - (now - oldest)) ≤ now') :
    ((oldest :: rest).filter (live width now')).length < n := by
  have hpast := h.past oldest List.mem_cons_self
  have hold : live width now' oldest = false := by
    rw [live_iff] at hyoung
    rw [live_eq_false_iff]
    omega
  rw [List.filter_cons_of_neg (by rw [hold]; exact Bool.false_ne_true)]
  have hrest := List.length_filter_le (live width now') rest
  have hshort := h.short
  rw [List.length_cons] at hshort
  omega

end Window

end DenonAvr.Library
