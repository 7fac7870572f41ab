import Mathlib.Tactic
import Mathlib.Data.List.Sort

/-!
# Evicting from the front

What is left of a list when the first `n` of its elements that may go are dropped. Everything that may not go stays,
and what goes is the front of what may: in an ascending list, nothing goes that is above something that may go and
stays.
-/

namespace DenonAvr.Library

variable {α : Type*}

/-- The list without the first `n` of its elements that satisfy `p`. -/
def dropFirst (p : α → Bool) : ℕ → List α → List α
  | _, [] => []
  | n, a :: l => if 0 < n ∧ p a = true then dropFirst p (n - 1) l else a :: dropFirst p n l

section DropFirst
variable {p q : α → Bool} {n : ℕ} {l : List α} {a b : α}

theorem dropFirst_sublist (p : α → Bool) (n : ℕ) (l : List α) : (dropFirst p n l).Sublist l := by
  induction l generalizing n with
  | nil => exact .slnil
  | cons a l ih =>
    unfold dropFirst
    split_ifs
    · exact (ih (n - 1)).cons a
    · exact (ih n).cons_cons a

theorem dropFirst_congr (h : ∀ a ∈ l, p a = q a) : dropFirst p n l = dropFirst q n l := by
  induction l generalizing n with
  | nil => rfl
  | cons a l ih =>
    have hrest : ∀ m, dropFirst p m l = dropFirst q m l := fun m => ih fun x hx => h x (List.mem_cons_of_mem _ hx)
    unfold dropFirst
    rw [h a List.mem_cons_self, hrest, hrest]

@[simp] theorem dropFirst_zero : dropFirst p 0 l = l := by
  induction l with
  | nil => rfl
  | cons a l ih => simp [dropFirst, ih]

theorem length_dropFirst (p : α → Bool) (n : ℕ) (l : List α) :
    (dropFirst p n l).length + min n (l.countP p) = l.length := by
  induction l generalizing n with
  | nil => simp [dropFirst]
  | cons a l ih =>
    unfold dropFirst
    rw [List.countP_cons, List.length_cons]
    split_ifs with hdrop hp hp
    · have h := ih (n - 1)
      omega
    · exact absurd hdrop.2 hp
    · have hzero : n = 0 := Nat.eq_zero_of_not_pos fun hpos => hdrop ⟨hpos, hp⟩
      subst hzero
      simp
    · have h := ih n
      simp only [List.length_cons]
      omega

theorem mem_dropFirst_of_not (hmem : a ∈ l) (hp : p a = false) : a ∈ dropFirst p n l := by
  induction l generalizing n with
  | nil => cases hmem
  | cons b l ih =>
    unfold dropFirst
    split_ifs with hdrop
    · rcases List.mem_cons.mp hmem with rfl | hmem
      · rw [hp] at hdrop
        cases hdrop.2
      · exact ih hmem
    · rcases List.mem_cons.mp hmem with rfl | hmem
      · exact List.mem_cons_self
      · exact List.mem_cons_of_mem _ (ih hmem)

/-- The oldest go first. -/
theorem not_mem_dropFirst_of_lt [LinearOrder α] (hsorted : l.Pairwise (· < ·)) (ha : a ∈ l) (hb : b ∈ l)
    (hlt : a < b) (hp : p a = true) (hgone : b ∉ dropFirst p n l) : a ∉ dropFirst p n l := by
  induction l generalizing n with
  | nil => cases ha
  | cons x l ih =>
    obtain ⟨hfirst, hrest⟩ := List.pairwise_cons.mp hsorted
    have hb' : b ∈ l := by
      rcases List.mem_cons.mp hb with rfl | hb
      · rcases List.mem_cons.mp ha with rfl | ha
        · exact absurd hlt (lt_irrefl _)
        · exact absurd hlt (hfirst a ha).asymm
      · exact hb
    unfold dropFirst at hgone ⊢
    split_ifs at hgone ⊢ with hdrop
    · rcases List.mem_cons.mp ha with rfl | ha
      · exact fun hmem => lt_irrefl _ (hfirst _ ((dropFirst_sublist p (n - 1) l).subset hmem))
      · exact ih hrest ha hb' hgone
    · have hgone' : b ∉ dropFirst p n l := fun hmem => hgone (List.mem_cons_of_mem _ hmem)
      rcases List.mem_cons.mp ha with rfl | ha'
      · -- The first element stays although it may go, so nothing is to be dropped.
        have hzero : n = 0 := Nat.eq_zero_of_not_pos fun hpos => hdrop ⟨hpos, hp⟩
        rw [hzero, dropFirst_zero] at hgone'
        exact absurd hb' hgone'
      · intro hmem
        rcases List.mem_cons.mp hmem with rfl | hmem
        · exact lt_irrefl _ (hfirst _ ha')
        · exact ih hrest ha' hb' hgone' hmem

end DropFirst

end DenonAvr.Library
