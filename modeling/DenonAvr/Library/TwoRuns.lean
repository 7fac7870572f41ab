import DenonAvr.Library.Machine
import Mathlib.Data.Option.Basic

/-!
# Two runs side by side

What an observer may not see is a part of the actions that no observation depends on. Two runs whose actions agree on
the rest take their steps together: each is possible in one run when it is in the other, and related states stay related
(`exec_rel`). What the observer reads off related states is then the same in both runs (`exec_map_eq`).
-/

namespace DenonAvr.Library

theorem rel_bind {σ τ : Type*} {R : σ → σ → Prop} {S : τ → τ → Prop} {x y : Option σ} {f g : σ → Option τ}
    (h : Option.Rel R x y) (hnext : ∀ s t, R s t → Option.Rel S (f s) (g t)) :
    Option.Rel S (x.bind f) (y.bind g) := by
  cases h with
  | some hR => exact hnext _ _ hR
  | none => exact .none

theorem rel_map {σ τ : Type*} {R : σ → σ → Prop} {S : τ → τ → Prop} {x y : Option σ} {f g : σ → τ}
    (h : Option.Rel R x y) (hnext : ∀ s t, R s t → S (f s) (g t)) : Option.Rel S (x.map f) (y.map g) := by
  cases h with
  | some hR => exact .some (hnext _ _ hR)
  | none => exact .none

theorem rel_join {σ : Type*} {R : σ → σ → Prop} {x y z : Option σ} (hjoin : ∀ s t u, R s u → R t u → R s t)
    (hx : Option.Rel R x z) (hy : Option.Rel R y z) : Option.Rel R x y := by
  cases hx with
  | some hR =>
    cases hy with
    | some hR' => exact .some (hjoin _ _ _ hR hR')
  | none =>
    cases hy with
    | none => exact .none

namespace Machine

variable {σ α ε ω : Type*} {M : Machine σ α} {R : σ → σ → Prop} {kept : α → ε} {s t : σ} {acts acts' : List α}

/-- **The rule for two runs.** What one step keeps between two states, for actions that agree on what is kept of them, the
rest of the two runs keeps. -/
theorem exec_rel (hstep : ∀ s t a b, R s t → kept a = kept b → Option.Rel R (M.step s a) (M.step t b)) (h : R s t)
    (hacts : acts.map kept = acts'.map kept) : Option.Rel R (M.exec s acts) (M.exec t acts') := by
  induction acts generalizing acts' s t with
  | nil =>
    obtain rfl := List.map_eq_nil_iff.mp hacts.symm
    exact .some h
  | cons a acts ih =>
    obtain ⟨b, rest, rfl, hkept, hrest⟩ := List.map_eq_cons_iff.mp hacts.symm
    rw [exec_cons, exec_cons]
    exact rel_bind (hstep s t a b h hkept.symm) fun s' t' h' => ih h' hrest.symm

theorem exec_map_eq (hstep : ∀ s t a b, R s t → kept a = kept b → Option.Rel R (M.step s a) (M.step t b)) (h : R s t)
    (hacts : acts.map kept = acts'.map kept) (observe : σ → ω) (hobserve : ∀ s t, R s t → observe s = observe t) :
    (M.exec s acts).map observe = (M.exec t acts').map observe := by
  have hrel := exec_rel hstep h hacts
  revert hrel
  generalize M.exec s acts = last, M.exec t acts' = last'
  intro hrel
  cases hrel with
  | some hR => exact congrArg some (hobserve _ _ hR)
  | none => rfl

end Machine

end DenonAvr.Library
