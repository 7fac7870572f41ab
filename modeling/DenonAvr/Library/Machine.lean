import Mathlib.Tactic
import Mathlib.Order.RelClasses

/-!
# Machines and their runs

A `Machine` is a state with a partial step function: an action is either taken, with one result, or
not possible. Nondeterminism is in the choice of the action, so a run is a list of actions and
`exec` evaluates it. A tuple of concurrent parties is one machine whose actions name the party that
moves; every interleaving is then some list of actions.

`ReachableBy M C` is reachability by steps that all meet the side condition `C`, a relation between
the state before the step and the action. `Reachable` is the unconditional case. Invariants are
proved once per step (`ReachableBy.invariant`), and one machine simulates another when each
of its steps is matched by some run of the other (`Simulates.reachable`).
-/

namespace DenonAvr.Library

/-- A state machine with a partial step function. -/
structure Machine (σ α : Type*) where
  init : σ → Prop
  step : σ → α → Option σ

namespace Machine

variable {σ α : Type*} (M : Machine σ α)

/-- The state after a list of actions, if each of them was possible. -/
def exec (s : σ) : List α → Option σ
  | [] => some s
  | a :: acts => (M.step s a).bind fun s' => exec s' acts

@[simp] theorem exec_nil (s : σ) : M.exec s [] = some s := rfl

theorem exec_cons (s : σ) (a : α) (acts : List α) :
    M.exec s (a :: acts) = (M.step s a).bind fun s' => M.exec s' acts := rfl

@[simp] theorem exec_singleton (s : σ) (a : α) : M.exec s [a] = M.step s a := by
  rw [exec_cons]
  cases M.step s a <;> rfl

theorem exec_append (s : σ) (acts acts' : List α) :
    M.exec s (acts ++ acts') = (M.exec s acts).bind fun s' => M.exec s' acts' := by
  induction acts generalizing s with
  | nil => rfl
  | cons a acts ih =>
    simp only [List.cons_append, exec_cons, Option.bind_assoc]
    congr 1; funext s'; exact ih s'

theorem exec_concat (s : σ) (acts : List α) (a : α) :
    M.exec s (acts ++ [a]) = (M.exec s acts).bind fun s' => M.step s' a := by
  rw [exec_append]
  congr 1; funext s'
  exact M.exec_singleton s' a

/-- Induction on a run from its end: what the empty run has, and a further step keeps, every run has. -/
theorem exec_induction {P : List α → σ → Prop} {s : σ} (nil : P [] s)
    (snoc : ∀ acts m a m', M.exec s acts = some m → P acts m → M.step m a = some m' →
      P (acts ++ [a]) m')
    {acts : List α} {s' : σ} (h : M.exec s acts = some s') : P acts s' := by
  induction acts using List.reverseRecOn generalizing s' with
  | nil =>
    obtain rfl : s = s' := by simpa using h
    exact nil
  | append_singleton acts a ih =>
    rw [exec_concat] at h
    obtain ⟨m, hm, hstep⟩ := Option.bind_eq_some_iff.mp h
    exact snoc acts m a s' hm (ih hm) hstep

/-- Step number `k` of the run was the action `a`, taken in the state `m`. -/
def Took (s : σ) (acts : List α) (k : ℕ) (m : σ) (a : α) : Prop :=
  acts[k]? = some a ∧ M.exec s (acts.take k) = some m

variable {M} in
theorem Took.lt {s : σ} {acts : List α} {k : ℕ} {m : σ} {a : α} (h : M.Took s acts k m a) :
    k < acts.length :=
  (List.getElem?_eq_some_iff.mp h.1).1

/-- The steps of a longer run are those of the shorter one and the last. -/
theorem took_concat {s : σ} {acts : List α} {b : α} {k : ℕ} {m : σ} {a : α} :
    M.Took s (acts ++ [b]) k m a ↔
      M.Took s acts k m a ∨ k = acts.length ∧ a = b ∧ M.exec s acts = some m := by
  unfold Took
  rcases lt_trichotomy k acts.length with hlt | heq | hgt
  · rw [List.getElem?_append_left hlt, List.take_append_of_le_length hlt.le]
    exact ⟨.inl, fun h => h.resolve_right fun h' => hlt.ne h'.1⟩
  · subst heq
    rw [List.getElem?_concat_length, List.take_left, List.getElem?_eq_none le_rfl]
    simp [eq_comm]
  · rw [List.getElem?_eq_none (by simp; omega), List.getElem?_eq_none hgt.le]
    simp [hgt.ne']

/-- The same, giving up at the first step that does not meet the side condition `C`. -/
def execBy (C : σ → α → Prop) [∀ s a, Decidable (C s a)] (s : σ) : List α → Option σ
  | [] => some s
  | a :: acts => if C s a then (M.step s a).bind fun s' => execBy C s' acts else none

/-- Reachable from an initial state by steps that all meet `C`. -/
inductive ReachableBy (C : σ → α → Prop) : σ → Prop
  | init {s : σ} (h : M.init s) : ReachableBy C s
  | step {s s' : σ} {a : α} (hs : ReachableBy C s) (hc : C s a) (h : M.step s a = some s') :
      ReachableBy C s'

/-- Reachable from an initial state. -/
def Reachable (s : σ) : Prop := M.ReachableBy (fun _ _ => True) s

variable {M}

theorem ReachableBy.reachable {C : σ → α → Prop} {s : σ} (h : M.ReachableBy C s) : M.Reachable s := by
  induction h with
  | init h => exact .init h
  | step _ _ hstep ih => exact .step ih trivial hstep

theorem ReachableBy.mono {C C' : σ → α → Prop} (hC : ∀ s a, C s a → C' s a) {s : σ}
    (h : M.ReachableBy C s) : M.ReachableBy C' s := by
  induction h with
  | init h => exact .init h
  | step _ hc hstep ih => exact .step ih (hC _ _ hc) hstep

/-- **The invariant rule.** What holds at the start and is kept by every step that meets `C`, in a
state already known to be reachable, holds in every state reached. -/
theorem ReachableBy.invariant {C : σ → α → Prop} {I : σ → Prop} (hinit : ∀ s, M.init s → I s)
    (hstep : ∀ s a s', M.ReachableBy C s → C s a → I s → M.step s a = some s' → I s')
    {s : σ} (h : M.ReachableBy C s) : I s := by
  induction h with
  | init h => exact hinit _ h
  | step hs hc hstep' ih => exact hstep _ _ _ hs hc ih hstep'

/-- The invariant rule without a side condition. -/
theorem Reachable.invariant {I : σ → Prop} (hinit : ∀ s, M.init s → I s)
    (hstep : ∀ s a s', M.Reachable s → I s → M.step s a = some s' → I s')
    {s : σ} (h : M.Reachable s) : I s :=
  ReachableBy.invariant hinit (fun s a s' hs _ hi he => hstep s a s' hs hi he) h

/-- The invariant rule for the rest of a run. -/
theorem ReachableBy.execBy_invariant {C : σ → α → Prop} [∀ s a, Decidable (C s a)] {I : σ → Prop}
    (hstep : ∀ s a s', M.ReachableBy C s → C s a → I s → M.step s a = some s' → I s') {s s' : σ} {acts : List α}
    (h : M.ReachableBy C s) (hI : I s) (hexec : M.execBy C s acts = some s') : M.ReachableBy C s' ∧ I s' := by
  induction acts generalizing s with
  | nil =>
    obtain rfl : s = s' := by simpa [Machine.execBy] using hexec
    exact ⟨h, hI⟩
  | cons a acts ih =>
    unfold Machine.execBy at hexec
    split_ifs at hexec with hc
    obtain ⟨s₁, hfirst, hrest⟩ := Option.bind_eq_some_iff.mp hexec
    exact ih (.step h hc hfirst) (hstep s a s₁ h hc hI hfirst) hrest

theorem ReachableBy.execBy {C : σ → α → Prop} [∀ s a, Decidable (C s a)] {s s' : σ} {acts : List α}
    (h : M.ReachableBy C s) (hexec : M.execBy C s acts = some s') : M.ReachableBy C s' :=
  (h.execBy_invariant (I := fun _ => True) (fun _ _ _ _ _ _ _ => trivial) trivial hexec).1

/-- A run from a reachable state reaches its result. -/
theorem Reachable.exec {s s' : σ} {acts : List α} (h : M.Reachable s)
    (hexec : M.exec s acts = some s') : M.Reachable s' :=
  exec_induction M (P := fun _ s' => M.Reachable s') h
    (fun _ _ _ _ _ hm hstep => .step hm trivial hstep) hexec

/-- Evaluating a run from an initial state shows that its result is reachable. -/
theorem reachable_of_exec (s : σ) (acts : List α) {s' : σ} (h : M.init s)
    (hexec : M.exec s acts = some s') : M.Reachable s' :=
  Reachable.exec (.init h) hexec

theorem reachableBy_of_execBy {C : σ → α → Prop} [∀ s a, Decidable (C s a)] (s : σ) (acts : List α)
    {s' : σ} (h : M.init s) (hexec : M.execBy C s acts = some s') : M.ReachableBy C s' :=
  ReachableBy.execBy (.init h) hexec

/-! ### Simulation -/

variable {τ β : Type*} {N : Machine τ β}

/-- `M` refines `N` along the relation `R`: initial states are related to initial states, and a step
of `M` from a reachable state is matched by a run of `N`, which may be empty. -/
structure Simulates (M : Machine σ α) (N : Machine τ β) (R : σ → τ → Prop) : Prop where
  init : ∀ s, M.init s → ∃ t, N.init t ∧ R s t
  step : ∀ s a s' t, M.Reachable s → N.Reachable t → R s t → M.step s a = some s' →
    ∃ acts t', N.exec t acts = some t' ∧ R s' t'

/-- Every reachable state of the refining machine is related to a reachable state of the refined one. -/
theorem Simulates.reachable {R : σ → τ → Prop} (h : Simulates M N R) {s : σ} (hs : M.Reachable s) :
    ∃ t, N.Reachable t ∧ R s t := by
  refine Reachable.invariant (I := fun s => ∃ t, N.Reachable t ∧ R s t) ?_ ?_ hs
  · intro s hinit
    obtain ⟨t, ht, hR⟩ := h.init s hinit
    exact ⟨t, .init ht, hR⟩
  · rintro s a s' hs ⟨t, ht, hR⟩ hstep
    obtain ⟨acts, t', hexec, hR'⟩ := h.step s a s' t hs ht hR hstep
    exact ⟨t', ht.exec hexec, hR'⟩

end Machine

end DenonAvr.Library
