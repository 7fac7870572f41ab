import DenonAvr.Library.Machine

/-!
# Machines that run down

Some of a machine's steps are work: they use up what the other steps bring in. A measure that no step of a run
raises, and that the steps in question lower, bounds how many of them the run takes (`countP_add_le`). When
every piece of work lowers it, work alone runs down: what is left of the measure bounds the work that can still be
done (`Lowers.length_add_le`), and some run of work ends where none is possible (`Lowers.exists_idle`).
-/

namespace DenonAvr.Library.Machine

variable {σ α : Type*} {M : Machine σ α} {s s' : σ} {acts : List α} {rank : σ → ℕ}

/-- A measure that no step raises and the steps that `p` picks lower bounds how often a run takes these. -/
theorem countP_add_le {p : α → Bool}
    (hstep : ∀ s a s', M.Reachable s → M.step s a = some s' → rank s' + (if p a then 1 else 0) ≤ rank s)
    (h : M.Reachable s) (hexec : M.exec s acts = some s') : acts.countP p + rank s' ≤ rank s := by
  refine (exec_induction M (P := fun acts s' => M.Reachable s' ∧ acts.countP p + rank s' ≤ rank s) ⟨h, by simp⟩
    (fun acts m a m' _ hi hm => ⟨.step hi.1 trivial hm, ?_⟩) hexec).2
  have hlower := hstep m a m' hi.1 hm
  have hsofar := hi.2
  rw [List.countP_append, List.countP_singleton]
  omega

/-- Each step of work lowers the measure. -/
def Lowers (M : Machine σ α) (work : α → Prop) (rank : σ → ℕ) : Prop :=
  ∀ s a s', M.Reachable s → work a → M.step s a = some s' → rank s' < rank s

/-- No work is possible. -/
def Idle (M : Machine σ α) (work : α → Prop) (s : σ) : Prop := ∀ a, work a → M.step s a = none

variable {work : α → Prop}

/-- A run of nothing but work is no longer than the measure says. -/
theorem Lowers.length_add_le (hlower : M.Lowers work rank) (h : M.Reachable s) (hwork : ∀ a ∈ acts, work a)
    (hexec : M.exec s acts = some s') : acts.length + rank s' ≤ rank s := by
  induction acts generalizing s with
  | nil =>
    obtain rfl : s = s' := by simpa using hexec
    simp
  | cons a acts ih =>
    obtain ⟨m, hm, hrest⟩ := Option.bind_eq_some_iff.mp hexec
    have hfirst := hlower s a m h (hwork a List.mem_cons_self) hm
    have hlater := ih (.step h trivial hm) (fun b hb => hwork b (List.mem_cons_of_mem a hb)) hrest
    rw [List.length_cons]
    omega

/-- Work can be done until there is none. -/
theorem Lowers.exists_idle (hlower : M.Lowers work rank) (h : M.Reachable s) :
    ∃ acts s', (∀ a ∈ acts, work a) ∧ M.exec s acts = some s' ∧ M.Idle work s' := by
  induction hrank : rank s using Nat.strong_induction_on generalizing s with
  | _ n ih =>
    by_cases hidle : M.Idle work s
    · exact ⟨[], s, by simp, rfl, hidle⟩
    · unfold Idle at hidle
      push Not at hidle
      obtain ⟨a, ha, hpossible⟩ := hidle
      obtain ⟨m, hm⟩ := Option.ne_none_iff_exists'.mp hpossible
      obtain ⟨acts, s', hwork, hexec, hend⟩ := ih (rank m) (hrank ▸ hlower s a m h ha hm) (.step h trivial hm) rfl
      refine ⟨a :: acts, s', fun b hb => ?_, by rw [exec_cons, hm]; exact hexec, hend⟩
      rcases List.mem_cons.mp hb with rfl | hb
      · exact ha
      · exact hwork b hb

end DenonAvr.Library.Machine
