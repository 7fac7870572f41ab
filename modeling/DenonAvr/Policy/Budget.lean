import DenonAvr.Policy.Laws

/-!
# Budgets

What a budget rule bounds when a request is allowed: a rise above the observed level stays within the budget over
the lowest level of the window.
-/

namespace DenonAvr.Policy

open Domain Library

/-! ### What a budget bounds -/

/-- The rule restricts by the budget and by nothing else. -/
def BudgetOnly (rule : Rule) (budget : Budget) : Prop :=
  rule.effect ≠ .allow ∧ rule.filter.conditions = { budget := some budget }

instance (rule : Rule) (budget : Budget) : Decidable (BudgetOnly rule budget) :=
  inferInstanceAs (Decidable (_ ∧ _))

/-- **What is allowed stays within the budget.** A volume target that is allowed while a budget rule applies is
judged against a usable level, and if it is above that level it is at most the rise above the floor. -/
theorem within_budget_of_allow {input : PolicyInput} {config : PolicyConfig} {baseline : Finset CoreField}
    {rule : Rule} {budget : Budget} {target : Level} (hallow : evaluate input config = .allow baseline)
    (hrule : rule ∈ config.rules) (happlies : applies input rule = true) (hbudget : BudgetOnly rule budget)
    (htarget : targetOf input.intent = some target) :
    ∃ observed, observedVolume input.state = some observed ∧ (observed < target →
      target.above (floorInWindow observed input.recent input.now budget.window) ≤ budget.rise.val) := by
  have hnone := (effect_eq_allow_iff.mp (by rw [hallow]; rfl)).1 rule hrule
  have hnot : ¬ Holds rule.filter.conditions input (observedVolume input.state) (some target) :=
    fun hholds => hbudget.1 (hnone ⟨happlies, htarget ▸ hholds⟩)
  rw [hbudget.2] at hnot
  by_contra hover
  push Not at hover
  refine hnot ⟨by simp, by simp, fun budget' hbudget' => ⟨target, rfl, fun observed hobserved => ?_⟩, by simp⟩
  obtain rfl : budget = budget' := Option.some.inj hbudget'
  exact hover observed hobserved

end DenonAvr.Policy
