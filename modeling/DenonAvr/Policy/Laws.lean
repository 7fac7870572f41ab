import DenonAvr.Policy.Baseline

/-!
# Laws of evaluation

What a policy means, without the loop. A rule matches when it applies and every condition it sets is exceeded or
cannot be checked (`Holds`); a decision is the strongest effect among the rules that match, `allow` needs in
addition that some rule names the intent, and everything else is unclassified.

Two facts carry every law: when a decision is a denial (`effect_eq_deny_iff`) and when it is an allowance
(`effect_eq_allow_iff`), both about the rules as a set. A change to a request or to a policy that keeps the
denials and loses no allowance it did not have before only makes a decision more severe (`effect_le_of_matches`).
-/

namespace DenonAvr.Policy

open Domain Library

/-! ### The floor -/

section Floor
variable {observed level : Level} {recent : List RecentChange} {change : RecentChange} {now : WallTime}
  {window : ℕ}

/-- The levels a change gives: the one it asked for, and the one before it when there was one. -/
def RecentChange.levels (change : RecentChange) : List Level := change.before.toList ++ [change.target]

theorem mem_levelsInWindow :
    level ∈ levelsInWindow recent now window ↔
      ∃ change ∈ recent, now.saturatingSub window < change.time ∧ level ∈ change.levels := by
  simp only [levelsInWindow, List.mem_flatMap, List.mem_filter, decide_eq_true_eq, RecentChange.levels, and_assoc]

theorem floorInWindow_le_observed (observed : Level) (recent : List RecentChange) (now : WallTime) (window : ℕ) :
    floorInWindow observed recent now window ≤ observed :=
  foldl_min_le_start _ _

theorem floorInWindow_le_of_mem (observed : Level) (hmem : change ∈ recent)
    (htime : now.saturatingSub window < change.time) (hlevel : level ∈ change.levels) :
    floorInWindow observed recent now window ≤ level :=
  foldl_min_le_of_mem (mem_levelsInWindow.mpr ⟨change, hmem, htime, hlevel⟩)


/-- Each change of `recent` is in `recent'` with the same levels, at the same time or later. -/
def Covers (recent' recent : List RecentChange) : Prop :=
  ∀ change ∈ recent, ∃ change' ∈ recent', change.time ≤ change'.time ∧ change'.levels = change.levels

theorem floorInWindow_anti {recent : List RecentChange} (h : Covers recent' recent) (observed : Level)
    (now : WallTime) (window : ℕ) :
    floorInWindow observed recent' now window ≤ floorInWindow observed recent now window := by
  refine foldl_min_anti le_rfl fun level hlevel => ?_
  obtain ⟨change, hmem, htime, hin⟩ := mem_levelsInWindow.mp hlevel
  obtain ⟨change', hmem', hle, heq⟩ := h change hmem
  exact .inr ⟨level, mem_levelsInWindow.mpr ⟨change', hmem', htime.trans_le hle, heq ▸ hin⟩, le_rfl⟩

/-- A floor depends on the levels of the window alone. -/
theorem floorInWindow_congr {recent recent' : List RecentChange}
    (h : ∀ level, level ∈ levelsInWindow recent' now window ↔ level ∈ levelsInWindow recent now window) :
    floorInWindow observed recent' now window = floorInWindow observed recent now window :=
  le_antisymm (foldl_min_anti le_rfl fun level hlevel => .inr ⟨level, (h level).mpr hlevel, le_rfl⟩)
    (foldl_min_anti le_rfl fun level hlevel => .inr ⟨level, (h level).mp hlevel, le_rfl⟩)

/-- **A decision reads the ledger through its budgets.** Two ledgers with the same levels in the window of every
budget of the policy give the same decision. -/
theorem evaluate_congr_of_levels {input : PolicyInput} {config : PolicyConfig} {recent' : List RecentChange}
    (h : ∀ rule ∈ config.rules, ∀ budget, rule.filter.conditions.budget = some budget → ∀ level,
      level ∈ levelsInWindow recent' input.now budget.window ↔ level ∈ levelsInWindow input.recent input.now budget.window) :
    evaluate { input with recent := recent' } config = evaluate input config := by
  have hbudget : ∀ rule ∈ config.rules, ∀ observed target,
      testBudget rule.filter.conditions { input with recent := recent' } observed target =
        testBudget rule.filter.conditions input observed target := by
    intro rule hrule observed target
    unfold testBudget
    cases hsome : rule.filter.conditions.budget with
    | none => rfl
    | some budget => simp only [floorInWindow_congr (h rule hrule budget hsome)]
  have hhits : hits { input with recent := recent' } config = hits input config := by
    refine List.filterMap_congr fun rule hrule => ?_
    have htest : ∀ observed target,
        test rule { input with recent := recent' } observed target = test rule input observed target := by
      intro observed target
      simp only [test, hbudget rule hrule]
    have happlies : applies { input with recent := recent' } rule = applies input rule := rfl
    simp only [hit, htest, happlies]
  have hclassifies : classifies { input with recent := recent' } = classifies input := rfl
  have hreads : readSet { input with recent := recent' } config = readSet input config := rfl
  rw [evaluate_eq, evaluate_eq, hhits, hclassifies, hreads]

end Floor

/-! ### Matching rules -/

/-- Every condition that is set is exceeded, or cannot be checked because the volume is not known. -/
structure Holds (conditions : Conditions) (input : PolicyInput) (observed target : Option Level) : Prop where
  above : ∀ limit, conditions.targetAbove = some limit → ∃ t, target = some t ∧ limit < t
  increase : ∀ limit, conditions.increaseOverBaseline = some limit →
    ∃ t, target = some t ∧ ∀ o, observed = some o → limit.val < t.above o
  budget : ∀ budget, conditions.budget = some budget → ∃ t, target = some t ∧ ∀ o, observed = some o →
    o < t ∧ budget.rise.val < t.above (floorInWindow o input.recent input.now budget.window)
  loud : ∀ limit, conditions.baselineVolumeAbove = some limit → ∀ o, observed = some o → limit < o

section Conditions
variable {conditions : Conditions} {observed target : Option Level}

theorem testTargetAbove_isSome_iff :
    (testTargetAbove conditions target).isSome = true ↔
      ∀ limit, conditions.targetAbove = some limit → ∃ t, target = some t ∧ limit < t := by
  unfold testTargetAbove
  cases conditions.targetAbove with
  | none => simp
  | some limit =>
    cases target with
    | none => simp
    | some t =>
      simp only [Option.bind_eq_bind, Option.bind_some, Option.some.injEq, forall_eq', exists_eq_left']
      split_ifs with hle
      · simp [not_lt.mpr hle]
      · simp [not_le.mp hle]

theorem testIncrease_isSome_iff :
    (testIncrease conditions observed target).isSome = true ↔
      ∀ limit, conditions.increaseOverBaseline = some limit →
        ∃ t, target = some t ∧ ∀ o, observed = some o → limit.val < t.above o := by
  unfold testIncrease
  cases conditions.increaseOverBaseline with
  | none => simp
  | some limit =>
    cases target with
    | none => simp
    | some t =>
      cases observed with
      | none => simp
      | some o =>
        simp only [Option.bind_eq_bind, Option.bind_some, Option.some.injEq, forall_eq', exists_eq_left',
          Option.any_some, decide_eq_true_eq]
        split_ifs with hle
        · simp [not_lt.mpr hle]
        · simp [not_le.mp hle]

theorem testBudget_isSome_iff {input : PolicyInput} :
    (testBudget conditions input observed target).isSome = true ↔
      ∀ budget, conditions.budget = some budget → ∃ t, target = some t ∧ ∀ o, observed = some o →
        o < t ∧ budget.rise.val < t.above (floorInWindow o input.recent input.now budget.window) := by
  unfold testBudget
  cases hbudget : conditions.budget with
  | none => simp
  | some budget =>
    cases target with
    | none => simp
    | some t =>
      cases observed with
      | none => simp
      | some o =>
        simp only [Option.bind_eq_bind, Option.bind_some, Option.some.injEq, forall_eq', exists_eq_left']
        split_ifs with hrise hwithin
        · simp [not_lt.mpr hrise]
        · simp [not_lt.mpr hwithin]
        · simp [not_le.mp hrise, not_le.mp hwithin]

theorem testLoud_isSome_iff :
    (testLoud conditions observed).isSome = true ↔
      ∀ limit, conditions.baselineVolumeAbove = some limit → ∀ o, observed = some o → limit < o := by
  unfold testLoud
  cases conditions.baselineVolumeAbove with
  | none => simp
  | some limit =>
    cases observed with
    | none => simp
    | some o =>
      simp only [Option.some.injEq, forall_eq', Option.any_some, decide_eq_true_eq]
      split_ifs with hle
      · simp [not_lt.mpr hle]
      · simp [not_le.mp hle]

end Conditions

/-- A rule is tested positive exactly when its conditions hold. -/
theorem test_isSome_iff {rule : Rule} {input : PolicyInput} {observed target : Option Level} :
    (test rule input observed target).isSome = true ↔ Holds rule.filter.conditions input observed target := by
  have hsplit : (test rule input observed target).isSome = true ↔
      (testTargetAbove rule.filter.conditions target).isSome = true ∧
      (testIncrease rule.filter.conditions observed target).isSome = true ∧
      (testBudget rule.filter.conditions input observed target).isSome = true ∧
      (testLoud rule.filter.conditions observed).isSome = true := by
    simp only [test, Option.bind_eq_bind, Option.isSome_bind, Option.any_eq_true, Option.isSome_iff_exists]
    constructor
    · rintro ⟨above, habove, increase, hincrease, budget, hbudget, loud, hloud, -⟩
      exact ⟨⟨above, habove⟩, ⟨increase, hincrease⟩, ⟨budget, hbudget⟩, ⟨loud, hloud⟩⟩
    · rintro ⟨⟨above, habove⟩, ⟨increase, hincrease⟩, ⟨budget, hbudget⟩, ⟨loud, hloud⟩⟩
      exact ⟨above, habove, increase, hincrease, budget, hbudget, loud, hloud, _, rfl⟩
  rw [hsplit, testTargetAbove_isSome_iff, testIncrease_isSome_iff, testBudget_isSome_iff, testLoud_isSome_iff]
  constructor
  · rintro ⟨above, increase, budget, loud⟩
    exact ⟨above, increase, budget, loud⟩
  · intro h
    exact ⟨h.above, h.increase, h.budget, h.loud⟩

/-- The rule applies to the request, and its conditions hold. -/
structure Matches (input : PolicyInput) (rule : Rule) : Prop where
  applies : applies input rule = true
  holds : Holds rule.filter.conditions input (observedVolume input.state) (targetOf input.intent)

/-- Some rule that covers the agent and the receiver names the intent. -/
def Classified (input : PolicyInput) (rules : List Rule) : Prop :=
  ∃ rule ∈ rules, rule.scope.matches input.agent input.receiver.value = true ∧ names rule input.intent = true

/-- No rule spoke: nothing matched, and nothing names the intent. -/
def Decision.Unclassified (decision : Decision) : Prop := decision.reasons = [.unclassified]

instance (decision : Decision) : Decidable decision.Unclassified := inferInstanceAs (Decidable (_ = _))

section Decisions
variable {input : PolicyInput} {config : PolicyConfig} {rule : Rule}

theorem hit_isSome_iff : (hit input rule).isSome = true ↔ Matches input rule ∧ rule.effect ≠ .allow := by
  unfold hit
  by_cases happlies : (applies input rule && rule.effect != .allow) = true
  · rw [if_pos happlies, Option.isSome_map, test_isSome_iff]
    simp only [Bool.and_eq_true, bne_iff_ne] at happlies
    exact ⟨fun h => ⟨⟨happlies.1, h⟩, happlies.2⟩, fun h => h.1.holds⟩
  · rw [if_neg happlies]
    simp only [Bool.and_eq_true, bne_iff_ne] at happlies
    exact ⟨fun h => absurd h (by simp), fun h => absurd ⟨h.1.applies, h.2⟩ happlies⟩

theorem fst_of_hit {found : Rule × List Reason} (h : hit input rule = some found) : found.1 = rule := by
  unfold hit at h
  split_ifs at h
  obtain ⟨reasons, -, rfl⟩ := Option.map_eq_some_iff.mp h
  rfl

theorem any_hits_deny_iff :
    ((hits input config).any fun hit => hit.1.effect == .deny) = true ↔
      ∃ rule ∈ config.rules, Matches input rule ∧ rule.effect = .deny := by
  simp only [List.any_eq_true, hits, List.mem_filterMap, beq_iff_eq]
  constructor
  · rintro ⟨found, ⟨rule, hrule, hhit⟩, heffect⟩
    obtain rfl := fst_of_hit hhit
    exact ⟨_, hrule, (hit_isSome_iff.mp (by rw [hhit]; rfl)).1, heffect⟩
  · rintro ⟨rule, hrule, hmatches, heffect⟩
    have hsome := hit_isSome_iff.mpr ⟨hmatches, by rw [heffect]; decide⟩
    obtain ⟨found, hhit⟩ := Option.isSome_iff_exists.mp hsome
    exact ⟨found, ⟨rule, hrule, hhit⟩, by rw [fst_of_hit hhit, heffect]⟩

theorem hits_eq_nil_iff_not_matches :
    hits input config = [] ↔ ∀ rule ∈ config.rules, Matches input rule → rule.effect = .allow := by
  simp only [hits, List.filterMap_eq_nil_iff]
  refine forall₂_congr fun rule _ => ?_
  rw [← Option.not_isSome_iff_eq_none, hit_isSome_iff]
  exact ⟨fun h hmatches => by_contra fun hne => h ⟨hmatches, hne⟩, fun h hboth => hboth.2 (h hboth.1)⟩

theorem any_classifies_iff : config.rules.any (classifies input) = true ↔ Classified input config.rules := by
  simp [Classified, classifies]

/-! ### When a request is denied, and when it is allowed -/

theorem effect_eq_deny_iff :
    (evaluate input config).effect = .deny ↔ ∃ rule ∈ config.rules, Matches input rule ∧ rule.effect = .deny := by
  rw [← any_hits_deny_iff, evaluate_eq]
  split_ifs with hdeny hsome hclass <;> simp [Decision.effect, hdeny]

theorem effect_eq_allow_iff :
    (evaluate input config).effect = .allow ↔
      (∀ rule ∈ config.rules, Matches input rule → rule.effect = .allow) ∧ Classified input config.rules := by
  rw [← hits_eq_nil_iff_not_matches, ← any_classifies_iff, evaluate_eq]
  split_ifs with hdeny hsome hclass
  · have hne : hits input config ≠ [] := fun hnil => by simp [hnil] at hdeny
    simp [Decision.effect, hne]
  · simp [Decision.effect, hsome]
  · simp [Decision.effect, hclass, not_not.mp hsome]
  · simp [Decision.effect, hclass]

/-- With no restriction and nobody naming the intent, a decision is unclassified. -/
theorem evaluate_eq_unclassified (hallow : ∀ rule ∈ config.rules, Matches input rule → rule.effect = .allow)
    (hclass : ¬ Classified input config.rules) :
    evaluate input config = .requireApproval [.unclassified] [] (readSet input config) := by
  rw [evaluate_eq, hits_eq_nil_iff_not_matches.mpr hallow, if_neg (by simp), if_neg (by simp),
    if_neg fun h => hclass (any_classifies_iff.mp h)]

theorem matches_or_classified_of_not_unclassified (h : ¬ (evaluate input config).Unclassified) :
    (∃ rule ∈ config.rules, Matches input rule ∧ rule.effect ≠ .allow) ∨ Classified input config.rules := by
  by_contra hneither
  push Not at hneither
  refine h ?_
  rw [evaluate_eq_unclassified hneither.1 hneither.2]
  rfl

end Decisions

/-! ### Comparing decisions -/

/-- A decision that keeps a denial and is an allowance only where there was one is at least as severe. -/
theorem Effect.le_of_deny_of_allow {effect effect' : Effect} (hdeny : effect = .deny → effect' = .deny)
    (hallow : effect' = .allow → effect = .allow) : effect ≤ effect' := by
  cases effect with
  | allow => cases effect' <;> decide
  | requireApproval => cases effect' <;> first | decide | exact absurd (hallow rfl) (by decide)
  | deny => rw [hdeny rfl]

section Compare
variable {input input' : PolicyInput} {config config' : PolicyConfig}

/-- **Comparing two decisions.** When every restriction that matched still matches, and what no restriction
matched and is classified afterwards was classified before, the second decision is at least as severe. -/
theorem effect_le_of_matches
    (hmatches : ∀ rule ∈ config.rules, Matches input rule → rule.effect ≠ .allow →
      rule ∈ config'.rules ∧ Matches input' rule)
    (hclass : (∀ rule ∈ config.rules, Matches input rule → rule.effect = .allow) →
      Classified input' config'.rules → Classified input config.rules) :
    (evaluate input config).effect ≤ (evaluate input' config').effect := by
  refine Effect.le_of_deny_of_allow (fun hdeny => ?_) fun hallow => ?_
  · obtain ⟨rule, hrule, hmatch, heffect⟩ := effect_eq_deny_iff.mp hdeny
    obtain ⟨hrule', hmatch'⟩ := hmatches rule hrule hmatch (by rw [heffect]; decide)
    exact effect_eq_deny_iff.mpr ⟨rule, hrule', hmatch', heffect⟩
  · obtain ⟨hnone, hclass'⟩ := effect_eq_allow_iff.mp hallow
    have hallowed : ∀ rule ∈ config.rules, Matches input rule → rule.effect = .allow := by
      intro rule hrule hmatch
      by_contra hne
      obtain ⟨hrule', hmatch'⟩ := hmatches rule hrule hmatch hne
      exact hne (hnone rule hrule' hmatch')
    exact effect_eq_allow_iff.mpr ⟨hallowed, hclass hallowed hclass'⟩

/-- The same policy on a request whose matching rules only grow, and that names the same intent. -/
theorem effect_le_of_matches_of_same (config : PolicyConfig)
    (hmatches : ∀ rule ∈ config.rules, Matches input rule → Matches input' rule)
    (hclass : Classified input' config.rules ↔ Classified input config.rules) :
    (evaluate input config).effect ≤ (evaluate input' config).effect :=
  effect_le_of_matches (fun rule hrule hmatch _ => ⟨hrule, hmatches rule hrule hmatch⟩) fun _ => hclass.mp

theorem Classified.mono {rules rules' : List Rule} (hsub : rules ⊆ rules') (h : Classified input rules) :
    Classified input rules' := by
  obtain ⟨rule, hrule, hnames⟩ := h
  exact ⟨rule, hsub hrule, hnames⟩

end Compare

/-! ### The meaning of a policy -/

section Meaning
variable {input : PolicyInput} {config : PolicyConfig} {rule : Rule} {recent' : List RecentChange}

/-- An allow rule that matches names the intent. -/
theorem classified_of_matches (hrule : rule ∈ config.rules) (hallow : rule.effect = .allow)
    (hmatch : Matches input rule) : Classified input config.rules := by
  have hnonempty := ((validate_spec (config.valid hrule)).allow hallow).2
  have happlies := hmatch.applies
  simp only [applies, Bool.and_eq_true, Bool.or_eq_true, List.isEmpty_iff] at happlies
  exact ⟨rule, hrule, happlies.1, happlies.2.resolve_left hnonempty⟩

/-- The effect is the strongest one among the rules that match. -/
theorem isGreatest_effect (hsome : ∃ rule ∈ config.rules, Matches input rule) :
    IsGreatest {effect | ∃ rule ∈ config.rules, Matches input rule ∧ rule.effect = effect}
      (evaluate input config).effect := by
  have hupper : ∀ rule ∈ config.rules, Matches input rule → rule.effect ≤ (evaluate input config).effect := by
    intro rule hrule hmatch
    refine Effect.le_of_deny_of_allow (fun hdeny => ?_) fun hallow => ?_
    · exact effect_eq_deny_iff.mpr ⟨rule, hrule, hmatch, hdeny⟩
    · exact (effect_eq_allow_iff.mp hallow).1 rule hrule hmatch
  refine ⟨?_, fun effect ⟨rule, hrule, hmatch, heffect⟩ => heffect ▸ hupper rule hrule hmatch⟩
  obtain ⟨first, hfirst, hmatch⟩ := hsome
  by_cases hdeny : (evaluate input config).effect = .deny
  · rw [hdeny]
    exact effect_eq_deny_iff.mp hdeny
  by_cases hallow : ∀ rule ∈ config.rules, Matches input rule → rule.effect = .allow
  · have hclass := classified_of_matches hfirst (hallow first hfirst hmatch) hmatch
    rw [effect_eq_allow_iff.mpr ⟨hallow, hclass⟩]
    exact ⟨first, hfirst, hmatch, hallow first hfirst hmatch⟩
  -- a restriction matched and none denies, so both it and the decision ask for approval
  push Not at hallow
  obtain ⟨rule, hrule, hmatch, hne⟩ := hallow
  have hrestrict : rule.effect = .requireApproval := by
    cases heffect : rule.effect with
    | allow => exact absurd heffect hne
    | requireApproval => rfl
    | deny => exact absurd (effect_eq_deny_iff.mpr ⟨rule, hrule, hmatch, heffect⟩) hdeny
  refine ⟨rule, hrule, hmatch, le_antisymm (hupper rule hrule hmatch) ?_⟩
  rw [hrestrict]
  exact Effect.le_of_deny_of_allow (fun h => absurd h hdeny) fun h => absurd h (by decide)

theorem Covers.of_subset {recent : List RecentChange} (h : recent ⊆ recent') : Covers recent' recent :=
  fun change hchange => ⟨change, h hchange, le_rfl, rfl⟩

/-- The conditions of a rule that hold keep holding under a ledger that covers the one before. -/
theorem Matches.of_covers (hcovers : Covers recent' input.recent) (h : Matches input rule) :
    Matches { input with recent := recent' } rule := by
  refine ⟨h.applies, h.holds.above, h.holds.increase, fun budget hbudget => ?_, h.holds.loud⟩
  obtain ⟨t, htarget, hover⟩ := h.holds.budget budget hbudget
  refine ⟨t, htarget, fun o hobserved => ⟨(hover o hobserved).1, (hover o hobserved).2.trans_le ?_⟩⟩
  have hfloor := Level.le_iff.mp (floorInWindow_anti hcovers o input.now budget.window)
  exact Int.sub_le_sub_left hfloor _

/-- **A decision is monotone in the ledger.** Under a ledger that covers the one it was judged by, a request is
decided at least as severely. -/
theorem effect_le_of_covers (config : PolicyConfig) (h : Covers recent' input.recent) :
    (evaluate input config).effect ≤ (evaluate { input with recent := recent' } config).effect :=
  effect_le_of_matches_of_same config (fun _ _ hmatch => hmatch.of_covers h) Iff.rfl

/-- The order of the rules and of the ledger does not matter. -/
theorem effect_le_of_perm {config' : PolicyConfig} (hrules : config'.rules.Perm config.rules)
    (hrecent : recent'.Perm input.recent) :
    (evaluate input config).effect ≤ (evaluate { input with recent := recent' } config').effect :=
  effect_le_of_matches
    (fun _ hrule hmatch _ => ⟨hrules.mem_iff.mpr hrule, hmatch.of_covers (.of_subset hrecent.symm.subset)⟩)
    fun _ hclass => hclass.mono hrules.subset

theorem effect_le_of_cons {config' : PolicyConfig} (hrules : config'.rules.Perm (rule :: config.rules))
    (hclassified : ¬ (evaluate input config).Unclassified) :
    (evaluate input config).effect ≤ (evaluate input config').effect := by
  refine effect_le_of_matches
    (fun r hr hmatch _ => ⟨hrules.mem_iff.mpr (List.mem_cons_of_mem _ hr), hmatch⟩) fun hnone _ => ?_
  rcases matches_or_classified_of_not_unclassified hclassified with ⟨r, hr, hmatch, hne⟩ | hclass
  · exact absurd (hnone r hr hmatch) hne
  · exact hclass

theorem effect_le_of_cons_allow {config' : PolicyConfig} (hrules : config'.rules.Perm (rule :: config.rules))
    (hallow : rule.effect = .allow) : (evaluate input config').effect ≤ (evaluate input config).effect := by
  refine effect_le_of_matches (fun r hr hmatch hne => ⟨?_, hmatch⟩) fun _ hclass =>
    hclass.mono fun r hr => hrules.mem_iff.mpr (List.mem_cons_of_mem _ hr)
  rcases List.mem_cons.mp (hrules.mem_iff.mp hr) with rfl | hr
  · exact absurd hallow hne
  · exact hr

end Meaning

/-- **What evaluation decides.** The effect is the strongest one among the rules that match; with no restriction
matched, a request is allowed when some rule names it and is unclassified otherwise. The order of the rules and of
the ledger does not matter, one more rule weakens nothing that was classified, and one more allow rule changes
nothing that was. -/
theorem evaluate_lawful (input : PolicyInput) (config : PolicyConfig) :
    ((∃ rule ∈ config.rules, Matches input rule) →
      IsGreatest {effect | ∃ rule ∈ config.rules, Matches input rule ∧ rule.effect = effect}
        (evaluate input config).effect) ∧
    ((∀ rule ∈ config.rules, Matches input rule → rule.effect = .allow) →
      (Classified input config.rules → (evaluate input config).effect = .allow) ∧
      (¬ Classified input config.rules →
        (evaluate input config).effect = .requireApproval ∧ (evaluate input config).Unclassified)) ∧
    (∀ (config' : PolicyConfig) recent', config'.rules.Perm config.rules → recent'.Perm input.recent →
      (evaluate { input with recent := recent' } config').effect = (evaluate input config).effect) ∧
    (∀ (rule : Rule) (config' : PolicyConfig), config'.rules.Perm (rule :: config.rules) →
      ¬ (evaluate input config).Unclassified →
      (evaluate input config).effect ≤ (evaluate input config').effect) ∧
    (∀ (rule : Rule) (config' : PolicyConfig), config'.rules.Perm (rule :: config.rules) → rule.effect = .allow →
      (evaluate input config').effect ≠ (evaluate input config).effect →
      (evaluate input config).Unclassified) := by
  refine ⟨isGreatest_effect, fun hnone => ⟨fun hclass => ?_, fun hclass => ?_⟩, fun config' recent' hrules hrecent => ?_,
    fun rule config' => effect_le_of_cons, fun rule config' hrules hallow hne => ?_⟩
  · exact effect_eq_allow_iff.mpr ⟨hnone, hclass⟩
  · rw [evaluate_eq_unclassified hnone hclass]
    exact ⟨rfl, rfl⟩
  · exact le_antisymm (effect_le_of_perm hrules.symm hrecent.symm) (effect_le_of_perm hrules hrecent)
  · by_contra hclassified
    exact hne (le_antisymm (effect_le_of_cons_allow hrules hallow) (effect_le_of_cons hrules hclassified))

/-! ### Asking for more, and knowing less -/

/-- The request for another volume. -/
def PolicyInput.onTarget (input : PolicyInput) (volume : MasterVolume) : PolicyInput :=
  { input with intent := .volume volume }

section Volume
variable {input : PolicyInput} {rule : Rule} {volume volume' : MasterVolume}

/-- A level above another one is at least as far above any third. -/
theorem Level.above_mono {level level' : Level} (h : level ≤ level') (floor : Level) :
    level.above floor ≤ level'.above floor :=
  Int.sub_le_sub_right (Level.le_iff.mp h) _

/-- What a quieter target exceeds, a louder one exceeds. -/
theorem Matches.of_target_le (hle : Level.of volume ≤ Level.of volume') (h : Matches (input.onTarget volume) rule) :
    Matches (input.onTarget volume') rule := by
  refine ⟨h.applies, fun limit hlimit => ?_, fun limit hlimit => ?_, fun budget hbudget => ?_, h.holds.loud⟩
  · obtain ⟨t, htarget, hover⟩ := h.holds.above limit hlimit
    obtain rfl := Option.some.inj htarget
    exact ⟨_, rfl, hover.trans_le hle⟩
  · obtain ⟨t, htarget, hover⟩ := h.holds.increase limit hlimit
    obtain rfl := Option.some.inj htarget
    exact ⟨_, rfl, fun o hobserved => (hover o hobserved).trans_le (Level.above_mono hle o)⟩
  · obtain ⟨t, htarget, hover⟩ := h.holds.budget budget hbudget
    obtain rfl := Option.some.inj htarget
    refine ⟨_, rfl, fun o hobserved => ?_⟩
    obtain ⟨hrise, hexceeds⟩ := hover o hobserved
    exact ⟨hrise.trans_le hle, hexceeds.trans_le (Level.above_mono hle _)⟩

/-- Without a usable volume, a condition that held still holds: it can no longer be checked. -/
theorem Matches.of_unusable {state : ReceiverState} (hunusable : observedVolume state = none)
    (h : Matches input rule) : Matches { input with state } rule := by
  have hnone {o : Level} : observedVolume state ≠ some o := by simp [hunusable]
  refine ⟨h.applies, h.holds.above, fun limit hlimit => ?_, fun budget hbudget => ?_,
    fun limit _ o hobserved => absurd hobserved hnone⟩
  · obtain ⟨t, htarget, -⟩ := h.holds.increase limit hlimit
    exact ⟨t, htarget, fun o hobserved => absurd hobserved hnone⟩
  · obtain ⟨t, htarget, -⟩ := h.holds.budget budget hbudget
    exact ⟨t, htarget, fun o hobserved => absurd hobserved hnone⟩

end Volume

/-- **Asking for more is never decided more mildly.** -/
theorem severity_le_of_target_le (input : PolicyInput) (config : PolicyConfig) (volume volume' : MasterVolume)
    (hle : Level.of volume ≤ Level.of volume') :
    (evaluate (input.onTarget volume) config).effect.severity ≤
      (evaluate (input.onTarget volume') config).effect.severity :=
  Effect.le_iff.mp (effect_le_of_matches_of_same config (fun _ _ hmatch => hmatch.of_target_le hle) Iff.rfl)

/-- On the quiet receiver, -38 dB is judged no more mildly than -40 dB. -/
theorem severity_le_of_target_le_smallRise :
    (evaluate ((smallRise ⟨"avr", by decide⟩).onTarget (.dbHalfSteps minus40)) budgetedPolicy).effect.severity ≤
      (evaluate ((smallRise ⟨"avr", by decide⟩).onTarget (.dbHalfSteps minus38)) budgetedPolicy).effect.severity :=
  severity_le_of_target_le _ _ _ _ (by decide)

/-- The volume is not shown as current: it was never read, or it is stale or unavailable. -/
def Unusable (state : ReceiverState) : Prop :=
  state.mainZone.volume.Current → state.mainZone.volume.lastGood = none

theorem observedVolume_eq_none {state : ReceiverState} (h : Unusable state) : observedVolume state = none := by
  have hnone : FieldBaseline.usableIn state .volume = none := by
    cases husable : FieldBaseline.usableIn state .volume with
    | none => rfl
    | some v =>
      obtain ⟨o, hgood, -, hcurrent⟩ := usable_some husable
      exact absurd (h hcurrent) (by simp [hgood])
  simp [observedVolume, FieldBaseline.capture, hnone]

/-- One ledger is the other with some of its changes dated later. -/
def MovedLater (recent recent' : List RecentChange) : Prop :=
  List.Forall₂ (fun change change' =>
    change.time ≤ change'.time ∧ change'.before = change.before ∧ change'.target = change.target) recent recent'

theorem MovedLater.covers {recent recent' : List RecentChange} (h : MovedLater recent recent') :
    Covers recent' recent := by
  induction h with
  | nil => exact fun _ hmem => absurd hmem List.not_mem_nil
  | @cons change change' _ _ hmoved _ ih =>
    intro c hc
    rcases List.mem_cons.mp hc with rfl | hc
    · exact ⟨change', List.mem_cons_self, hmoved.1, by simp [RecentChange.levels, hmoved.2]⟩
    · obtain ⟨c', hmem, hcovered⟩ := ih c hc
      exact ⟨c', List.mem_cons_of_mem _ hmem, hcovered⟩

/-- **Knowing less is never decided more mildly**, nor is a ledger that counts more changes or later ones. -/
theorem effect_le_of_less_known (input : PolicyInput) (config : PolicyConfig) :
    (∀ state, Unusable state →
      (evaluate input config).effect ≤ (evaluate { input with state } config).effect) ∧
    (∀ recent', input.recent ⊆ recent' →
      (evaluate input config).effect ≤ (evaluate { input with recent := recent' } config).effect) ∧
    (∀ recent', MovedLater input.recent recent' →
      (evaluate input config).effect ≤ (evaluate { input with recent := recent' } config).effect) := by
  refine ⟨fun state hunusable => ?_, fun recent' hsub => ?_, fun recent' hmoved => ?_⟩
  · exact effect_le_of_matches_of_same config
      (fun _ _ hmatch => hmatch.of_unusable (observedVolume_eq_none hunusable)) Iff.rfl
  · exact effect_le_of_covers config (.of_subset hsub)
  · exact effect_le_of_covers config hmoved.covers

end DenonAvr.Policy
