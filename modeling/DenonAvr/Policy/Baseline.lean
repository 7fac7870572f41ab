import DenonAvr.Policy.Evaluate

/-!
# What a decision depends on

A decision looks at the receiver state through one reading, the observed volume, and only through rules
that both apply to the request and have a condition on the volume. `readSet` names the volume as soon as
there is one such rule, matched or not; so two states that show the fields of `readSet` alike get the same
decision (`evaluate_congr_of_readSet`). A captured precondition fixes exactly those fields, which turns
this into the statement a session relies on: as long as the precondition holds, judging again would
decide the same.
-/

namespace DenonAvr.Policy

open Domain

/-- The same request, judged on another state. -/
def PolicyInput.onState (input : PolicyInput) (state : ReceiverState) : PolicyInput := { input with state }

section OnState
variable {input : PolicyInput} {rule : Rule} {state : ReceiverState}

@[simp] theorem applies_onState : applies (input.onState state) rule = applies input rule := rfl

@[simp] theorem classifies_onState : classifies (input.onState state) rule = classifies input rule := rfl

@[simp] theorem reads_onState : reads (input.onState state) rule = reads input rule := rfl

@[simp] theorem readSet_onState {config : PolicyConfig} :
    readSet (input.onState state) config = readSet input config := rfl

theorem observedVolume_congr {s s' : ReceiverState}
    (h : FieldBaseline.capture s .volume = FieldBaseline.capture s' .volume) :
    observedVolume s = observedVolume s' := by
  simp only [observedVolume, h]

/-- A rule without a condition on the volume is tested the same whatever was observed. -/
theorem test_congr_of_not_readsVolume (observed observed' target : Option Level)
    (h : rule.filter.conditions.readsVolume = false) :
    test rule input observed target = test rule input observed' target := by
  simp only [Conditions.readsVolume, Bool.or_eq_false_iff, Option.isSome_eq_false_iff,
    Option.isNone_iff_eq_none] at h
  obtain ⟨⟨hincrease, hbudget⟩, hloud⟩ := h
  simp only [test, testIncrease, testBudget, testLoud, hincrease, hbudget, hloud]

/-- A rule that reads the volume only when the two states show it alike hits both alike. -/
theorem hit_onState
    (h : reads input rule = true → observedVolume state = observedVolume input.state) :
    hit (input.onState state) rule = hit input rule := by
  have htest : applies input rule = true →
      test rule input (observedVolume state) (targetOf input.intent) =
        test rule input (observedVolume input.state) (targetOf input.intent) := by
    intro happlies
    cases hreads : rule.filter.conditions.readsVolume with
    | true => rw [h (by simp [reads, happlies, hreads])]
    | false => exact test_congr_of_not_readsVolume _ _ _ hreads
  unfold hit
  rw [applies_onState]
  cases happlies : applies input rule with
  | false => rfl
  | true => exact if_congr Iff.rfl (congrArg _ (htest happlies)) rfl

end OnState

/-- **A decision depends on the fields it reads.** Two states that show them alike are judged alike,
whatever the decision is. -/
theorem evaluate_congr_of_readSet {input : PolicyInput} {config : PolicyConfig} {state : ReceiverState}
    (h : ∀ f ∈ readSet input config,
      FieldBaseline.capture state f = FieldBaseline.capture input.state f) :
    evaluate (input.onState state) config = evaluate input config := by
  have hhits : hits (input.onState state) config = hits input config := by
    refine List.filterMap_congr fun rule hrule => hit_onState fun hreads => ?_
    have hany : config.rules.any (reads input) = true := List.any_eq_true.mpr ⟨rule, hrule, hreads⟩
    exact observedVolume_congr (h .volume (by simp [readSet, hany]))
  have hclassifies : classifies (input.onState state) = classifies input := rfl
  rw [evaluate_eq, evaluate_eq, hhits, hclassifies, readSet_onState]

/-- The baseline of a decision is what it read, unless the decision is final. -/
theorem baseline_evaluate {input : PolicyInput} {config : PolicyConfig} {baseline : Finset CoreField}
    (h : (evaluate input config).baseline = some baseline) : baseline = readSet input config := by
  rw [evaluate_eq] at h
  split_ifs at h <;> simp_all [Decision.baseline]

@[simp] theorem mem_baselineFields {baseline : Finset CoreField} {f : CoreField} :
    f ∈ baselineFields baseline ↔ f ∈ baseline := by
  simp [baselineFields]

/-- The same for a captured precondition: it fixes what the decision read. -/
theorem evaluate_congr_of_precondition {input : PolicyInput} {config : PolicyConfig}
    {baseline : Finset CoreField} {p : Precondition} {state : ReceiverState}
    (hbaseline : (evaluate input config).baseline = some baseline)
    (hcapture : Precondition.capture input.state (baselineFields baseline) = some p)
    (hholds : p.mismatch state = none) :
    evaluate (input.onState state) config = evaluate input config := by
  obtain rfl := baseline_evaluate hbaseline
  refine evaluate_congr_of_readSet fun f hf => ?_
  exact (Precondition.capture_eq_of_mismatch_eq_none hcapture hholds).2 f (mem_baselineFields.mpr hf)

/-- **The captured baseline suffices.** A request that was allowed on a state is decided alike, with the
same baseline, on every state in which the captured precondition still holds. -/
theorem evaluate_of_capture_of_mismatch_eq_none (config : PolicyConfig) (input : PolicyInput)
    (baseline : Finset CoreField) (p : Precondition) (state' : ReceiverState)
    (hallow : evaluate input config = .allow baseline)
    (hcapture : Precondition.capture input.state (baselineFields baseline) = some p)
    (hholds : p.mismatch state' = none) :
    evaluate { input with state := state' } config = .allow baseline := by
  rw [← hallow]
  exact evaluate_congr_of_precondition (by rw [hallow]; rfl) hcapture hholds

/-- Volume is allowed, and a rise of more than 3 dB over ten minutes needs approval. -/
def budgetedRules : List Rule :=
  [{ id := "volume", effect := .allow, filter.alternatives := [⟨.volume, none⟩] },
    { id := "slow rise", effect := .requireApproval
      filter :=
        { alternatives := [⟨.volume, none⟩]
          conditions := { budget := some ⟨⟨6, by decide⟩, 10⟩ } } }]

def budgetedPolicy : PolicyConfig := ⟨budgetedRules, 0, by decide⟩

/-- A connected receiver that shows a volume of -40 dB, and nothing else. -/
def quietReceiver (receiver : ReceiverId) : ReceiverState :=
  { receiver
    epoch := some 1
    mainZone.volume :=
      { lastGood := some ⟨receiver, 1, 0, 0, .receiverFrame, .dbHalfSteps minus40⟩
        validity := .current 10000 } }

/-- A request for -38 dB on the quiet receiver, with no earlier change. -/
def smallRise (receiver : ReceiverId) : PolicyInput :=
  { agent := "kitchen", receiver, intent := .volume (.dbHalfSteps minus38)
    state := quietReceiver receiver, recent := [], now := 1000000 }

/-- The same decision once the mute state is known as well. -/
theorem evaluate_smallRise_muted :
    evaluate
        { smallRise ⟨"avr", by decide⟩ with
          state := { quietReceiver ⟨"avr", by decide⟩ with mainZone.mute.validity := .unavailable "" } }
        budgetedPolicy =
      .allow {.volume} :=
  evaluate_of_capture_of_mismatch_eq_none budgetedPolicy (smallRise ⟨"avr", by decide⟩) {.volume}
    ((Precondition.new 1).with_ (.value (.volume (.dbHalfSteps ⟨-80, by decide⟩)))) _ (by decide)
    (by decide) (by decide)

end DenonAvr.Policy
