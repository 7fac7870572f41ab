import DenonAvr.Library.Floor
import DenonAvr.Domain.Precondition
import DenonAvr.Policy.Config

/-!
# Evaluation

Which rules apply, which match, and what the decision rests on. `evaluate` is the source's loop over
the rules; `consider` is its body. The loop's three accumulators have closed forms
(`foldl_consider`): the baseline is the volume field if some covering rule reads the volume, the intent
is classified if some applicable rule names it, and the matches are those of the rules one by one. All
later results about decisions go through `evaluate_eq`, which states the decision in these terms.
-/

namespace DenonAvr.Policy

open Domain Library

/-- A volume change on a receiver: when it was made, the level the receiver showed before it (when
that was usable), and the level that was asked for. -/
structure RecentChange where
  time : WallTime
  before : Option Level
  target : Level
deriving DecidableEq

/-- Everything a decision depends on. -/
structure PolicyInput where
  agent : String
  receiver : ReceiverId
  intent : ReceiverIntent
  state : ReceiverState
  recent : List RecentChange
  now : WallTime
deriving DecidableEq

/-- Why a rule held a request back, with the numbers that fired. -/
inductive Reason
  | targetAbove (target limit : Level)
  | increaseOver (target : Level) (observed : Option Level) (limit : Span)
  | budgetExceeded (target : Level) (observed floor : Option Level) (limit : Span) (windowMinutes : ℕ)
  | baselineLoudOrUnknown (observed : Option Level) (limit : Level)
  | intentRestricted
  | unclassified
deriving DecidableEq

/-- The sentence a reason prints as. -/
def Reason.text : Reason → String
  | .targetAbove target limit =>
    s!"the volume target {halfStepsAsDb target.halfSteps} is above the limit {halfStepsAsDb limit.halfSteps}"
  | .increaseOver target (some observed) limit =>
    s!"raising the volume from {halfStepsAsDb observed.halfSteps} to {halfStepsAsDb target.halfSteps}" ++
      s!" is more than the {halfStepsAsDb limit.val} step"
  | .increaseOver target none limit =>
    s!"the volume is unknown or stale, so a rise to {halfStepsAsDb target.halfSteps}" ++
      s!" cannot be checked against the {halfStepsAsDb limit.val} step"
  | .budgetExceeded target _ (some floor) limit windowMinutes =>
    s!"raising the volume to {halfStepsAsDb target.halfSteps} is {halfStepsAsDb (target.above floor)}" ++
      s!" above the lowest level, {halfStepsAsDb floor.halfSteps}, in the last {windowMinutes} minutes;" ++
      s!" the budget is {halfStepsAsDb limit.val}"
  | .budgetExceeded _ _ none limit windowMinutes =>
    s!"the volume is unknown or stale, so the {halfStepsAsDb limit.val} budget" ++
      s!" over {windowMinutes} minutes cannot be checked"
  | .baselineLoudOrUnknown (some observed) limit =>
    s!"the volume is {halfStepsAsDb observed.halfSteps}, above the limit {halfStepsAsDb limit.halfSteps}"
  | .baselineLoudOrUnknown none limit =>
    s!"the volume is unknown or stale; the limit is {halfStepsAsDb limit.halfSteps}"
  | .intentRestricted => "this kind of change is restricted"
  | .unclassified => "no rule covers this change"

inductive Decision
  | allow (baseline : Finset CoreField)
  | requireApproval (reasons : List Reason) (rules : List String) (baseline : Finset CoreField)
  | deny (reasons : List Reason) (rules : List String)
deriving DecidableEq

namespace Decision

def effect : Decision → Effect
  | allow _ => .allow
  | requireApproval .. => .requireApproval
  | deny .. => .deny

/-- The ids of every rule that matched and restricted the request. -/
def rules : Decision → List String
  | allow _ => []
  | requireApproval _ rules _ | deny _ rules => rules

def reasons : Decision → List Reason
  | allow _ => []
  | requireApproval reasons _ _ | deny reasons _ => reasons

/-- What the decision read. A `deny` is final and has none. -/
def baseline : Decision → Option (Finset CoreField)
  | allow baseline | requireApproval _ _ baseline => some baseline
  | deny .. => none

end Decision

/-- `Baseline::fields`, in the order of the set. -/
def baselineFields (baseline : Finset CoreField) : List CoreField :=
  CoreField.all.filter (· ∈ baseline)

/-- The observed volume, or `none` when it is stale, unknown, or unavailable. -/
def observedVolume (state : ReceiverState) : Option Level :=
  match FieldBaseline.capture state .volume with
  | .value (.volume volume) => some (Level.of volume)
  | _ => none

def targetOf : ReceiverIntent → Option Level
  | .volume volume => some (Level.of volume)
  | _ => none

/-! ### The conditions of one rule -/

/-- The levels of the changes inside a window: the one before each, when there was one, and the one it
asked for. -/
def levelsInWindow (recent : List RecentChange) (now : WallTime) (window : ℕ) : List Level :=
  (recent.filter fun change => decide (now.saturatingSub window < change.time)).flatMap fun change =>
    change.before.toList ++ [change.target]

/-- The lowest of the observed level and of every level inside the window. -/
def floorInWindow (observed : Level) (recent : List RecentChange) (now : WallTime) (window : ℕ) : Level :=
  (levelsInWindow recent now window).foldl min observed

/-- Each condition of `test` gives its reasons when it holds and `none` when it does not; one that is
not set holds with no reason. -/
def testTargetAbove (conditions : Conditions) (target : Option Level) : Option (List Reason) :=
  match conditions.targetAbove with
  | none => some []
  | some limit => do
    let target ← target
    if target ≤ limit then none else some [.targetAbove target limit]

def testIncrease (conditions : Conditions) (observed target : Option Level) : Option (List Reason) :=
  match conditions.increaseOverBaseline with
  | none => some []
  | some limit => do
    let target ← target
    if observed.any fun observed => decide (target.above observed ≤ limit.val) then none
    else some [.increaseOver target observed limit]

def testBudget (conditions : Conditions) (input : PolicyInput) (observed target : Option Level) :
    Option (List Reason) :=
  match conditions.budget with
  | none => some []
  | some budget => do
    let target ← target
    match observed with
    | none => some [.budgetExceeded target none none budget.rise budget.windowMinutes]
    | some observed =>
      if target ≤ observed then none
      else
        let floor := floorInWindow observed input.recent input.now budget.window
        if target.above floor ≤ budget.rise.val then none
        else some [.budgetExceeded target (some observed) (some floor) budget.rise budget.windowMinutes]

def testLoud (conditions : Conditions) (observed : Option Level) : Option (List Reason) :=
  match conditions.baselineVolumeAbove with
  | none => some []
  | some limit =>
    if observed.any fun observed => decide (observed ≤ limit) then none
    else some [.baselineLoudOrUnknown observed limit]

/-- The reasons a rule matches, or `none` when one of its conditions does not hold. -/
def test (rule : Rule) (input : PolicyInput) (observed target : Option Level) : Option (List Reason) := do
  let conditions := rule.filter.conditions
  let above ← testTargetAbove conditions target
  let increase ← testIncrease conditions observed target
  let budget ← testBudget conditions input observed target
  let loud ← testLoud conditions observed
  return above ++ increase ++ budget ++ loud ++ if conditions.isEmpty then [.intentRestricted] else []

/-! ### The loop over the rules -/

/-- Whether the rule names the intent. -/
def names (rule : Rule) (intent : ReceiverIntent) : Bool :=
  rule.filter.alternatives.any fun alternative =>
    alternative.covers (IntentKind.of intent) (IntentValue.of intent)

/-- What the loop has gathered so far. -/
structure Progress where
  baseline : Finset CoreField := ∅
  classified : Bool := false
  found : List (Rule × List Reason) := []

/-- The body of the loop. -/
def consider (input : PolicyInput) (acc : Progress) (rule : Rule) : Progress :=
  if !rule.scope.matches input.agent input.receiver.value then acc
  else
    let namesIt := names rule input.intent
    let acc := { acc with classified := acc.classified || namesIt }
    if !rule.filter.alternatives.isEmpty && !namesIt then acc
    else
      let acc :=
        if rule.filter.conditions.readsVolume then { acc with baseline := insert .volume acc.baseline }
        else acc
      if rule.effect == .allow then acc
      else
        match test rule input (observedVolume input.state) (targetOf input.intent) with
        | some reasons => { acc with found := acc.found ++ [(rule, reasons)] }
        | none => acc

def evaluate (input : PolicyInput) (config : PolicyConfig) : Decision :=
  let acc := config.rules.foldl (consider input) {}
  let rules := acc.found.map fun hit => hit.1.id
  let reasons := acc.found.flatMap fun hit => hit.2
  if acc.found.any fun hit => hit.1.effect == .deny then .deny reasons rules
  else if !acc.found.isEmpty then .requireApproval reasons rules acc.baseline
  else if !acc.classified then .requireApproval [.unclassified] rules acc.baseline
  else .allow acc.baseline

/-! ### Closed forms -/

/-- The rule's scope matches, and it names the intent or names none. -/
def applies (input : PolicyInput) (rule : Rule) : Bool :=
  rule.scope.matches input.agent input.receiver.value &&
    (rule.filter.alternatives.isEmpty || names rule input.intent)

/-- A restricting rule that applies, with the reasons it matches. -/
def hit (input : PolicyInput) (rule : Rule) : Option (Rule × List Reason) :=
  if applies input rule && rule.effect != .allow then
    (test rule input (observedVolume input.state) (targetOf input.intent)).map fun reasons => (rule, reasons)
  else none

/-- Whether an applicable rule of any effect names the intent. -/
def classifies (input : PolicyInput) (rule : Rule) : Bool :=
  rule.scope.matches input.agent input.receiver.value && names rule input.intent

/-- Whether the decision reads the volume through this rule, matched or not. -/
def reads (input : PolicyInput) (rule : Rule) : Bool :=
  applies input rule && rule.filter.conditions.readsVolume

theorem consider_eq (input : PolicyInput) (acc : Progress) (rule : Rule) :
    consider input acc rule =
      { baseline := if reads input rule then insert .volume acc.baseline else acc.baseline
        classified := acc.classified || classifies input rule
        found := acc.found ++ (hit input rule).toList } := by
  unfold consider reads hit classifies applies
  cases hscope : rule.scope.matches input.agent input.receiver.value with
  | false => simp
  | true =>
    cases hnames : names rule input.intent <;> cases hempty : rule.filter.alternatives.isEmpty <;>
      cases hreads : rule.filter.conditions.readsVolume <;> cases heffect : rule.effect <;>
      cases htest : test rule input (observedVolume input.state) (targetOf input.intent) <;> simp

theorem foldl_consider (input : PolicyInput) (rules : List Rule) (acc : Progress) :
    rules.foldl (consider input) acc =
      { baseline := if rules.any (reads input) then insert .volume acc.baseline else acc.baseline
        classified := acc.classified || rules.any (classifies input)
        found := acc.found ++ rules.filterMap (hit input) } := by
  induction rules generalizing acc with
  | nil => simp
  | cons rule rules ih =>
    rw [List.foldl_cons, ih, consider_eq]
    have hfound : (hit input rule).toList ++ rules.filterMap (hit input) =
        (rule :: rules).filterMap (hit input) := by
      cases hhit : hit input rule <;> simp [hhit]
    simp only [List.any_cons, Bool.or_assoc, List.append_assoc, hfound]
    congr 1
    by_cases hrule : reads input rule = true <;> by_cases hrest : rules.any (reads input) = true <;>
      simp [hrule, hrest]

/-- The restricting rules that match, in order, with their reasons. -/
def hits (input : PolicyInput) (config : PolicyConfig) : List (Rule × List Reason) :=
  config.rules.filterMap (hit input)

/-- The fields a decision reads. -/
def readSet (input : PolicyInput) (config : PolicyConfig) : Finset CoreField :=
  if config.rules.any (reads input) then {.volume} else ∅

/-- **The decision in closed form.** -/
theorem evaluate_eq (input : PolicyInput) (config : PolicyConfig) :
    evaluate input config =
      if (hits input config).any fun hit => hit.1.effect == .deny then
        .deny ((hits input config).flatMap fun hit => hit.2) ((hits input config).map fun hit => hit.1.id)
      else if hits input config ≠ [] then
        .requireApproval ((hits input config).flatMap fun hit => hit.2)
          ((hits input config).map fun hit => hit.1.id) (readSet input config)
      else if config.rules.any (classifies input) then .allow (readSet input config)
      else .requireApproval [.unclassified] [] (readSet input config) := by
  have hbase : (if config.rules.any (reads input) = true then insert CoreField.volume ∅ else ∅) =
      readSet input config := by
    simp [readSet]
  unfold evaluate
  simp only [foldl_consider, hbase, List.nil_append, Bool.false_or]
  change (if (hits input config).any _ = true then _ else _) = _
  split_ifs with hdeny hempty hclass <;> simp_all [hits]

end DenonAvr.Policy
