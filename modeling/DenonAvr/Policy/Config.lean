import DenonAvr.Domain.Receiver
import Mathlib.Data.Finset.Basic

/-!
# Policies

Levels and spans on the receiver's volume scale, what a rule can name, and the validation that turns
rules into a policy. A `PolicyConfig` is a list of rules together with the fact that the checks of
`PolicyConfig::new` passed, so every rule of a configuration is a validated one (`PolicyConfig.valid`).
-/

namespace DenonAvr.Policy

open Domain

/-! ### Levels -/

def lowest : ℤ := -160
def highest : ℤ := 36
def widestSpan : ℕ := 196

/-- A point on the volume scale, in half decibels. -/
@[ext] structure Level where
  halfSteps : ℤ
  inRange : lowest ≤ halfSteps ∧ halfSteps ≤ highest
deriving DecidableEq

/-- A distance on the volume scale, in half decibels: a step or a budget. -/
abbrev Span := {halfSteps : ℕ // halfSteps ≤ widestSpan}

namespace Level

def minimum : Level := ⟨lowest, by decide⟩

/-- The level of an observed or requested volume. -/
def of : MasterVolume → Level
  | .minimum => minimum
  | .dbHalfSteps step => ⟨step.val, by have := step.property; simp only [lowest, highest]; omega⟩

/-- `Level::from_half_steps`, `none` for its out-of-range error. -/
def fromHalfSteps (steps : ℤ) : Option Level :=
  if h : lowest ≤ steps ∧ steps ≤ highest then some ⟨steps, h⟩ else none

/-- How far this level is above `floor`, in half decibels. -/
def above (level floor : Level) : ℤ := level.halfSteps - floor.halfSteps

instance : LinearOrder Level := LinearOrder.lift' halfSteps fun _ _ => Level.ext

theorem le_iff {a b : Level} : a ≤ b ↔ a.halfSteps ≤ b.halfSteps := Iff.rfl

theorem fromHalfSteps_halfSteps (level : Level) : fromHalfSteps level.halfSteps = some level := by
  simp [fromHalfSteps, level.inRange]

end Level

/-- `{:.1} dB` of a number of half decibels. -/
def halfStepsAsDb (halfSteps : ℤ) : String :=
  (if halfSteps < 0 then "-" else "") ++ toString (halfSteps.natAbs / 2) ++
    (if halfSteps.natAbs % 2 = 0 then ".0 dB" else ".5 dB")

/-! ### Intents -/

inductive IntentKind
  | systemPower | mainZonePower | zone2Power | source | volume | mute | soundMode
deriving DecidableEq, Repr

inductive IntentValue
  | on | off | standby
deriving DecidableEq, Repr

def IntentKind.of : ReceiverIntent → IntentKind
  | .systemPower _ => .systemPower
  | .mainZonePower _ => .mainZonePower
  | .zone2Power _ => .zone2Power
  | .source _ => .source
  | .volume _ => .volume
  | .mute _ => .mute
  | .soundMode _ => .soundMode

/-- Whether a rule may name `value` for this kind. -/
def IntentKind.accepts : IntentKind → IntentValue → Bool
  | .systemPower, value => value == .on || value == .standby
  | .mainZonePower, value | .zone2Power, value | .mute, value => value == .on || value == .off
  | .source, _ | .volume, _ | .soundMode, _ => false

def IntentValue.of : ReceiverIntent → Option IntentValue
  | .systemPower .on => some .on
  | .systemPower .standby => some .standby
  | .mainZonePower .on | .zone2Power .on => some .on
  | .mainZonePower .off | .zone2Power .off => some .off
  | .mute .on => some .on
  | .mute .off => some .off
  | .source _ | .volume _ | .soundMode _ => none

/-! ### Rules -/

/-- What a matched rule does, ordered by severity. -/
inductive Effect
  | allow | requireApproval | deny
deriving DecidableEq, Repr

namespace Effect

def severity : Effect → ℕ
  | allow => 0
  | requireApproval => 1
  | deny => 2

theorem severity_injective : Function.Injective severity := by
  intro a b h
  cases a <;> cases b <;> first | rfl | cases h

instance : LinearOrder Effect := LinearOrder.lift' severity severity_injective

theorem le_iff {a b : Effect} : a ≤ b ↔ a.severity ≤ b.severity := Iff.rfl

end Effect

/-- Which requests a rule applies to. `none` means every agent, or every receiver. -/
structure Scope where
  agents : Option (Finset String) := none
  receivers : Option (Finset String) := none
deriving DecidableEq

def Scope.matches (scope : Scope) (agent receiver : String) : Bool :=
  scope.agents.all (fun set => decide (agent ∈ set)) &&
    scope.receivers.all (fun set => decide (receiver ∈ set))

/-- One intent a rule names: a kind, and optionally one value of it. -/
structure Alternative where
  kind : IntentKind
  value : Option IntentValue
deriving DecidableEq

def Alternative.covers (alternative : Alternative) (kind : IntentKind) (value : Option IntentValue) :
    Bool :=
  alternative.kind == kind && alternative.value.all fun named => some named == value

/-- A cumulative limit: the rise above the lowest level in a window. -/
structure Budget where
  rise : Span
  windowMinutes : ℕ
deriving DecidableEq

/-- `Budget::window`, in milliseconds. -/
def Budget.window (budget : Budget) : ℕ := budget.windowMinutes * 60 * 1000

/-- What must hold, besides the intent, for a rule to match. -/
structure Conditions where
  targetAbove : Option Level := none
  increaseOverBaseline : Option Span := none
  budget : Option Budget := none
  baselineVolumeAbove : Option Level := none
deriving DecidableEq

namespace Conditions

def isEmpty (conditions : Conditions) : Bool := conditions == {}

/-- Conditions about a volume target, which only a volume intent has. -/
def aboutAVolumeTarget (conditions : Conditions) : Bool :=
  conditions.targetAbove.isSome || conditions.increaseOverBaseline.isSome || conditions.budget.isSome

/-- Whether the rule reads the observed volume to decide. -/
def readsVolume (conditions : Conditions) : Bool :=
  conditions.increaseOverBaseline.isSome || conditions.budget.isSome ||
    conditions.baselineVolumeAbove.isSome

end Conditions

/-- The intents a rule names, none meaning every intent, and the conditions it adds. -/
structure Filter where
  alternatives : List Alternative := []
  conditions : Conditions := {}
deriving DecidableEq

structure Rule where
  id : String
  scope : Scope := {}
  filter : Filter := {}
  effect : Effect
deriving DecidableEq

/-! ### Validation -/

def maxLabelLen : ℕ := 64
def reservedLabel : String := "unauthenticated"

/-- Whether `label` can be the label of a token. -/
def labelIsWellFormed (label : String) : Bool :=
  if label.isEmpty || decide (maxLabelLen < label.utf8ByteSize) || label == reservedLabel then false
  else
    label.toList.head?.any (fun first => first.isLower || first.isDigit) &&
      label.toList.all fun c => c.isLower || c.isDigit || c == '.' || c == '_' || c == '-'

/-- Why a set of rules is not a policy. -/
inductive PolicyError
  | emptyRuleId
  | duplicateRuleId (rule : String)
  | emptyScopeList (rule : String)
  | valueNotValidForIntent (rule : String) (kind : IntentKind) (value : IntentValue)
  | allowWithCondition (rule : String)
  | allowNamesNoIntent (rule : String)
  | volumeConditionOnOtherIntent (rule : String)
  | windowOutOfRange (rule : String)
  | agentLabelNotWellFormed (rule : String)
deriving DecidableEq

def maxWindowMinutes : ℕ := 1440

/-- The first alternative that names a value its kind does not have. -/
def invalidAlternative (alternatives : List Alternative) : Option (IntentKind × IntentValue) :=
  alternatives.findSome? fun alternative =>
    alternative.value.bind fun value =>
      if alternative.kind.accepts value then none else some (alternative.kind, value)

/-- Whether the alternatives name volume and nothing else. -/
def onlyVolume (alternatives : List Alternative) : Bool :=
  !alternatives.isEmpty && alternatives.all fun alternative => alternative.kind == .volume

/-- One check of `validate`: an early return of `error` when `bad`. -/
def refuseIf (bad : Bool) (error : PolicyError) : Except PolicyError Unit :=
  if bad then .error error else .ok ()

def validate (rule : Rule) : Except PolicyError Unit := do
  refuseIf (isBlank rule.id) .emptyRuleId
  refuseIf (rule.scope.agents == some ∅ || rule.scope.receivers == some ∅) (.emptyScopeList rule.id)
  refuseIf (rule.scope.agents.any fun agents => !decide (∀ label ∈ agents, labelIsWellFormed label = true))
    (.agentLabelNotWellFormed rule.id)
  match invalidAlternative rule.filter.alternatives with
  | some (kind, value) => .error (.valueNotValidForIntent rule.id kind value)
  | none =>
    refuseIf (rule.effect == .allow && !rule.filter.conditions.isEmpty) (.allowWithCondition rule.id)
    refuseIf (rule.effect == .allow && rule.filter.alternatives.isEmpty) (.allowNamesNoIntent rule.id)
    refuseIf (rule.filter.conditions.aboutAVolumeTarget && !onlyVolume rule.filter.alternatives)
      (.volumeConditionOnOtherIntent rule.id)
    refuseIf
      (rule.filter.conditions.budget.any fun budget =>
        !(decide (1 ≤ budget.windowMinutes) && decide (budget.windowMinutes ≤ maxWindowMinutes)))
      (.windowOutOfRange rule.id)

/-- The loop of `PolicyConfig::new`, with the ids seen so far. -/
def checkRules (seen : List String) : List Rule → Except PolicyError Unit
  | [] => .ok ()
  | rule :: rules => do
    validate rule
    refuseIf (decide (rule.id ∈ seen)) (.duplicateRuleId rule.id)
    checkRules (rule.id :: seen) rules

/-- A validated policy: the rules, in order, and how long an approval lasts. -/
structure PolicyConfig where
  rules : List Rule
  approvalLifetime : ℕ
  checked : checkRules [] rules = .ok ()
deriving DecidableEq

def PolicyConfig.new (rules : List Rule) (approvalLifetime : ℕ) : Except PolicyError PolicyConfig :=
  match h : checkRules [] rules with
  | .ok () => .ok ⟨rules, approvalLifetime, h⟩
  | .error error => .error error

/-- The widest budget window of any rule, or zero when there is none. -/
def PolicyConfig.longestWindow (config : PolicyConfig) : ℕ :=
  (config.rules.filterMap fun rule => rule.filter.conditions.budget.map Budget.window).foldl max 0

/-! ### What validation gives -/

theorem bind_eq_ok {ε α β : Type} {x : Except ε α} {f : α → Except ε β} {b : β} :
    (x >>= f) = .ok b ↔ ∃ a, x = .ok a ∧ f a = .ok b := by
  cases x <;> simp [bind, Except.bind]

@[simp] theorem refuseIf_eq_ok {bad : Bool} {error : PolicyError} {u : Unit} :
    refuseIf bad error = .ok u ↔ bad = false := by
  cases bad <;> simp [refuseIf]

theorem checkRules_valid {seen : List String} {rules : List Rule} (h : checkRules seen rules = .ok ()) :
    ∀ rule ∈ rules, validate rule = .ok () := by
  induction rules generalizing seen with
  | nil => simp
  | cons rule rules ih =>
    simp only [checkRules, bind_eq_ok, refuseIf_eq_ok] at h
    obtain ⟨_, hvalid, _, -, hrest⟩ := h
    intro r hr
    rcases List.mem_cons.mp hr with rfl | hr
    · exact hvalid
    · exact ih hrest r hr

/-- Every rule of a configuration passed its checks. -/
theorem PolicyConfig.valid (config : PolicyConfig) {rule : Rule} (h : rule ∈ config.rules) :
    validate rule = .ok () :=
  checkRules_valid config.checked rule h

/-- What evaluation rests on in a validated rule. -/
structure RuleSpec (rule : Rule) : Prop where
  /-- A condition about a volume target comes with alternatives that name volume alone. -/
  onlyVolume : rule.filter.conditions.aboutAVolumeTarget = true →
    onlyVolume rule.filter.alternatives = true
  /-- A volume alternative carries no value. -/
  noValue : ∀ alternative ∈ rule.filter.alternatives, ∀ value, alternative.value = some value →
    alternative.kind.accepts value = true
  /-- An allow rule names intents and has no condition. -/
  allow : rule.effect = .allow → rule.filter.conditions = {} ∧ rule.filter.alternatives ≠ []
  /-- A budget window is at least a minute and at most a day. -/
  window : ∀ budget, rule.filter.conditions.budget = some budget →
    1 ≤ budget.windowMinutes ∧ budget.windowMinutes ≤ maxWindowMinutes

theorem validate_spec {rule : Rule} (h : validate rule = .ok ()) : RuleSpec rule := by
  simp only [validate, bind_eq_ok, refuseIf_eq_ok] at h
  obtain ⟨_, -, _, -, _, -, hrest⟩ := h
  cases halt : invalidAlternative rule.filter.alternatives with
  | some pair => simp [halt] at hrest
  | none =>
    simp only [halt, bind_eq_ok, refuseIf_eq_ok] at hrest
    obtain ⟨_, hcond, _, hnames, _, hvolume, hwindow⟩ := hrest
    refine ⟨fun habout => ?_, fun alternative hmem value hvalue => ?_, fun heffect => ?_,
      fun budget hbudget => ?_⟩
    · simpa [habout] using hvolume
    · have hnone := List.findSome?_eq_none_iff.mp halt alternative hmem
      simpa [hvalue] using hnone
    · simp only [heffect, beq_self_eq_true, Bool.true_and] at hcond hnames
      exact ⟨by simpa [Conditions.isEmpty] using hcond, by simpa using hnames⟩
    · simpa [hbudget] using hwindow

theorem le_foldl_max (l : List ℕ) (b : ℕ) : b ≤ l.foldl max b ∧ ∀ x ∈ l, x ≤ l.foldl max b := by
  induction l generalizing b with
  | nil => simp
  | cons a l ih =>
    obtain ⟨h1, h2⟩ := ih (max b a)
    simp only [List.foldl_cons, List.mem_cons, forall_eq_or_imp]
    exact ⟨by omega, by omega, h2⟩

theorem foldl_max_le {l : List ℕ} {b bound : ℕ} (hb : b ≤ bound) (h : ∀ x ∈ l, x ≤ bound) :
    l.foldl max b ≤ bound := by
  induction l generalizing b with
  | nil => exact hb
  | cons a l ih =>
    have ha := h a List.mem_cons_self
    exact ih (max_le hb ha) fun x hx => h x (List.mem_cons_of_mem _ hx)

/-- No budget of the configuration has a wider window than the longest one. -/
theorem PolicyConfig.window_le_longestWindow (config : PolicyConfig) {rule : Rule} {budget : Budget}
    (hrule : rule ∈ config.rules) (hbudget : rule.filter.conditions.budget = some budget) :
    budget.window ≤ config.longestWindow := by
  refine (le_foldl_max _ 0).2 _ ?_
  exact List.mem_filterMap.mpr ⟨rule, hrule, by simp [hbudget]⟩

theorem PolicyConfig.longestWindow_le (config : PolicyConfig) :
    config.longestWindow ≤ maxWindowMinutes * 60 * 1000 := by
  refine foldl_max_le (Nat.zero_le _) fun window hwindow => ?_
  obtain ⟨rule, hrule, hsome⟩ := List.mem_filterMap.mp hwindow
  obtain ⟨budget, hbudget, rfl⟩ := Option.map_eq_some_iff.mp hsome
  have hminutes := ((validate_spec (config.valid hrule)).window budget hbudget).2
  unfold Budget.window
  omega

end DenonAvr.Policy
