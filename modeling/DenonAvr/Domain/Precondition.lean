import DenonAvr.Domain.State

/-!
# Preconditions

What a decision saw about the receiver, checked again before a write. `FieldBaseline.capture` reads one
field, `Precondition.capture` an epoch and one baseline for each field a decision consulted, and
`Precondition.mismatch` names the first respect in which a later state differs.

The source keeps the baselines in a `BTreeMap` under the field each of them names. Here the map is a
function of the field, and the invariant of the insertion (`keyed`) is a field of the structure.
-/

namespace DenonAvr.Domain

inductive FieldValue
  | systemPower (value : SystemPower)
  | mainZonePower (value : ZonePower)
  | zone2Power (value : ZonePower)
  | source (value : SourceId)
  | volume (value : MasterVolume)
  | mute (value : MuteState)
  | soundMode (id : String)
deriving DecidableEq

def FieldValue.field : FieldValue → CoreField
  | .systemPower _ => .systemPower
  | .mainZonePower _ => .mainZonePower
  | .zone2Power _ => .zone2Power
  | .source _ => .source
  | .volume _ => .volume
  | .mute _ => .mute
  | .soundMode _ => .soundMode

/-- What a decision saw for one field: its value, or that no usable value existed. -/
inductive FieldBaseline
  | value (value : FieldValue)
  | noUsableValue (field : CoreField)
deriving DecidableEq

/-- The value of a field that is current and has a last good observation. -/
def usable {α : Type} (field : FieldState α) (value : α → FieldValue) : Option FieldValue :=
  match field.validity, field.lastGood with
  | .current _, some observation => some (value observation.value)
  | _, _ => none

namespace FieldBaseline

def field : FieldBaseline → CoreField
  | value v => v.field
  | noUsableValue f => f

/-- The usable value a state shows for a field. -/
def usableIn (state : ReceiverState) : CoreField → Option FieldValue
  | .systemPower => usable state.systemPower .systemPower
  | .mainZonePower => usable state.mainZone.power .mainZonePower
  | .zone2Power => usable state.zone2Power .zone2Power
  | .source => usable state.mainZone.source .source
  | .volume => usable state.mainZone.volume .volume
  | .mute => usable state.mainZone.mute .mute
  | .soundMode => usable state.mainZone.soundMode fun mode => .soundMode mode.id

def capture (state : ReceiverState) (field : CoreField) : FieldBaseline :=
  (usableIn state field).elim (noUsableValue field) value

def holdsIn (baseline : FieldBaseline) (state : ReceiverState) : Bool :=
  baseline == capture state baseline.field

end FieldBaseline

theorem usable_some {α : Type} {field : FieldState α} {value : α → FieldValue} {v : FieldValue}
    (h : usable field value = some v) : ∃ o, field.lastGood = some o ∧ v = value o.value ∧ field.Current := by
  unfold usable at h
  split at h
  · rename_i validUntil o hvalidity hgood
    exact ⟨o, hgood, by simpa using h.symm, validUntil, hvalidity⟩
  · simp at h

namespace FieldBaseline

theorem field_of_usableIn {state : ReceiverState} {f : CoreField} {v : FieldValue}
    (h : usableIn state f = some v) : v.field = f := by
  cases f <;> simp only [usableIn] at h <;> obtain ⟨o, -, rfl, -⟩ := usable_some h <;> rfl

@[simp] theorem capture_field (state : ReceiverState) (f : CoreField) : (capture state f).field = f := by
  unfold capture
  cases h : usableIn state f with
  | none => rfl
  | some v => exact field_of_usableIn h

theorem holdsIn_iff {baseline : FieldBaseline} {state : ReceiverState} :
    baseline.holdsIn state = true ↔ baseline = capture state baseline.field := by
  simp [holdsIn]

end FieldBaseline

/-- The receiver epoch and one baseline for each field a decision consulted. -/
@[ext] structure Precondition where
  epoch : Epoch
  baseline : CoreField → Option FieldBaseline
  keyed : ∀ f b, baseline f = some b → b.field = f

namespace Precondition

instance : DecidableEq Precondition := fun p q =>
  decidable_of_iff (p.epoch = q.epoch ∧ p.baseline = q.baseline) Precondition.ext_iff.symm

def new (epoch : Epoch) : Precondition := ⟨epoch, fun _ => none, by simp⟩

/-- `Precondition::with`: a second baseline for the same field replaces the first. -/
def with_ (p : Precondition) (b : FieldBaseline) : Precondition where
  epoch := p.epoch
  baseline := Function.update p.baseline b.field (some b)
  keyed := by
    intro f b' h
    by_cases hf : f = b.field
    · subst hf
      simp only [Function.update_self, Option.some.injEq] at h
      rw [← h]
    · rw [Function.update_of_ne hf] at h
      exact p.keyed f b' h

/-- The baseline of `fields` as `state` shows them, or `none` when the state has no epoch. -/
def capture (state : ReceiverState) (fields : List CoreField) : Option Precondition :=
  state.epoch.map fun epoch =>
    fields.foldl (fun acc field => acc.with_ (FieldBaseline.capture state field)) (new epoch)

/-- The fields the precondition names, in a fixed order. -/
def fields (p : Precondition) : List CoreField := CoreField.all.filter fun f => (p.baseline f).isSome

/-- The first respect in which `state` differs: the epoch, then each named field in order. -/
def mismatch (p : Precondition) (state : ReceiverState) : Option PreconditionMismatch :=
  if state.epoch ≠ some p.epoch then some .epoch
  else
    (CoreField.all.find? fun f => (p.baseline f).any fun b => !b.holdsIn state).map .field

@[simp] theorem mem_fields {p : Precondition} {f : CoreField} :
    f ∈ p.fields ↔ ∃ b, p.baseline f = some b := by
  simp [fields, Option.isSome_iff_exists]

/-- A precondition holds exactly when the epoch and every named field are as they were seen. -/
theorem mismatch_eq_none_iff {p : Precondition} {state : ReceiverState} :
    p.mismatch state = none ↔
      state.epoch = some p.epoch ∧ ∀ f b, p.baseline f = some b → b = FieldBaseline.capture state f := by
  unfold mismatch
  split_ifs with h
  · simp [h]
  · simp only [ne_eq, Decidable.not_not] at h
    simp only [Option.map_eq_none_iff, List.find?_eq_none, CoreField.mem_all, true_implies,
      Option.any_eq_true, Bool.not_eq_true', not_exists, not_and, Bool.not_eq_false, h, true_and]
    refine forall_congr' fun f => forall_congr' fun b => imp_congr_right fun hb => ?_
    rw [FieldBaseline.holdsIn_iff, p.keyed f b hb]

theorem foldl_with_capture (state : ReceiverState) (fs : List CoreField) (p : Precondition) :
    (fs.foldl (fun acc f => acc.with_ (FieldBaseline.capture state f)) p).epoch = p.epoch ∧
      ∀ f, (fs.foldl (fun acc f => acc.with_ (FieldBaseline.capture state f)) p).baseline f =
        if f ∈ fs then some (FieldBaseline.capture state f) else p.baseline f := by
  induction fs generalizing p with
  | nil => simp
  | cons g fs ih =>
    obtain ⟨hepoch, hbase⟩ := ih (p.with_ (FieldBaseline.capture state g))
    refine ⟨hepoch, fun f => ?_⟩
    simp only [List.foldl_cons, hbase, List.mem_cons]
    by_cases hmem : f ∈ fs
    · simp [hmem]
    · by_cases hfg : f = g
      · subst hfg
        simp [with_]
      · simp [hmem, hfg, with_, Function.update_of_ne]

/-- What a captured precondition holds. -/
theorem capture_spec {state : ReceiverState} {fs : List CoreField} {p : Precondition}
    (h : capture state fs = some p) :
    state.epoch = some p.epoch ∧
      ∀ f, p.baseline f = if f ∈ fs then some (FieldBaseline.capture state f) else none := by
  obtain ⟨epoch, hepoch, rfl⟩ := Option.map_eq_some_iff.mp h
  obtain ⟨h1, h2⟩ := foldl_with_capture state fs (new epoch)
  exact ⟨by rw [h1, hepoch]; rfl, h2⟩

/-- A later state that the precondition still holds in shows every captured field as it was. -/
theorem capture_eq_of_mismatch_eq_none {state state' : ReceiverState} {fs : List CoreField}
    {p : Precondition} (hcapture : capture state fs = some p) (h : p.mismatch state' = none) :
    state'.epoch = state.epoch ∧
      ∀ f ∈ fs, FieldBaseline.capture state' f = FieldBaseline.capture state f := by
  obtain ⟨hepoch, hbase⟩ := capture_spec hcapture
  obtain ⟨hepoch', hholds⟩ := mismatch_eq_none_iff.mp h
  refine ⟨hepoch'.trans hepoch.symm, fun f hf => ?_⟩
  exact (hholds f _ (by rw [hbase, if_pos hf])).symm

end Precondition

end DenonAvr.Domain
