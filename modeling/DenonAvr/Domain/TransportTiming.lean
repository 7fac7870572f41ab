import DenonAvr.Domain.Receiver

/-!
# The transmission schedule

The domain's timing policy: when the next command may be sent, from the commands sent so far. It is free of any
runtime. The transport of a session keeps variables of its own, and waits after `ZMON` as it does after `PWON`.
-/

namespace DenonAvr.Domain

/-- `u64::saturating_add`. -/
def saturatingAdd (a b : ℕ) : ℕ := min (a + b) (2 ^ 64 - 1)

theorem saturatingAdd_le (a b : ℕ) : saturatingAdd a b ≤ a + b := min_le_left _ _

structure TransmissionSchedule where
  minimumIntervalMs : ℕ := 50
  powerOnQuietMs : ℕ := 1000
  lastTransmission : Option MonotonicMillis := none
  quietUntil : Option MonotonicMillis := none
deriving DecidableEq

namespace TransmissionSchedule

def nextAllowedAt (schedule : TransmissionSchedule) (now : MonotonicMillis) : MonotonicMillis :=
  let intervalDue := (schedule.lastTransmission.map fun last => saturatingAdd last schedule.minimumIntervalMs).getD now
  let quietDue := schedule.quietUntil.getD now
  max intervalDue quietDue

def record (schedule : TransmissionSchedule) (command : String) (sentAt : MonotonicMillis) : TransmissionSchedule :=
  { schedule with
    lastTransmission := some sentAt
    quietUntil :=
      if command = "PWON" then some (saturatingAdd sentAt schedule.powerOnQuietMs)
      else if schedule.quietUntil.any fun quiet => decide (quiet ≤ sentAt) then none
      else schedule.quietUntil }

variable {schedule : TransmissionSchedule} {command : String} {sentAt now instant : MonotonicMillis}

@[simp] theorem record_lastTransmission : (schedule.record command sentAt).lastTransmission = some sentAt := rfl

@[simp] theorem record_minimumIntervalMs :
    (schedule.record command sentAt).minimumIntervalMs = schedule.minimumIntervalMs := rfl

@[simp] theorem record_powerOnQuietMs : (schedule.record command sentAt).powerOnQuietMs = schedule.powerOnQuietMs := rfl

/-- A quiet period is that of the command just recorded, or is kept. -/
theorem record_quietUntil (h : (schedule.record command sentAt).quietUntil = some instant) :
    command = "PWON" ∧ instant = saturatingAdd sentAt schedule.powerOnQuietMs ∨ schedule.quietUntil = some instant := by
  unfold record at h
  dsimp only at h
  split_ifs at h with hpower hover
  · exact .inl ⟨hpower, (Option.some.inj h).symm⟩
  · exact .inr h

/-- The policy allows an instant that is past the interval and past the quiet period. -/
theorem nextAllowedAt_le
    (hinterval : ∀ last, schedule.lastTransmission = some last → last + schedule.minimumIntervalMs ≤ now)
    (hquiet : ∀ quiet, schedule.quietUntil = some quiet → quiet ≤ now) : schedule.nextAllowedAt now ≤ now := by
  unfold nextAllowedAt
  refine max_le ?_ ?_
  · cases hlast : schedule.lastTransmission with
    | none => exact le_rfl
    | some last => exact (saturatingAdd_le _ _).trans (hinterval last hlast)
  · cases huntil : schedule.quietUntil with
    | none => exact le_rfl
    | some quiet => exact hquiet quiet huntil

end TransmissionSchedule

end DenonAvr.Domain
