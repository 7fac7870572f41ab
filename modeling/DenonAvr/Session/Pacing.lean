import DenonAvr.Library.Machine
import DenonAvr.Domain.TransportTiming
import DenonAvr.Protocol.X3800h

/-!
# The transport's clock

When the transport of a session (`run_session`, `reconnect`) sends, and when it tries to connect. It takes one request
at a time and waits until the request is due: `transmission_interval` after the end of the last write, and, when the
receiver was powered on, a second after that. A write that failed or timed out counts as one, and so does everything
that was sent over an earlier connection. After a failure the attempts to connect are spaced by a delay that doubles.

Time passes by an action of its own, so that every wait may take longer than it has to. `log` and `attempts` are records
for the statements: the writes so far, and the attempts of the reconnect under way, or of the last one.
-/

namespace DenonAvr.Session

open Domain Protocol Library

/-! ### The transport -/

/-- The part of `AvrSessionConfig` that the waits depend on. -/
structure WireTiming where
  reconnectAttempts : ℕ := 3
  reconnectDelay : ℕ := 250
  reconnectIndefinitely : Bool := false
  transmissionInterval : ℕ := 50

/-- Nothing is sent for as long after the receiver was powered on. -/
def powerOnQuiet : ℕ := 1000

/-- `PWON` or `ZMON`. -/
def powersOn (command : AvrCommand) : Bool := command.text == "PWON" || command.text == "ZMON"

theorem powersOn_of_text {command : AvrCommand} (h : command.text = "PWON") : powersOn command = true := by
  unfold powersOn
  rw [h, Bool.or_eq_true]
  exact .inl (beq_self_eq_true _)

structure Transmission where
  command : AvrCommand
  start : MonotonicMillis
  stop : MonotonicMillis
deriving DecidableEq

/-- An attempt to connect, from its beginning to its end. -/
structure Attempt where
  start : MonotonicMillis
  stop : MonotonicMillis
  connected : Bool
deriving DecidableEq

inductive WirePhase
  /-- In `next_request`. -/
  | waiting
  | sleeping (command : AvrCommand) (wantsResponse : Bool) (due : MonotonicMillis)
  | writing (command : AvrCommand) (wantsResponse : Bool) (start : MonotonicMillis)
  /-- In `read_response`. -/
  | responding
  /-- At the top of the loop of `reconnect`, after `attempt` attempts that failed. -/
  | retrying (attempt : ℕ)
  | backingOff (attempt : ℕ) (due : MonotonicMillis)
  | connecting (attempt : ℕ) (start : MonotonicMillis)
  | stopped
deriving DecidableEq

structure WireClock where
  now : MonotonicMillis
  lastTransmission : Option MonotonicMillis := none
  powerOnQuietUntil : Option MonotonicMillis := none
  phase : WirePhase := .waiting
  log : List Transmission := []
  attempts : List Attempt := []
deriving DecidableEq

inductive WireAction
  | pass (duration : ℕ)
  | request (command : AvrCommand) (wantsResponse : Bool)
  /-- The connection fails while the transport waits for a request. -/
  | idleFailed
  /-- A sleep is over. -/
  | wake
  /-- The write ends, in time and with success or not. -/
  | wrote (ok : Bool)
  /-- The response is there, or an error that does not say anything about the connection. -/
  | responded
  | responseFailed
  | retry
  | connected
  | refused
  /-- The task returns because nobody listens any more, or it is aborted. -/
  | stop
deriving DecidableEq

namespace WireClock

/-- When a request that is taken now may be sent. -/
def due (timing : WireTiming) (s : WireClock) : MonotonicMillis :=
  let due := s.powerOnQuietUntil.getD s.now
  match s.lastTransmission with
  | some previous => max due (previous + timing.transmissionInterval)
  | none => due

/-- How long `reconnect` waits before the attempt after `attempt` that failed. -/
def backoff (timing : WireTiming) (attempt : ℕ) : ℕ := timing.reconnectDelay * 2 ^ min (attempt - 1) 7

def step (timing : WireTiming) (s : WireClock) : WireAction → Option WireClock
  | .pass duration => some { s with now := s.now + duration }
  | .request command wantsResponse =>
    if s.phase = .waiting then
      let due := s.due timing
      some { s with
        phase := if s.now < due then .sleeping command wantsResponse due else .writing command wantsResponse s.now }
    else none
  | .idleFailed => if s.phase = .waiting then some { s with phase := .retrying 0, attempts := [] } else none
  | .wake =>
    match s.phase with
    | .sleeping command wantsResponse due =>
      if due ≤ s.now then some { s with phase := .writing command wantsResponse s.now } else none
    | .backingOff attempt due => if due ≤ s.now then some { s with phase := .connecting attempt s.now } else none
    | _ => none
  | .wrote ok =>
    match s.phase with
    | .writing command wantsResponse start =>
      -- A write that failed or timed out occupies the wire as well.
      let s : WireClock := { s with
        lastTransmission := some s.now
        powerOnQuietUntil := if powersOn command then some (s.now + powerOnQuiet) else s.powerOnQuietUntil
        log := s.log ++ [⟨command, start, s.now⟩] }
      some (if !ok then { s with phase := .retrying 0, attempts := [] }
        else { s with phase := if wantsResponse then .responding else .waiting })
    | _ => none
  | .responded => if s.phase = .responding then some { s with phase := .waiting } else none
  | .responseFailed => if s.phase = .responding then some { s with phase := .retrying 0, attempts := [] } else none
  | .retry =>
    match s.phase with
    | .retrying attempt =>
      some { s with
        phase :=
          if !timing.reconnectIndefinitely && decide (timing.reconnectAttempts ≤ attempt) then .stopped
          else if 0 < attempt then .backingOff attempt (s.now + backoff timing attempt)
          else .connecting attempt s.now }
    | _ => none
  | .connected =>
    match s.phase with
    | .connecting _ start => some { s with phase := .waiting, attempts := s.attempts ++ [⟨start, s.now, true⟩] }
    | _ => none
  | .refused =>
    match s.phase with
    | .connecting attempt start =>
      some { s with phase := .retrying (attempt + 1), attempts := s.attempts ++ [⟨start, s.now, false⟩] }
    | _ => none
  | .stop => some { s with phase := .stopped }

end WireClock

/-- The transport of a session whose connection has just been made. -/
def wireClock (timing : WireTiming) : Machine WireClock WireAction where
  init s := ∃ now, s = { now }
  step := WireClock.step timing

/-! ### What a step can do -/

/-- The steps of the transport, with what each asks of the state. -/
inductive WireStep (timing : WireTiming) (s : WireClock) : WireClock → Prop
  | pass (duration : ℕ) : WireStep timing s { s with now := s.now + duration }
  | taken (command : AvrCommand) (wantsResponse : Bool) (hphase : s.phase = .waiting) (hdue : s.due timing ≤ s.now) :
      WireStep timing s { s with phase := .writing command wantsResponse s.now }
  | held (command : AvrCommand) (wantsResponse : Bool) (hphase : s.phase = .waiting) :
      WireStep timing s { s with phase := .sleeping command wantsResponse (s.due timing) }
  | begun (command : AvrCommand) (wantsResponse : Bool) (due : MonotonicMillis)
      (hphase : s.phase = .sleeping command wantsResponse due) (hdue : due ≤ s.now) :
      WireStep timing s { s with phase := .writing command wantsResponse s.now }
  | wrote (command : AvrCommand) (wantsResponse : Bool) (start : MonotonicMillis) (phase : WirePhase)
      (attempts : List Attempt) (hphase : s.phase = .writing command wantsResponse start)
      (hnext : (phase = .waiting ∨ phase = .responding) ∧ attempts = s.attempts ∨ phase = .retrying 0 ∧ attempts = []) :
      WireStep timing s { s with
        lastTransmission := some s.now
        powerOnQuietUntil := if powersOn command then some (s.now + powerOnQuiet) else s.powerOnQuietUntil
        log := s.log ++ [⟨command, start, s.now⟩]
        phase, attempts }
  | responded (hphase : s.phase = .responding) : WireStep timing s { s with phase := .waiting }
  | failed (hphase : s.phase = .waiting ∨ s.phase = .responding) :
      WireStep timing s { s with phase := .retrying 0, attempts := [] }
  | exhausted (attempt : ℕ) (hphase : s.phase = .retrying attempt) (hlimit : timing.reconnectIndefinitely = false)
      (hattempts : timing.reconnectAttempts ≤ attempt) : WireStep timing s { s with phase := .stopped }
  | backsOff (attempt : ℕ) (hphase : s.phase = .retrying attempt)
      (hallowed : timing.reconnectIndefinitely = true ∨ attempt < timing.reconnectAttempts) (hlater : 0 < attempt) :
      WireStep timing s { s with phase := .backingOff attempt (s.now + WireClock.backoff timing attempt) }
  | firstAttempt (hphase : s.phase = .retrying 0)
      (hallowed : timing.reconnectIndefinitely = true ∨ 0 < timing.reconnectAttempts) :
      WireStep timing s { s with phase := .connecting 0 s.now }
  | laterAttempt (attempt : ℕ) (due : MonotonicMillis) (hphase : s.phase = .backingOff attempt due) (hdue : due ≤ s.now) :
      WireStep timing s { s with phase := .connecting attempt s.now }
  | connected (attempt : ℕ) (start : MonotonicMillis) (hphase : s.phase = .connecting attempt start) :
      WireStep timing s { s with phase := .waiting, attempts := s.attempts ++ [⟨start, s.now, true⟩] }
  | refused (attempt : ℕ) (start : MonotonicMillis) (hphase : s.phase = .connecting attempt start) :
      WireStep timing s { s with phase := .retrying (attempt + 1), attempts := s.attempts ++ [⟨start, s.now, false⟩] }
  | stop : WireStep timing s { s with phase := .stopped }

section Steps
variable {timing : WireTiming} {s s' : WireClock}

theorem wireStep_of_step {a : WireAction} (hstep : s.step timing a = some s') : WireStep timing s s' := by
  cases a with
  | pass duration =>
    obtain rfl := Option.some.inj hstep
    exact .pass duration
  | request command wantsResponse =>
    simp only [WireClock.step] at hstep
    split_ifs at hstep with hphase hdue <;> obtain rfl := Option.some.inj hstep
    · exact .held command wantsResponse hphase
    · exact .taken command wantsResponse hphase (Nat.le_of_not_lt hdue)
  | idleFailed =>
    simp only [WireClock.step] at hstep
    split_ifs at hstep with hphase
    obtain rfl := Option.some.inj hstep
    exact .failed (.inl hphase)
  | wake =>
    simp only [WireClock.step] at hstep
    split at hstep
    · rename_i command wantsResponse due hphase
      split_ifs at hstep with hdue
      obtain rfl := Option.some.inj hstep
      exact .begun command wantsResponse due hphase hdue
    · rename_i attempt due hphase
      split_ifs at hstep with hdue
      obtain rfl := Option.some.inj hstep
      exact .laterAttempt attempt due hphase hdue
    · cases hstep
  | wrote ok =>
    simp only [WireClock.step] at hstep
    split at hstep
    · rename_i command wantsResponse start hphase
      obtain rfl := Option.some.inj hstep
      cases ok with
      | false => exact .wrote command wantsResponse start _ _ hphase (.inr ⟨rfl, rfl⟩)
      | true =>
        cases wantsResponse with
        | false => exact .wrote command false start _ _ hphase (.inl ⟨.inl rfl, rfl⟩)
        | true => exact .wrote command true start _ _ hphase (.inl ⟨.inr rfl, rfl⟩)
    · cases hstep
  | responded =>
    simp only [WireClock.step] at hstep
    split_ifs at hstep with hphase
    obtain rfl := Option.some.inj hstep
    exact .responded hphase
  | responseFailed =>
    simp only [WireClock.step] at hstep
    split_ifs at hstep with hphase
    obtain rfl := Option.some.inj hstep
    exact .failed (.inr hphase)
  | retry =>
    simp only [WireClock.step] at hstep
    split at hstep
    · rename_i attempt hphase
      obtain rfl := Option.some.inj hstep
      split_ifs with hlimit hlater
      · simp only [Bool.and_eq_true, Bool.not_eq_true', decide_eq_true_eq] at hlimit
        exact .exhausted attempt hphase hlimit.1 hlimit.2
      · refine .backsOff attempt hphase ?_ hlater
        simp only [Bool.and_eq_true, Bool.not_eq_true', decide_eq_true_eq, not_and, Nat.not_le] at hlimit
        exact (eq_or_ne timing.reconnectIndefinitely true).imp_right fun h => hlimit (eq_false_of_ne_true h)
      · obtain rfl : attempt = 0 := by omega
        refine .firstAttempt hphase ?_
        simp only [Bool.and_eq_true, Bool.not_eq_true', decide_eq_true_eq, not_and, Nat.not_le] at hlimit
        exact (eq_or_ne timing.reconnectIndefinitely true).imp_right fun h => hlimit (eq_false_of_ne_true h)
    · cases hstep
  | connected =>
    simp only [WireClock.step] at hstep
    split at hstep
    · rename_i attempt start hphase
      obtain rfl := Option.some.inj hstep
      exact .connected attempt start hphase
    · cases hstep
  | refused =>
    simp only [WireClock.step] at hstep
    split at hstep
    · rename_i attempt start hphase
      obtain rfl := Option.some.inj hstep
      exact .refused attempt start hphase
    · cases hstep
  | stop =>
    obtain rfl := Option.some.inj hstep
    exact .stop

end Steps

/-! ### The spacing of what is sent -/

/-- An instant at which the wire is free of `t`. -/
def Transmission.Clear (timing : WireTiming) (t : Transmission) (instant : MonotonicMillis) : Prop :=
  t.stop + timing.transmissionInterval ≤ instant ∧ (powersOn t.command = true → t.stop + powerOnQuiet ≤ instant)

/-- What the transport's variables say of the writes so far. -/
structure Scheduled (timing : WireTiming) (s : WireClock) : Prop where
  past : ∀ t ∈ s.log, t.start ≤ t.stop ∧ t.stop ≤ s.now
  last : ∀ t ∈ s.log, ∃ last, s.lastTransmission = some last ∧ t.stop ≤ last
  lastOf : ∀ last, s.lastTransmission = some last → ∃ t ∈ s.log, t.stop = last
  quietOf : ∀ quiet, s.powerOnQuietUntil = some quiet →
    ∃ t ∈ s.log, powersOn t.command = true ∧ t.stop + powerOnQuiet = quiet
  quiet : ∀ t ∈ s.log, powersOn t.command = true → ∃ quiet, s.powerOnQuietUntil = some quiet ∧ t.stop + powerOnQuiet ≤ quiet
  sleeping : ∀ command wants due, s.phase = .sleeping command wants due → ∀ t ∈ s.log, t.Clear timing due
  writing : ∀ command wants start, s.phase = .writing command wants start →
    start ≤ s.now ∧ ∀ t ∈ s.log, t.Clear timing start
  apart : s.log.Pairwise fun t t' => t.Clear timing t'.start

section Scheduled
variable {timing : WireTiming} {s s' : WireClock} {t : Transmission} {instant later : MonotonicMillis}

theorem Transmission.Clear.mono (h : t.Clear timing instant) (hle : instant ≤ later) : t.Clear timing later :=
  ⟨h.1.trans hle, fun hpower => (h.2 hpower).trans hle⟩

/-- What is due is clear of everything that was sent. -/
theorem Scheduled.clear_due (h : Scheduled timing s) (hmem : t ∈ s.log) : t.Clear timing (s.due timing) := by
  obtain ⟨last, hlast, hle⟩ := h.last t hmem
  have hdue : s.due timing = max (s.powerOnQuietUntil.getD s.now) (last + timing.transmissionInterval) := by
    unfold WireClock.due
    rw [hlast]
  rw [hdue]
  refine ⟨le_max_of_le_right (Nat.add_le_add_right hle _), fun hpower => le_max_of_le_left ?_⟩
  obtain ⟨quiet, hquiet, hle⟩ := h.quiet t hmem hpower
  rw [hquiet]
  exact hle

/-- A step that writes nothing keeps what is known of the writes. -/
theorem Scheduled.silent (h : Scheduled timing s) (hnow : s.now ≤ s'.now) (hlast : s'.lastTransmission = s.lastTransmission)
    (hquiet : s'.powerOnQuietUntil = s.powerOnQuietUntil) (hlog : s'.log = s.log)
    (hsleeping : ∀ command wants due, s'.phase = .sleeping command wants due → ∀ t ∈ s.log, t.Clear timing due)
    (hwriting : ∀ command wants start, s'.phase = .writing command wants start →
      start ≤ s'.now ∧ ∀ t ∈ s.log, t.Clear timing start) : Scheduled timing s' where
  past t hmem := by
    obtain ⟨hle, hpast⟩ := h.past t (hlog ▸ hmem)
    exact ⟨hle, hpast.trans hnow⟩
  last t hmem := hlast ▸ h.last t (hlog ▸ hmem)
  lastOf := hlast ▸ hlog ▸ h.lastOf
  quietOf := hquiet ▸ hlog ▸ h.quietOf
  quiet t hmem := hquiet ▸ h.quiet t (hlog ▸ hmem)
  sleeping := hlog ▸ hsleeping
  writing := hlog ▸ hwriting
  apart := hlog ▸ h.apart

theorem Scheduled.wrote (h : Scheduled timing s) {command : AvrCommand} {wants : Bool} {start : MonotonicMillis}
    (hphase : s.phase = .writing command wants start) {phase : WirePhase} {attempts : List Attempt}
    (hsleeping : ∀ command wants due, phase ≠ .sleeping command wants due)
    (hwriting : ∀ command wants start, phase ≠ .writing command wants start) :
    Scheduled timing { s with
      lastTransmission := some s.now
      powerOnQuietUntil := if powersOn command then some (s.now + powerOnQuiet) else s.powerOnQuietUntil
      log := s.log ++ [⟨command, start, s.now⟩]
      phase, attempts } := by
  obtain ⟨hstart, hclear⟩ := h.writing command wants start hphase
  refine ⟨fun t hmem => ?_, fun t hmem => ?_, fun last hlast => ?_, fun quiet hquiet => ?_, fun t hmem hpower => ?_,
    fun c w d heq => absurd heq (hsleeping c w d), fun c w b heq => absurd heq (hwriting c w b), ?_⟩
  · rcases List.mem_append.mp hmem with hmem | hmem
    · exact h.past t hmem
    · obtain rfl := List.mem_singleton.mp hmem
      exact ⟨hstart, le_rfl⟩
  · refine ⟨s.now, rfl, ?_⟩
    rcases List.mem_append.mp hmem with hmem | hmem
    · exact (h.past t hmem).2
    · obtain rfl := List.mem_singleton.mp hmem
      exact le_rfl
  · obtain rfl := Option.some.inj hlast
    exact ⟨_, List.mem_append_right _ (List.mem_singleton.mpr rfl), rfl⟩
  · dsimp only at hquiet
    split_ifs at hquiet with hpower
    · obtain rfl := Option.some.inj hquiet
      exact ⟨_, List.mem_append_right _ (List.mem_singleton.mpr rfl), hpower, rfl⟩
    · obtain ⟨t, hmem, hrest⟩ := h.quietOf quiet hquiet
      exact ⟨t, List.mem_append_left _ hmem, hrest⟩
  · dsimp only
    rcases List.mem_append.mp hmem with hmem | hmem
    · obtain ⟨quiet, hquiet, hle⟩ := h.quiet t hmem hpower
      split_ifs
      · exact ⟨_, rfl, Nat.add_le_add_right (h.past t hmem).2 _⟩
      · exact ⟨quiet, hquiet, hle⟩
    · obtain rfl := List.mem_singleton.mp hmem
      rw [if_pos hpower]
      exact ⟨_, rfl, le_rfl⟩
  · rw [List.pairwise_append]
    refine ⟨h.apart, List.pairwise_singleton _ _, fun t hmem t' hmem' => ?_⟩
    obtain rfl := List.mem_singleton.mp hmem'
    exact hclear t hmem

theorem Scheduled.step (h : Scheduled timing s) {a : WireAction} (hstep : s.step timing a = some s') :
    Scheduled timing s' := by
  cases wireStep_of_step hstep with
  | pass duration =>
    refine h.silent (Nat.le_add_right _ _) rfl rfl rfl h.sleeping fun command wants start hphase => ?_
    obtain ⟨hstart, hclear⟩ := h.writing command wants start hphase
    exact ⟨hstart.trans (Nat.le_add_right _ _), hclear⟩
  | taken command wants hphase hdue =>
    refine h.silent le_rfl rfl rfl rfl (fun _ _ _ heq => by cases heq) fun _ _ _ heq => ?_
    cases heq
    exact ⟨le_rfl, fun t hmem => (h.clear_due hmem).mono hdue⟩
  | held command wants hphase =>
    refine h.silent le_rfl rfl rfl rfl (fun _ _ _ heq => ?_) fun _ _ _ heq => by cases heq
    cases heq
    exact fun t hmem => h.clear_due hmem
  | begun command wants due hphase hdue =>
    refine h.silent le_rfl rfl rfl rfl (fun _ _ _ heq => by cases heq) fun _ _ _ heq => ?_
    cases heq
    exact ⟨le_rfl, fun t hmem => (h.sleeping command wants due hphase t hmem).mono hdue⟩
  | wrote command wants start phase attempts hphase hnext =>
    refine h.wrote hphase (fun _ _ _ heq => ?_) fun _ _ _ heq => ?_ <;>
      · rw [heq] at hnext
        simp at hnext
  | responded | failed | exhausted | backsOff | firstAttempt | laterAttempt | connected | refused | stop =>
    exact h.silent le_rfl rfl rfl rfl (fun _ _ _ heq => by cases heq) fun _ _ _ heq => by cases heq

theorem scheduled_of_reachable (h : (wireClock timing).Reachable s) : Scheduled timing s := by
  refine Machine.Reachable.invariant (fun s hinit => ?_) (fun s a s' _ hi hstep => hi.step hstep) h
  obtain ⟨now, rfl⟩ := hinit
  exact ⟨fun _ hmem => (by cases hmem), fun _ hmem => (by cases hmem), fun _ hlast => (by cases hlast),
    fun _ hquiet => (by cases hquiet), fun _ hmem => (by cases hmem), fun _ _ _ heq => (by cases heq),
    fun _ _ _ heq => (by cases heq), .nil⟩

/-- What is due is the first instant at which the wire is free of everything that was sent. -/
theorem Scheduled.due_le_iff (h : Scheduled timing s) (hnow : s.now ≤ instant) :
    s.due timing ≤ instant ↔ ∀ t ∈ s.log, t.Clear timing instant := by
  refine ⟨fun hdue t hmem => (h.clear_due hmem).mono hdue, fun hclear => ?_⟩
  have hquiet : s.powerOnQuietUntil.getD s.now ≤ instant := by
    cases hsome : s.powerOnQuietUntil with
    | none => exact hnow
    | some quiet =>
      obtain ⟨t, hmem, hpower, rfl⟩ := h.quietOf quiet hsome
      exact (hclear t hmem).2 hpower
  unfold WireClock.due
  cases hlast : s.lastTransmission with
  | none => exact hquiet
  | some last =>
    obtain ⟨t, hmem, rfl⟩ := h.lastOf last hlast
    exact max_le hquiet (hclear t hmem).1

end Scheduled

/-! ### The policy of the domain -/

/-- What the domain's policy knows after these writes. -/
def scheduleOf (timing : WireTiming) (log : List Transmission) : TransmissionSchedule :=
  log.foldl (fun schedule t => schedule.record t.command.text t.stop) { minimumIntervalMs := timing.transmissionInterval }

section Policy
variable {timing : WireTiming} {s : WireClock} {log : List Transmission}

theorem scheduleOf_concat (t : Transmission) :
    scheduleOf timing (log ++ [t]) = (scheduleOf timing log).record t.command.text t.stop := by
  unfold scheduleOf
  rw [List.foldl_append]
  rfl

theorem scheduleOf_limits : (scheduleOf timing log).minimumIntervalMs = timing.transmissionInterval ∧
    (scheduleOf timing log).powerOnQuietMs = powerOnQuiet := by
  induction log using List.reverseRecOn with
  | nil => exact ⟨rfl, rfl⟩
  | append_singleton log t ih =>
    rw [scheduleOf_concat]
    exact ih

theorem scheduleOf_last {last : MonotonicMillis} (h : (scheduleOf timing log).lastTransmission = some last) :
    ∃ t ∈ log, t.stop = last := by
  cases log using List.reverseRecOn with
  | nil => cases h
  | append_singleton log t =>
    rw [scheduleOf_concat] at h
    exact ⟨t, by simp, Option.some.inj h⟩

theorem scheduleOf_quiet {quiet : MonotonicMillis} (h : (scheduleOf timing log).quietUntil = some quiet) :
    ∃ t ∈ log, powersOn t.command = true ∧ quiet = saturatingAdd t.stop powerOnQuiet := by
  induction log using List.reverseRecOn with
  | nil => cases h
  | append_singleton log t ih =>
    rw [scheduleOf_concat] at h
    rcases TransmissionSchedule.record_quietUntil h with ⟨hcommand, hquiet⟩ | hkept
    · rw [scheduleOf_limits.2] at hquiet
      exact ⟨t, by simp, powersOn_of_text hcommand, hquiet⟩
    · obtain ⟨t', hmem, hrest⟩ := ih hkept
      exact ⟨t', List.mem_append_left _ hmem, hrest⟩

/-- An instant at which the wire is free of all that was sent is one that the policy allows. -/
theorem nextAllowedAt_le_of_clear {instant : MonotonicMillis} (h : ∀ t ∈ log, t.Clear timing instant) :
    (scheduleOf timing log).nextAllowedAt instant ≤ instant := by
  refine TransmissionSchedule.nextAllowedAt_le (fun last hlast => ?_) fun quiet hquiet => ?_
  · obtain ⟨t, hmem, rfl⟩ := scheduleOf_last hlast
    rw [scheduleOf_limits.1]
    exact (h t hmem).1
  · obtain ⟨t, hmem, hpower, hequal⟩ := scheduleOf_quiet hquiet
    rw [hequal]
    exact (saturatingAdd_le _ _).trans ((h t hmem).2 hpower)

/-- **Nothing is sent too early, or held too long.** In every run, reconnects and failed writes included, a command is sent
only `transmission_interval` after the end of every write before it and a second after the end of every write that
powered the receiver on, which is never earlier than the domain's policy allows it after those writes. And a request is
sent at once if the wire is free of all of them, or it is held until the first instant at which the wire is. -/
theorem transmissions_paced (timing : WireTiming) (s : WireClock) (h : (wireClock timing).Reachable s) :
    (∀ k t, s.log[k]? = some t → (∀ earlier ∈ s.log.take k, earlier.Clear timing t.start) ∧
        (scheduleOf timing (s.log.take k)).nextAllowedAt t.start ≤ t.start) ∧
      ∀ command wants s', s.step timing (.request command wants) = some s' →
        s'.phase = .writing command wants s.now ∧ (∀ t ∈ s.log, t.Clear timing s.now) ∨
          ∃ due, s'.phase = .sleeping command wants due ∧ s.now < due ∧
            ∀ instant, s.now ≤ instant → (due ≤ instant ↔ ∀ t ∈ s.log, t.Clear timing instant) := by
  have hscheduled := scheduled_of_reachable h
  refine ⟨fun k t ht => ?_, fun command wants s' hstep => ?_⟩
  · have hclear : ∀ earlier ∈ s.log.take k, earlier.Clear timing t.start := by
      intro earlier hmem
      obtain ⟨hlt, hget⟩ := List.getElem?_eq_some_iff.mp ht
      obtain ⟨i, hi, rfl⟩ := List.mem_take_iff_getElem.mp hmem
      rw [← hget]
      exact List.pairwise_iff_getElem.mp hscheduled.apart i k _ hlt (by omega)
    exact ⟨hclear, nextAllowedAt_le_of_clear hclear⟩
  · simp only [WireClock.step] at hstep
    split_ifs at hstep with hphase hdue <;> obtain rfl := Option.some.inj hstep
    · exact .inr ⟨_, rfl, hdue, fun instant hnow => hscheduled.due_le_iff hnow⟩
    · exact .inl ⟨rfl, (hscheduled.due_le_iff le_rfl).mp (Nat.le_of_not_lt hdue)⟩

/-- The receiver is powered on and then queried. -/
def poweredOn : WireClock :=
  ((wireClock {}).exec { now := 0 } [.request ⟨"PWON", rfl, rfl⟩ false, .pass 2, .wrote true,
    .request ⟨"MV?", rfl, rfl⟩ true, .pass 1000, .wake, .pass 3, .wrote true]).get (by decide)

theorem transmissions_paced_poweredOn : poweredOn.log.map (·.start) = [0, 1002] ∧
    (∀ earlier ∈ poweredOn.log.take 1, earlier.Clear {} 1002) ∧
      (scheduleOf {} (poweredOn.log.take 1)).nextAllowedAt 1002 ≤ 1002 :=
  ⟨by decide, (transmissions_paced {} poweredOn
    (Machine.reachable_of_exec (M := wireClock {}) _ _ ⟨0, rfl⟩ (Option.some_get _).symm)).1 1
      ⟨⟨"MV?", rfl, rfl⟩, 1002, 1005⟩ (by decide)⟩

end Policy

/-! ### The attempts to connect -/

/-- Whether a reconnect may go on after so many attempts that failed. -/
def WireTiming.Allows (timing : WireTiming) (attempt : ℕ) : Prop :=
  timing.reconnectIndefinitely = true ∨ attempt < timing.reconnectAttempts

/-- An instant that is late enough for another attempt. -/
def BackedOff (timing : WireTiming) (attempts : List Attempt) (instant : MonotonicMillis) : Prop :=
  ∀ last, attempts.getLast? = some last → last.stop + WireClock.backoff timing attempts.length ≤ instant

/-- So many attempts were made, and all of them failed. -/
def FailedSoFar (attempts : List Attempt) (attempt : ℕ) : Prop :=
  attempts.length = attempt ∧ ∀ a ∈ attempts, a.connected = false

/-- What is known of the reconnect under way, or of the last one. -/
structure Retried (timing : WireTiming) (s : WireClock) : Prop where
  past : ∀ attempt ∈ s.attempts, attempt.stop ≤ s.now
  allowed : ∀ k < s.attempts.length, timing.Allows k
  retrying : ∀ attempt, s.phase = .retrying attempt → FailedSoFar s.attempts attempt
  backingOff : ∀ attempt due, s.phase = .backingOff attempt due →
    FailedSoFar s.attempts attempt ∧ timing.Allows attempt ∧ BackedOff timing s.attempts due
  connecting : ∀ attempt start, s.phase = .connecting attempt start →
    FailedSoFar s.attempts attempt ∧ timing.Allows attempt ∧ start ≤ s.now ∧ BackedOff timing s.attempts start
  spaced : ∀ k a b, s.attempts[k]? = some a → s.attempts[k + 1]? = some b →
    a.connected = false ∧ a.stop + WireClock.backoff timing (k + 1) ≤ b.start

section Retried
variable {timing : WireTiming} {s s' : WireClock}

theorem Retried.silent (h : Retried timing s) (hnow : s.now ≤ s'.now) (hattempts : s'.attempts = s.attempts)
    (hretrying : ∀ attempt, s'.phase = .retrying attempt → FailedSoFar s.attempts attempt)
    (hbackingOff : ∀ attempt due, s'.phase = .backingOff attempt due →
      FailedSoFar s.attempts attempt ∧ timing.Allows attempt ∧ BackedOff timing s.attempts due)
    (hconnecting : ∀ attempt start, s'.phase = .connecting attempt start →
      FailedSoFar s.attempts attempt ∧ timing.Allows attempt ∧ start ≤ s'.now ∧ BackedOff timing s.attempts start) :
    Retried timing s' where
  past attempt hmem := (h.past attempt (hattempts ▸ hmem)).trans hnow
  allowed := hattempts ▸ h.allowed
  retrying := hattempts ▸ hretrying
  backingOff := hattempts ▸ hbackingOff
  connecting := hattempts ▸ hconnecting
  spaced := hattempts ▸ h.spaced

/-- A reconnect begins. -/
theorem retried_begun (s : WireClock) (hphase : s.phase = .retrying 0) (hattempts : s.attempts = []) :
    Retried timing s := by
  refine ⟨fun _ hmem => ?_, fun k hk => ?_, fun attempt heq => ?_, fun _ _ heq => ?_, fun _ _ heq => ?_, fun k a b ha => ?_⟩
  · rw [hattempts] at hmem
    cases hmem
  · rw [hattempts] at hk
    cases hk
  · rw [hphase] at heq
    cases heq
    rw [hattempts]
    exact ⟨rfl, fun _ hmem => by cases hmem⟩
  · rw [hphase] at heq
    cases heq
  · rw [hphase] at heq
    cases heq
  · rw [hattempts] at ha
    cases ha

theorem Retried.tried (h : Retried timing s) {attempt : ℕ} {start : MonotonicMillis}
    (hphase : s.phase = .connecting attempt start) (connected : Bool) {phase : WirePhase}
    (hnext : phase = if connected then .waiting else .retrying (attempt + 1)) :
    Retried timing { s with phase, attempts := s.attempts ++ [⟨start, s.now, connected⟩] } := by
  obtain ⟨⟨hlength, hfailed⟩, hallowed, hstart, hbacked⟩ := h.connecting attempt start hphase
  refine ⟨fun a hmem => ?_, fun k hk => ?_, fun n heq => ?_, fun _ _ heq => ?_, fun _ _ heq => ?_, fun k a b ha hb => ?_⟩
  · rcases List.mem_append.mp hmem with hmem | hmem
    · exact h.past a hmem
    · obtain rfl := List.mem_singleton.mp hmem
      exact le_rfl
  · change k < (s.attempts ++ [_]).length at hk
    rw [List.length_append, List.length_singleton, Nat.lt_succ_iff_lt_or_eq] at hk
    rcases hk with hk | rfl
    · exact h.allowed k hk
    · rw [hlength]
      exact hallowed
  · -- Another attempt follows only one that failed.
    obtain rfl : phase = .retrying n := heq
    cases connected with
    | true => cases hnext
    | false =>
      cases hnext
      refine ⟨?_, fun a hmem => ?_⟩
      · change (s.attempts ++ [_]).length = _
        rw [List.length_append, hlength]
        rfl
      · rcases List.mem_append.mp hmem with hmem | hmem
        · exact hfailed a hmem
        · obtain rfl := List.mem_singleton.mp hmem
          rfl
  · obtain rfl : phase = _ := heq
    cases connected <;> cases hnext
  · obtain rfl : phase = _ := heq
    cases connected <;> cases hnext
  · change (s.attempts ++ [_])[k]? = some a at ha
    change (s.attempts ++ [_])[k + 1]? = some b at hb
    have hk : k + 1 ≤ s.attempts.length := by
      have hlt := (List.getElem?_eq_some_iff.mp hb).1
      rw [List.length_append, List.length_singleton] at hlt
      omega
    rw [List.getElem?_append_left hk] at ha
    refine ⟨hfailed a (List.mem_of_getElem? ha), ?_⟩
    rcases hk.lt_or_eq with hk | hk
    · rw [List.getElem?_append_left hk] at hb
      exact (h.spaced k a b ha hb).2
    · rw [hk, List.getElem?_concat_length] at hb
      cases hb
      rw [hk]
      refine hbacked a ?_
      rw [List.getLast?_eq_getElem?, ← hk]
      exact ha

theorem Retried.step (h : Retried timing s) {a : WireAction} (hstep : s.step timing a = some s') : Retried timing s' := by
  cases wireStep_of_step hstep with
  | pass duration =>
    refine h.silent (Nat.le_add_right _ _) rfl h.retrying h.backingOff fun attempt start hphase => ?_
    obtain ⟨hfailed, hallowed, hstart, hbacked⟩ := h.connecting attempt start hphase
    exact ⟨hfailed, hallowed, hstart.trans (Nat.le_add_right _ _), hbacked⟩
  | wrote command wants start phase attempts hphase hnext =>
    rcases hnext with ⟨rfl | rfl, rfl⟩ | ⟨rfl, rfl⟩
    · exact h.silent le_rfl rfl (fun _ heq => by cases heq) (fun _ _ heq => by cases heq) fun _ _ heq => by cases heq
    · exact h.silent le_rfl rfl (fun _ heq => by cases heq) (fun _ _ heq => by cases heq) fun _ _ heq => by cases heq
    · exact retried_begun _ rfl rfl
  | failed hphase => exact retried_begun _ rfl rfl
  | backsOff attempt hphase hallowed hlater =>
    have hfailed := h.retrying attempt hphase
    refine h.silent le_rfl rfl (fun _ heq => by cases heq) (fun _ _ heq => ?_) fun _ _ heq => by cases heq
    cases heq
    refine ⟨hfailed, hallowed, fun last hlast => ?_⟩
    rw [hfailed.1]
    exact Nat.add_le_add_right (h.past last (List.mem_of_getLast? hlast)) _
  | firstAttempt hphase hallowed =>
    have hfailed := h.retrying 0 hphase
    refine h.silent le_rfl rfl (fun _ heq => by cases heq) (fun _ _ heq => by cases heq) fun _ _ heq => ?_
    cases heq
    refine ⟨hfailed, hallowed, le_rfl, fun last hlast => ?_⟩
    rw [List.length_eq_zero_iff.mp hfailed.1] at hlast
    cases hlast
  | laterAttempt attempt due hphase hdue =>
    obtain ⟨hfailed, hallowed, hbacked⟩ := h.backingOff attempt due hphase
    refine h.silent le_rfl rfl (fun _ heq => by cases heq) (fun _ _ heq => by cases heq) fun _ _ heq => ?_
    cases heq
    exact ⟨hfailed, hallowed, le_rfl, fun last hlast => (hbacked last hlast).trans hdue⟩
  | connected attempt start hphase => exact h.tried hphase true rfl
  | refused attempt start hphase => exact h.tried hphase false rfl
  | taken | held | begun | responded | exhausted | stop =>
    exact h.silent le_rfl rfl (fun _ heq => by cases heq) (fun _ _ heq => by cases heq) fun _ _ heq => by cases heq

theorem retried_of_reachable (h : (wireClock timing).Reachable s) : Retried timing s := by
  refine Machine.Reachable.invariant (fun s hinit => ?_) (fun s a s' _ hi hstep => hi.step hstep) h
  obtain ⟨now, rfl⟩ := hinit
  exact ⟨fun _ hmem => (by cases hmem), fun _ hk => (by cases hk), fun _ heq => (by cases heq), fun _ _ heq => (by cases heq),
    fun _ _ heq => (by cases heq), fun _ _ _ ha => (by cases ha)⟩

/-- **Attempts to connect back off.** In every run the attempts of one reconnect, the one that makes the connection
included, are as far apart as the doubling delay says, only the last of them makes one, a limited reconnect makes at most
`reconnect_attempts` of them, and it is given up only after exactly so many failed. -/
theorem attempts_back_off (timing : WireTiming) (s : WireClock) (h : (wireClock timing).Reachable s) :
    (timing.reconnectIndefinitely = true ∨ s.attempts.length ≤ timing.reconnectAttempts) ∧
      (∀ k a b, s.attempts[k]? = some a → s.attempts[k + 1]? = some b →
        a.connected = false ∧ a.stop + timing.reconnectDelay * 2 ^ min k 7 ≤ b.start) ∧
      ∀ s', s.step timing .retry = some s' → s'.phase = .stopped →
        timing.reconnectIndefinitely = false ∧ s.attempts.length = timing.reconnectAttempts ∧
          ∀ a ∈ s.attempts, a.connected = false := by
  have hretried := retried_of_reachable h
  have hlimit : timing.reconnectIndefinitely = true ∨ s.attempts.length ≤ timing.reconnectAttempts := by
    rcases Nat.eq_zero_or_pos s.attempts.length with hzero | hpos
    · exact .inr (hzero ▸ Nat.zero_le _)
    · refine (hretried.allowed (s.attempts.length - 1) (by omega)).imp_right fun hlt => ?_
      omega
  refine ⟨hlimit, hretried.spaced, fun s' hstep hstopped => ?_⟩
  simp only [WireClock.step] at hstep
  split at hstep
  · rename_i attempt hphase
    obtain rfl := Option.some.inj hstep
    obtain ⟨hlength, hfailed⟩ := hretried.retrying attempt hphase
    dsimp only at hstopped
    split_ifs at hstopped with hgiven
    simp only [Bool.and_eq_true, Bool.not_eq_true', decide_eq_true_eq] at hgiven
    refine ⟨hgiven.1, ?_, hfailed⟩
    have hle := hlimit.resolve_left (by simp [hgiven.1])
    omega
  · cases hstep

/-- The receiver drops the connection, refuses two more and takes the third. -/
def refusedTwice : WireClock :=
  ((wireClock {}).exec { now := 0 } [.idleFailed, .retry, .pass 10, .refused, .retry, .pass 250, .wake, .pass 10,
    .refused, .retry, .pass 500, .wake, .pass 10, .connected]).get (by decide)

theorem attempts_back_off_refusedTwice :
    refusedTwice.attempts = [⟨0, 10, false⟩, ⟨260, 270, false⟩, ⟨770, 780, true⟩] ∧
      (∀ k a b, refusedTwice.attempts[k]? = some a → refusedTwice.attempts[k + 1]? = some b →
        a.connected = false ∧ a.stop + 250 * 2 ^ min k 7 ≤ b.start) :=
  ⟨by decide, (attempts_back_off {} refusedTwice
    (Machine.reachable_of_exec (M := wireClock {}) _ _ ⟨0, rfl⟩ (Option.some_get _).symm)).2.1⟩

end Retried

end DenonAvr.Session
