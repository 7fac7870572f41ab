import DenonAvr.Application.Progress
import DenonAvr.Library.Tally
import DenonAvr.Library.Window

/-!
# Agents within their caps

What a label is charged over a whole run, with the writes that are kept for it as a limiter of its own (`Paced`). Another
label's charge touches a label's writes in one way: the sweep, which forgets a label only when its last write, and so
every one of them, is out of the window. The number of unfinished operations of an owner grows at an admission only, and
an agent's admission finds it below the cap.
-/

namespace DenonAvr.Application

open Domain Library Library.Tally

/-! ### A charge -/

theorem writeWindow_pos : 0 < writeWindow := by decide

/-- The writes that are kept for a label. -/
def writesOf (writes : Writes) (label : AgentLabel) : List Instant := (writes.lookup label).getD []

/-- The books as a charge leaves them to the other labels. -/
def sweptFor (writes : Writes) (now : Instant) : Writes :=
  if sweepLabelsAbove < writes.keys.length then sweepLabels writes now else writes

/-- What a charge counts against the cap. -/
def recentWrites (writes : Writes) (label : AgentLabel) (now : Instant) : List Instant :=
  (writesOf (sweptFor writes now) label).dropWhile fun at_ => decide (writeWindow ≤ now - at_)

/-- The time that a refused charge states. -/
def retryAfter (recent : List Instant) (now : Instant) : ℕ :=
  recent.head?.elim writeWindow fun oldest => writeWindow - (now - oldest)

section Charge
variable {limits : AgentLimits} {writes : Writes} {label other : AgentLabel} {now : Instant}

theorem chargeWrite_eq (limits : AgentLimits) (writes : Writes) (label : AgentLabel) (now : Instant) :
    chargeWrite limits writes label now =
      if limits.writesPerMinute ≤ (recentWrites writes label now).length then
        (AList.insert label (recentWrites writes label now) (sweptFor writes now),
          .error (.rateLimited (some (retryAfter (recentWrites writes label now) now))))
      else (AList.insert label (recentWrites writes label now ++ [now]) (sweptFor writes now), .ok ()) := rfl

theorem chargeWrite_of_full (h : limits.writesPerMinute ≤ (recentWrites writes label now).length) :
    chargeWrite limits writes label now =
      (AList.insert label (recentWrites writes label now) (sweptFor writes now),
        .error (.rateLimited (some (retryAfter (recentWrites writes label now) now)))) := by
  rw [chargeWrite_eq, if_pos h]

theorem chargeWrite_of_room (h : (recentWrites writes label now).length < limits.writesPerMinute) :
    chargeWrite limits writes label now =
      (AList.insert label (recentWrites writes label now ++ [now]) (sweptFor writes now), .ok ()) := by
  rw [chargeWrite_eq, if_neg h.not_ge]

theorem writesOf_insert (recent : List Instant) : writesOf (AList.insert label recent writes) label = recent := by
  unfold writesOf
  rw [AList.lookup_insert]
  rfl

theorem writesOf_insert_of_ne (hne : other ≠ label) (recent : List Instant) :
    writesOf (AList.insert label recent writes) other = writesOf writes other := by
  unfold writesOf
  rw [AList.lookup_insert_ne hne]

/-- The sweep leaves a label alone, or forgets it because its last write is out of the window. -/
theorem lookup_sweepLabels (writes : Writes) (now : Instant) (label : AgentLabel) :
    (sweepLabels writes now).lookup label = writes.lookup label ∨
      (sweepLabels writes now).lookup label = none ∧
        (((writes.lookup label).bind List.getLast?).any fun at_ => decide (now - at_ < writeWindow)) = false := by
  suffices h : ∀ (labels : List AgentLabel) (swept : Writes),
      (swept.lookup label = writes.lookup label ∨ swept.lookup label = none ∧
        (((writes.lookup label).bind List.getLast?).any fun at_ => decide (now - at_ < writeWindow)) = false) →
      let result := labels.foldl (fun swept label =>
        let last := (writes.lookup label).bind List.getLast?
        if last.any fun at_ => decide (now - at_ < writeWindow) then swept else swept.erase label) swept
      result.lookup label = writes.lookup label ∨ result.lookup label = none ∧
        (((writes.lookup label).bind List.getLast?).any fun at_ => decide (now - at_ < writeWindow)) = false from
    h writes.keys writes (.inl rfl)
  intro labels
  induction labels with
  | nil => exact fun _ h => h
  | cons first labels ih =>
    intro swept h
    refine ih _ ?_
    dsimp only
    split_ifs with hkept
    · exact h
    · by_cases heq : label = first
      · rw [heq]
        exact .inr ⟨AList.lookup_erase _ _, Bool.eq_false_iff.mpr hkept⟩
      · rw [AList.lookup_erase_ne heq]
        exact h

theorem writesOf_sweptFor (hsorted : (writesOf writes label).Pairwise (· ≤ ·)) (now : Instant) :
    writesOf (sweptFor writes now) label = writesOf writes label ∨
      writesOf (sweptFor writes now) label = [] ∧ ∀ t ∈ writesOf writes label, live writeWindow now t = false := by
  unfold sweptFor
  split_ifs
  · rcases lookup_sweepLabels writes now label with hsame | ⟨hgone, hlast⟩
    · exact .inl (congrArg (·.getD []) hsame)
    · refine .inr ⟨by unfold writesOf; rw [hgone]; rfl, fun t ht => ?_⟩
      cases hlookup : writes.lookup label with
      | none =>
        rw [writesOf, hlookup] at ht
        exact absurd ht List.not_mem_nil
      | some recent =>
        have hwrites : writesOf writes label = recent := by rw [writesOf, hlookup]; rfl
        rw [hwrites] at ht hsorted
        rw [hlookup] at hlast
        cases hyoungest : recent.getLast? with
        | none => rw [List.getLast?_eq_none_iff.mp hyoungest] at ht; exact absurd ht List.not_mem_nil
        | some last =>
          have hle := le_of_getLast? hsorted hyoungest t ht
          have hold : decide (now - last < writeWindow) = false := by
            rw [Option.bind_some, hyoungest] at hlast
            exact hlast
          rw [decide_age_lt writeWindow_pos, live_eq_false_iff] at hold
          exact live_eq_false_iff.mpr ((Nat.add_le_add_right hle _).trans hold)
  · exact .inl rfl

/-- What a charge counts is what is young of what is kept, with or without the sweep. -/
theorem recentWrites_eq (hsorted : (writesOf writes label).Pairwise (· ≤ ·)) (now : Instant) :
    recentWrites writes label now = (writesOf writes label).filter (live writeWindow now) := by
  have hold : ∀ recent : List Instant, recent.Pairwise (· ≤ ·) →
      (recent.dropWhile fun at_ => decide (writeWindow ≤ now - at_)) = recent.filter (live writeWindow now) := by
    intro recent hrecent
    rw [← dropWhile_eq_filter_live hrecent]
    congr 1
    funext t
    exact decide_le_age writeWindow_pos now t
  unfold recentWrites
  rcases writesOf_sweptFor hsorted now with hsame | ⟨hgone, hall⟩
  · rw [hsame]
    exact hold _ hsorted
  · rw [hgone, List.filter_eq_nil_iff.mpr fun t ht => by rw [hall t ht]; exact Bool.false_ne_true]
    rfl

end Charge

/-! ### Unfinished operations -/

section Unfinished
variable {operations operations' : Operations} {id : OperationId} {owner : Principal}

/-- A change of an operation that is not finished leaves no more unfinished ones. -/
theorem unfinishedOf_transition {change : OperationSnapshot → Option OperationSnapshot}
    (h : operations.transition id change = some operations')
    (hchange : ∀ before after, change before = some after → before.status.isTerminal = false) (owner : Principal) :
    unfinishedOf operations' owner ≤ unfinishedOf operations owner := by
  obtain ⟨entry, snapshot, hentry, hsnapshot, rfl⟩ := Operations.transition_eq_some h
  have hcount := countP_insert (fun e : Sigma fun _ : OperationId => Entry =>
    e.2.owner == owner && !e.2.snapshot.status.isTerminal) { entry with snapshot } hentry
  have hrunning : entry.snapshot.status.isTerminal = false := hchange _ _ hsnapshot
  have hweight : weight (fun e : Sigma fun _ : OperationId => Entry =>
        e.2.owner == owner && !e.2.snapshot.status.isTerminal) ⟨id, { entry with snapshot }⟩ ≤
      weight (fun e : Sigma fun _ : OperationId => Entry =>
        e.2.owner == owner && !e.2.snapshot.status.isTerminal) ⟨id, entry⟩ := by
    refine weight_mono fun hafter => ?_
    simp only [Bool.and_eq_true] at hafter ⊢
    exact ⟨hafter.1, by rw [hrunning]; rfl⟩
  unfold unfinishedOf
  dsimp only
  omega

theorem unfinishedOf_moveFrom {start next : OperationStatus} (hstart : start.isTerminal = false)
    (h : operations.moveFrom id start next = some operations') (owner : Principal) :
    unfinishedOf operations' owner ≤ unfinishedOf operations owner := by
  refine unfinishedOf_transition h (fun before after hchange => ?_) owner
  split_ifs at hchange with heq
  rwa [heq]

theorem unfinishedOf_finish {resolution : Resolution} (h : operations.finish id resolution = some operations')
    (owner : Principal) : unfinishedOf operations' owner ≤ unfinishedOf operations owner := by
  refine unfinishedOf_transition h (fun before after hchange => ?_) owner
  split_ifs at hchange with hterminal
  exact Bool.eq_false_iff.mpr hterminal

theorem unfinishedOf_dropTask (operations : Operations) (id : OperationId) (owner : Principal) :
    unfinishedOf ((operations.dropTask id).getD operations) owner ≤ unfinishedOf operations owner := by
  cases h : operations.dropTask id with
  | none => exact le_rfl
  | some dropped =>
    refine unfinishedOf_transition h (fun before after hchange => ?_) owner
    split_ifs at hchange with hterminal
    exact Bool.eq_false_iff.mpr hterminal

theorem unfinishedOf_cancel {viewer : Principal} {snapshot : OperationSnapshot}
    (h : operations.cancel viewer id = .ok (operations', snapshot)) (owner : Principal) :
    unfinishedOf operations' owner ≤ unfinishedOf operations owner := by
  obtain ⟨-, -, -, -, hmoved⟩ := Operations.cancel_eq_ok h
  refine unfinishedOf_transition hmoved (fun before after hchange => ?_) owner
  split_ifs at hchange with hcancellable
  by_contra hterminal
  rw [OperationStatus.isCancellable_of_isTerminal (Bool.not_eq_false _ ▸ hterminal)] at hcancellable
  cases hcancellable

theorem unfinishedOf_evict (operations : Operations) (id : OperationId) (owner : Principal) :
    unfinishedOf (operations.evict id) owner ≤ unfinishedOf operations owner := by
  unfold Operations.evict
  cases operations.entryOf id with
  | none => exact le_rfl
  | some entry => exact countP_erase_le _ id

theorem unfinishedOf_evictLoop (operations : Operations) (excess : ℕ) (kept order : List OperationId) (owner : Principal) :
    unfinishedOf (operations.evictLoop excess kept order) owner ≤ unfinishedOf operations owner := by
  induction order generalizing operations excess kept with
  | nil => exact le_rfl
  | cons first order ih =>
    unfold Operations.evictLoop
    split_ifs
    · exact (ih _ _ _).trans (unfinishedOf_evict operations first owner)
    · exact ih _ _ _

theorem unfinishedOf_evictFinished (operations : Operations) (retained : ℕ) (owner : Principal) :
    unfinishedOf (operations.evictFinished retained) owner ≤ unfinishedOf operations owner := by
  unfold Operations.evictFinished
  dsimp only
  split_ifs
  · exact le_rfl
  · exact unfinishedOf_evictLoop operations _ _ _ owner

/-- A new operation counts for its owner only. -/
theorem unfinishedOf_add (operations : Operations) (owner other : Principal) (receiver : ReceiverId)
    (submission : OperationSubmission) (status : OperationStatus) :
    unfinishedOf (operations.add owner receiver submission status).1 other ≤
      unfinishedOf operations other + if owner = other then 1 else 0 := by
  refine (countP_insert_le _ _ _ _).trans (Nat.add_le_add_left ?_ _)
  unfold weight
  by_cases heq : owner = other
  · rw [if_pos heq]
    split_ifs <;> simp
  · simp [heq]

end Unfinished

/-! ### The service, metered -/

/-- A write charged to a label. -/
structure Charge where
  label : AgentLabel
  instant : Instant
  answer : Except ControlError Unit

namespace Service

/-- The charge that a step makes. -/
def charge? (cfg : Settings) (s : Service) : Action → Option Charge
  | .submit (.agent label) receiver submission now =>
    if receiver.isAdHoc then none
    else match s.operations.retried (.agent label) receiver submission with
      | .ok none =>
        if cfg.limits.unfinishedOperations ≤ unfinishedOf s.operations (.agent label) then none
        else some ⟨label, now, (chargeWrite cfg.limits s.writes label now).2⟩
      | _ => none
  | .chargeDryRun label now => some ⟨label, now, (chargeWrite cfg.limits s.writes label now).2⟩
  | _ => none

section Charge
variable {cfg : Settings} {s s' : Service} {a : Action} {c : Charge}

/-- A submission that is charged is an agent's, new, and below the cap on unfinished operations. -/
theorem charge?_submit {caller : Principal} {receiver : ReceiverId} {submission : OperationSubmission} {now : Instant}
    (h : s.charge? cfg (.submit caller receiver submission now) = some c) :
    caller = .agent c.label ∧ c.instant = now ∧ receiver.isAdHoc = false ∧
      s.operations.retried caller receiver submission = .ok none ∧
      unfinishedOf s.operations caller < cfg.limits.unfinishedOperations ∧
      c.answer = (chargeWrite cfg.limits s.writes c.label c.instant).2 := by
  cases caller with
  | operator => cases h
  | agent label =>
    simp only [charge?] at h
    cases hadHoc : receiver.isAdHoc with
    | true => rw [if_pos hadHoc] at h; cases h
    | false =>
      rw [if_neg (Bool.eq_false_iff.mp hadHoc)] at h
      split at h
      · rename_i hretried
        by_cases hfull : cfg.limits.unfinishedOperations ≤ unfinishedOf s.operations (.agent label)
        · rw [if_pos hfull] at h
          cases h
        · rw [if_neg hfull] at h
          obtain rfl := Option.some.inj h
          exact ⟨rfl, rfl, rfl, hretried, not_le.mp hfull, rfl⟩
      · cases h

theorem charge?_answer (h : s.charge? cfg a = some c) :
    c.answer = (chargeWrite cfg.limits s.writes c.label c.instant).2 := by
  cases a with
  | submit caller receiver submission now => exact (charge?_submit h).2.2.2.2.2
  | chargeDryRun label now =>
    obtain rfl := Option.some.inj h
    rfl
  | _ => cases h

/-- A submission that is charged is answered as its charge is: it is refused with the charge's error, or a new operation
is recorded. -/
theorem submit_of_charge {caller : Principal} {receiver : ReceiverId} {submission : OperationSubmission} {now : Instant}
    (h : s.charge? cfg (.submit caller receiver submission now) = some c) :
    (s.submit cfg caller receiver submission now).1.writes = (chargeWrite cfg.limits s.writes c.label c.instant).1 ∧
      match c.answer with
      | .error error => (s.submit cfg caller receiver submission now).2 = .error error
      | .ok () => ∃ snapshot, (s.submit cfg caller receiver submission now).2 = .ok snapshot ∧
          snapshot.id = s.operations.nextId + 1 := by
  obtain ⟨rfl, rfl, hadHoc, hretried, hroom, hanswer⟩ := charge?_submit h
  have hcount : countNew cfg.limits s.operations s.writes (.agent c.label) c.instant =
      chargeWrite cfg.limits s.writes c.label c.instant := if_neg hroom.not_ge
  unfold Service.submit admitRequest
  rw [if_neg fun h => Bool.eq_false_iff.mp hadHoc h.1, hretried, hanswer]
  dsimp only
  rw [hcount]
  obtain ⟨writes, answer⟩ := chargeWrite cfg.limits s.writes c.label c.instant
  cases answer with
  | error error => exact ⟨rfl, rfl⟩
  | ok admitted => exact ⟨rfl, _, rfl, congrArg (· + 1) (s.operations.evictFinished_spec cfg.retained).1⟩

/-- A submission that is not charged leaves the writes alone. -/
theorem writes_of_uncharged {caller : Principal} {receiver : ReceiverId} {submission : OperationSubmission} {now : Instant}
    (h : s.charge? cfg (.submit caller receiver submission now) = none) :
    (s.submit cfg caller receiver submission now).1.writes = s.writes := by
  unfold Service.submit
  split_ifs with hadHoc
  · rfl
  · unfold admitRequest
    cases hretried : s.operations.retried caller receiver submission with
    | error error => rfl
    | ok existing =>
      cases existing with
      | some existing => rfl
      | none =>
        cases caller with
        | operator => rfl
        | agent label =>
          have hfull : cfg.limits.unfinishedOperations ≤ unfinishedOf s.operations (.agent label) := by
            by_contra hroom
            simp only [charge?] at h
            rw [if_neg fun h => hadHoc ⟨h, by simp⟩, hretried] at h
            dsimp only at h
            rw [if_neg hroom] at h
            cases h
          have hcount : countNew cfg.limits s.operations s.writes (.agent label) now =
              (s.writes, .error (.rateLimited none)) := if_pos hfull
          dsimp only
          rw [hcount]

end Charge

end Service

/-! ### What a step does to the caps -/

section Step
variable {cfg : Settings} {s s' : Service} {id : OperationId} {task : Task} {w : World} {pc : Pc} {a : Action}

/-- A task charges nothing. -/
theorem advance_writes (h : advance cfg s id task w = some (s', pc)) : s'.writes = s.writes := by
  cases advanceStep_of_advance h with
  | judging policy label =>
    unfold judgeStep
    dsimp only
    split <;> rfl
  | _ => rfl

/-- **The writes change by charges.** -/
theorem writes_of_step (h : s.step cfg a = some s') :
    s'.writes = (s.charge? cfg a).elim s.writes fun c => (chargeWrite cfg.limits s.writes c.label c.instant).1 := by
  cases serviceStep_of_step h with
  | submit caller receiver submission now =>
    cases hcharge : s.charge? cfg (.submit caller receiver submission now) with
    | none => exact Service.writes_of_uncharged hcharge
    | some c => exact (Service.submit_of_charge hcharge).1
  | advance id w task moved place htask hadvance =>
    have hwrites := advance_writes hadvance
    split_ifs <;> exact hwrites
  | _ => rfl

/-- A step of a task leaves no more unfinished operations of anyone. -/
theorem Frame.unfinishedOf (h : Frame cfg id task s s') (owner : Principal) :
    unfinishedOf s'.operations owner ≤ unfinishedOf s.operations owner := by
  cases h.table with
  | same hoperations _ => rw [hoperations]
  | allowed hmove _ => exact unfinishedOf_moveFrom rfl hmove owner
  | begun hbegin _ =>
    have hmove : s.operations.moveFrom id .allowed .inSession = some s'.operations := hbegin
    exact unfinishedOf_moveFrom rfl hmove owner
  | finished _ _ hfinish _ => exact unfinishedOf_finish hfinish owner

/-- **Unfinished operations are added by admissions**, and to an agent below the cap. -/
theorem unfinishedOf_step (h : s.step cfg a = some s') (label : AgentLabel)
    (hcap : unfinishedOf s.operations (.agent label) ≤ cfg.limits.unfinishedOperations) :
    unfinishedOf s'.operations (.agent label) ≤ cfg.limits.unfinishedOperations := by
  cases serviceStep_of_step h with
  | submit caller receiver submission now =>
    unfold Service.submit
    split_ifs with hadHoc
    · exact hcap
    · unfold admitRequest
      cases hretried : s.operations.retried caller receiver submission with
      | error error => exact hcap
      | ok existing =>
        cases existing with
        | some existing => exact hcap
        | none =>
          dsimp only
          cases hcount : countNew cfg.limits s.operations s.writes caller now with
          | mk writes answer =>
            cases answer with
            | error error => exact hcap
            | ok admitted =>
              refine (unfinishedOf_add _ caller (.agent label) receiver submission _).trans ?_
              have hevicted := unfinishedOf_evictFinished s.operations cfg.retained (.agent label)
              split_ifs with heq
              · subst heq
                have hroom : ¬ cfg.limits.unfinishedOperations ≤ unfinishedOf s.operations (.agent label) := by
                  intro hfull
                  have hrefused : countNew cfg.limits s.operations s.writes (.agent label) now =
                      (s.writes, .error (.rateLimited none)) := if_pos hfull
                  rw [hrefused] at hcount
                  cases hcount
                omega
              · omega
  | cancelled viewer id operations snapshot hcancel => exact (unfinishedOf_cancel hcancel _).trans hcap
  | advance id w task moved place htask hadvance =>
    have hmoved := ((advance_frame hadvance).unfinishedOf (.agent label)).trans hcap
    split_ifs
    · exact (unfinishedOf_dropTask moved.operations id _).trans hmoved
    · exact hmoved
  | panic id => exact (unfinishedOf_dropTask s.operations id _).trans hcap
  | uncancelled | loadPolicy | noteElsewhere | shutdown | chargeDryRun | rebuildElsewhere | takenIn | unread => exact hcap

end Step

/-! ### The service, metered -/

/-- The service, with every charge that was made, oldest first. -/
structure Metered where
  service : Service := {}
  charges : List Charge := []

namespace Metered

/-- The charges of a label. -/
def chargesOf (m : Metered) (label : AgentLabel) : List Charge := m.charges.filter (·.label == label)

/-- When the charges of a label that succeeded were made. -/
def passed (m : Metered) (label : AgentLabel) : List Instant :=
  ((m.chargesOf label).filter (·.answer.isOk)).map (·.instant)

/-- When the last charge was made. -/
def latest (m : Metered) : Instant := (m.charges.getLast?.map (·.instant)).getD 0

/-- The step charges nothing, or no earlier than the charges before it. -/
def InOrder (cfg : Settings) (m : Metered) (a : Action) : Prop :=
  ((m.service.charge? cfg a).all fun c => decide (m.latest ≤ c.instant)) = true

instance (cfg : Settings) (m : Metered) (a : Action) : Decidable (m.InOrder cfg a) :=
  inferInstanceAs (Decidable (_ = true))

end Metered

/-- Every run of the service, with its charges. -/
def metered (cfg : Settings) : Machine Metered Action where
  init m := m = {}
  step m a := (m.service.step cfg a).map fun service =>
    { service, charges := m.charges ++ (m.service.charge? cfg a).toList }

/-- What the caps promise. -/
structure Capped (cfg : Settings) (m : Metered) : Prop where
  /-- Of a label's charges, no more than the cap succeed in a window. -/
  rate : ∀ label, AtMost cfg.limits.writesPerMinute writeWindow (m.passed label)
  /-- A refused charge states a time, and the label's next charge succeeds if it is made no earlier. -/
  retry : ∀ c, (m.chargesOf c.label).getLast? = some c → ∀ error, c.answer = .error error →
    ∃ retry, error = .rateLimited (some retry) ∧
      ∀ a c', m.InOrder cfg a → m.service.charge? cfg a = some c' → c'.label = c.label → c.instant + retry ≤ c'.instant →
        c'.answer = .ok ()
  /-- The stated time is a difference that does not underflow. -/
  noUnderflow : ∀ a c, m.InOrder cfg a → m.service.charge? cfg a = some c →
    ∀ oldest, (recentWrites m.service.writes c.label c.instant).head? = some oldest →
      oldest ≤ c.instant ∧ c.instant - oldest ≤ writeWindow
  unfinished : ∀ label, unfinishedOf m.service.operations (.agent label) ≤ cfg.limits.unfinishedOperations

/-- After a refusal that stated `retry`, there is room once that time is over. -/
def Recovers (n : ℕ) (kept : List Instant) (c : Charge) : Prop :=
  ∀ error, c.answer = .error error → ∃ retry, error = .rateLimited (some retry) ∧
    ∀ now, c.instant + retry ≤ now → (kept.filter (live writeWindow now)).length < n

/-- What is kept for a label, of what has passed. -/
structure Paced (cfg : Settings) (m : Metered) (label : AgentLabel) : Prop where
  within : Within cfg.limits.writesPerMinute writeWindow m.latest (m.passed label) (writesOf m.service.writes label)
  recovers : ∀ c, (m.chargesOf label).getLast? = some c →
    Recovers cfg.limits.writesPerMinute (writesOf m.service.writes label) c

section Metered
variable {cfg : Settings} {m m' : Metered} {a : Action} {c : Charge} {label : AgentLabel}

theorem metered_step (h : (metered cfg).step m a = some m') :
    m.service.step cfg a = some m'.service ∧ m'.charges = m.charges ++ (m.service.charge? cfg a).toList := by
  obtain ⟨service, hstep, rfl⟩ := Option.map_eq_some_iff.mp h
  exact ⟨hstep, rfl⟩

theorem latest_le (horder : m.InOrder cfg a) (hcharge : m.service.charge? cfg a = some c) : m.latest ≤ c.instant := by
  unfold Metered.InOrder at horder
  rw [hcharge] at horder
  exact of_decide_eq_true horder

theorem chargesOf_concat_of_ne (hcharges : m'.charges = m.charges ++ [c]) (hne : c.label ≠ label) :
    m'.chargesOf label = m.chargesOf label := by
  unfold Metered.chargesOf
  rw [hcharges, List.filter_append, List.filter_cons_of_neg (by simpa using hne), List.filter_nil, List.append_nil]

theorem chargesOf_concat (hcharges : m'.charges = m.charges ++ [c]) :
    m'.chargesOf c.label = m.chargesOf c.label ++ [c] := by
  unfold Metered.chargesOf
  rw [hcharges, List.filter_append, List.filter_cons_of_pos (by simp), List.filter_nil]

theorem latest_concat (hcharges : m'.charges = m.charges ++ [c]) : m'.latest = c.instant := by
  unfold Metered.latest
  rw [hcharges, List.getLast?_concat]
  rfl

/-- **Another label's charge.** -/
theorem Paced.other (h : Paced cfg m label) (hcharges : m'.charges = m.charges ++ [c]) (hlater : m.latest ≤ c.instant)
    (hwrites : m'.service.writes = (chargeWrite cfg.limits m.service.writes c.label c.instant).1)
    (hne : c.label ≠ label) : Paced cfg m' label := by
  have hkept : writesOf m'.service.writes label = writesOf (sweptFor m.service.writes c.instant) label := by
    rw [hwrites, chargeWrite_eq]
    split_ifs <;> exact writesOf_insert_of_ne hne.symm _
  have hwithin := h.within.later hlater
  have hpassed : m'.passed label = m.passed label := by
    unfold Metered.passed
    rw [chargesOf_concat_of_ne hcharges hne]
  refine ⟨?_, fun last hlast => ?_⟩
  · rw [latest_concat hcharges, hpassed, hkept]
    rcases writesOf_sweptFor hwithin.sorted c.instant with hsame | ⟨hgone, hold⟩
    · rw [hsame]
      exact hwithin
    · rw [hgone]
      exact hwithin.clear hold
  · rw [chargesOf_concat_of_ne hcharges hne] at hlast
    intro error herror
    obtain ⟨retry, hretry, hroom⟩ := h.recovers last hlast error herror
    refine ⟨retry, hretry, fun now hnow => ?_⟩
    have hbefore := hroom now hnow
    rw [hkept]
    rcases writesOf_sweptFor hwithin.sorted c.instant with hsame | ⟨hgone, -⟩
    · rwa [hsame]
    · rw [hgone]
      exact Nat.zero_lt_of_lt hbefore

/-- **The label's own charge.** What is kept is what is young, and the new write if there is room for it. -/
theorem Paced.own (h : Paced cfg m c.label) (hpositive : 0 < cfg.limits.writesPerMinute)
    (hcharges : m'.charges = m.charges ++ [c]) (hlater : m.latest ≤ c.instant)
    (hwrites : m'.service.writes = (chargeWrite cfg.limits m.service.writes c.label c.instant).1)
    (hanswer : c.answer = (chargeWrite cfg.limits m.service.writes c.label c.instant).2) : Paced cfg m' c.label := by
  have hwithin := (h.within.later hlater).filter
  have hrecent := recentWrites_eq h.within.sorted c.instant
  rw [← hrecent] at hwithin
  have hpassed : m'.passed c.label =
      m.passed c.label ++ (if c.answer.isOk then [c.instant] else []) := by
    unfold Metered.passed
    rw [chargesOf_concat hcharges, List.filter_append, List.map_append]
    cases hok : c.answer.isOk <;> simp [hok]
  have hlast : ∀ last, (m'.chargesOf c.label).getLast? = some last → last = c := by
    intro last hlast
    rw [chargesOf_concat hcharges, List.getLast?_concat] at hlast
    exact (Option.some.inj hlast).symm
  rcases lt_or_ge (recentWrites m.service.writes c.label c.instant).length cfg.limits.writesPerMinute with hroom | hfull
  · -- There is room.
    rw [chargeWrite_of_room hroom] at hwrites hanswer
    refine ⟨?_, fun last hl error herror => ?_⟩
    · rw [latest_concat hcharges, hpassed, hanswer, hwrites, writesOf_insert]
      exact hwithin.push hroom
    · rw [hlast last hl, hanswer] at herror
      cases herror
  · -- The cap is reached, and the oldest write says for how long.
    rw [chargeWrite_of_full hfull] at hwrites hanswer
    have hkept : writesOf m'.service.writes c.label = recentWrites m.service.writes c.label c.instant := by
      rw [hwrites, writesOf_insert]
    refine ⟨?_, fun last hl error herror => ?_⟩
    · rw [latest_concat hcharges, hpassed, hanswer, hkept]
      exact (List.append_nil _).symm ▸ hwithin
    · obtain rfl := hlast last hl
      rw [hanswer] at herror
      obtain rfl := Except.error.inj herror
      refine ⟨_, rfl, fun now hnow => ?_⟩
      rw [hkept]
      cases hoff : recentWrites m.service.writes last.label last.instant with
      | nil =>
        rw [hoff] at hfull
        exact absurd hpositive hfull.not_gt
      | cons oldest rest =>
        rw [hoff] at hnow hwithin
        have hyoung : live writeWindow last.instant oldest = true := by
          have hmem : oldest ∈ recentWrites m.service.writes last.label last.instant := hoff ▸ List.mem_cons_self
          rw [hrecent] at hmem
          exact (List.mem_filter.mp hmem).2
        exact hwithin.room_after hyoung hnow

theorem Paced.step (h : ∀ label, Paced cfg m label) (hpositive : 0 < cfg.limits.writesPerMinute)
    (horder : m.InOrder cfg a) (hstep : (metered cfg).step m a = some m') (label : AgentLabel) : Paced cfg m' label := by
  obtain ⟨hservice, hcharges⟩ := metered_step hstep
  have hwrites := writes_of_step hservice
  cases hcharge : m.service.charge? cfg a with
  | none =>
    rw [hcharge] at hwrites hcharges
    have hsame : m'.charges = m.charges := hcharges.trans (List.append_nil _)
    obtain ⟨hwithin, hrecovers⟩ := h label
    unfold Metered.passed Metered.latest at *
    unfold Metered.chargesOf at *
    rw [← hsame] at hwithin hrecovers
    exact ⟨by rw [hwrites]; exact hwithin, fun c hlast => by rw [hwrites]; exact hrecovers c hlast⟩
  | some c =>
    rw [hcharge] at hwrites hcharges
    have hlater := latest_le horder hcharge
    by_cases hlabel : c.label = label
    · subst hlabel
      exact (h c.label).own hpositive hcharges hlater hwrites (Service.charge?_answer hcharge)
    · exact (h label).other hcharges hlater hwrites hlabel

/-- The run lemma. -/
theorem paced_of_reachable (hpositive : 0 < cfg.limits.writesPerMinute)
    (h : (metered cfg).ReachableBy (Metered.InOrder cfg) m) : ∀ label, Paced cfg m label := by
  refine Machine.ReachableBy.invariant (I := fun m => ∀ label, Paced cfg m label) (fun m hinit label => ?_)
    (fun m a m' _ horder hi hstep => Paced.step hi hpositive horder hstep) h
  obtain rfl : m = {} := hinit
  exact ⟨within_nil _ _ _, fun c hlast => by cases hlast⟩

theorem unfinished_of_reachable (h : (metered cfg).Reachable m) (label : AgentLabel) :
    unfinishedOf m.service.operations (.agent label) ≤ cfg.limits.unfinishedOperations := by
  refine Machine.Reachable.invariant
    (I := fun m : Metered => unfinishedOf m.service.operations (.agent label) ≤ cfg.limits.unfinishedOperations)
    (fun m hinit => ?_) (fun m a m' _ hi hstep => unfinishedOf_step (metered_step hstep).1 label hi) h
  obtain rfl : m = {} := hinit
  exact Nat.zero_le _

/-- **Agents stay within their caps**, in every run whose charges are made in the order of their instants. -/
theorem capped_of_reachable (cfg : Settings) (hpositive : 0 < cfg.limits.writesPerMinute) (m : Metered)
    (h : (metered cfg).ReachableBy (Metered.InOrder cfg) m) : Capped cfg m where
  rate label := (paced_of_reachable hpositive h label).within.atMost
  retry c hlast error herror := by
    have hpaced := paced_of_reachable hpositive h c.label
    obtain ⟨retry, hretry, hroom⟩ := hpaced.recovers c hlast error herror
    refine ⟨retry, hretry, fun a c' _ hcharge hlabel hwait => ?_⟩
    have hlength : (recentWrites m.service.writes c'.label c'.instant).length < cfg.limits.writesPerMinute := by
      rw [hlabel, recentWrites_eq hpaced.within.sorted]
      exact hroom c'.instant hwait
    rw [Service.charge?_answer hcharge, chargeWrite_of_room hlength]
  noUnderflow a c horder hcharge oldest holdest := by
    have hwithin := ((paced_of_reachable hpositive h c.label).within.later (latest_le horder hcharge)).filter
    have hmem : oldest ∈ recentWrites m.service.writes c.label c.instant := List.mem_of_mem_head? holdest
    rw [recentWrites_eq (paced_of_reachable hpositive h c.label).within.sorted] at hmem
    refine ⟨hwithin.past oldest hmem, Nat.sub_le_of_le_add ?_⟩
    have hyoung := live_iff.mp (List.mem_filter.mp hmem).2
    rw [Nat.add_comm]
    exact hyoung.le
  unfinished label := unfinished_of_reachable h.reachable label

end Metered

/-! ### A refusal and its end -/

def onceAMinute : Settings := { run := 0, limits := { writesPerMinute := 1, unfinishedOperations := 1 }, retained := 8 }

def porch : AgentLabel := ⟨"porch", rfl⟩

/-- Two dry runs within a minute, the second of which is refused. -/
def refusedOnce : Metered :=
  ((metered onceAMinute).execBy (Metered.InOrder onceAMinute) {} [.chargeDryRun porch 0, .chargeDryRun porch 5]).get
    (by decide)

theorem capped_refusedOnce : Capped onceAMinute refusedOnce :=
  capped_of_reachable onceAMinute (by decide) refusedOnce
    (Machine.reachableBy_of_execBy ({} : Metered) _ rfl (Option.some_get _).symm)

end DenonAvr.Application
