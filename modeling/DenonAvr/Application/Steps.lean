import DenonAvr.Application.Gate

/-!
# The steps of the gate

What a step of a task can do (`AdvanceStep`), and what a step of the service can do (`ServiceStep`), branch by branch and with
what each branch asks of the state. What the gate keeps is proved by cases on these.
-/

namespace DenonAvr.Application

open Domain Library Policy Session

/-! ### A task's steps -/

section Advance
variable {cfg : Settings} {s s' : Service} {id : OperationId} {task : Task} {w : World} {pc : Pc}

/-- Every branch of `advance`, with what it asks of the service. -/
inductive AdvanceStep (cfg : Settings) (s : Service) (id : OperationId) (task : Task) (w : World) :
    Service → Pc → Prop
  | precheck (hpc : task.pc = .precheck) :
      AdvanceStep cfg s id task w s (if s.policy.isOk then .ledger else .refusing (refusal policyUnavailable))
  | ledger (hpc : task.pc = .ledger) :
      AdvanceStep cfg s id task w s (if s.books.ready then .leasing else .rebuilding)
  | caughtUp (hpc : task.pc = .rebuilding) (hfree : s.rebuilding = none) (hready : s.books.ready = true) :
      AdvanceStep cfg s id task w s .leasing
  | rebuilding (hpc : task.pc = .rebuilding) (hfree : s.rebuilding = none) (hready : s.books.ready = false) :
      AdvanceStep cfg s id task w { s with rebuilding := some (some id, w.now) } .readingLog
  | takenIn (records : List AuditRecord) (now : WallTime) (hpc : task.pc = .readingLog)
      (hheld : s.rebuilding = some (some id, now)) (hlog : w.log = some records) :
      AdvanceStep cfg s id task w (s.takeIn records now) .leasing
  | unread (now : WallTime) (hpc : task.pc = .readingLog) (hheld : s.rebuilding = some (some id, now))
      (hlog : w.log = none) :
      AdvanceStep cfg s id task w { s with rebuilding := none } (.refusing (refusal ledgerUnavailable))
  | refusing (resolution : Resolution) (hpc : task.pc = .refusing resolution) :
      AdvanceStep cfg s id task w { s with operations := (s.operations.finish id resolution).getD s.operations }
        (.recordingRefused resolution)
  | due (resolution : Resolution) (hpc : task.pc = .recordingRefused resolution)
      (hdue : s.refusals.1.all (fun last => decide (refusalLogEvery ≤ w.instant - last)) = true) :
      AdvanceStep cfg s id task w { s with refusals := (some w.instant, 0) }
        (.recording (resolution.withSkipped s.refusals.2))
  | skipped (resolution : Resolution) (hpc : task.pc = .recordingRefused resolution) :
      AdvanceStep cfg s id task w { s with refusals := (s.refusals.1, s.refusals.2 + 1) } .ended
  | leased (label : AgentLabel) (hpc : task.pc = .leasing) (hlease : w.lease = .ok ()) (howner : task.owner = .agent label) :
      AdvanceStep cfg s id task w s .deciding
  | leasedOperator (hpc : task.pc = .leasing) (hlease : w.lease = .ok ()) (howner : task.owner = .operator) :
      AdvanceStep cfg s id task w s .reserving
  | unreached (label : AgentLabel) (error : String) (hpc : task.pc = .leasing) (hlease : w.lease = .error error)
      (howner : task.owner = .agent label) :
      AdvanceStep cfg s id task w s (.finishing (refusal receiverUnreachable) none)
  | unreachedOperator (error : String) (hpc : task.pc = .leasing) (hlease : w.lease = .error error)
      (howner : task.owner = .operator) : AdvanceStep cfg s id task w s (.closing (.notDispatched .rejected error))
  | deciding (policy : ActivePolicy) (hpc : task.pc = .deciding) (hpolicy : s.policy = .ok policy) :
      AdvanceStep cfg s id task w (s.note (.policyRead id policy)) (.judging policy)
  | undecided (error : String) (hpc : task.pc = .deciding) (hpolicy : s.policy = .error error) :
      AdvanceStep cfg s id task w s (.finishing (refusal policyUnavailable) none)
  | judging (policy : ActivePolicy) (label : AgentLabel) (hpc : task.pc = .judging policy)
      (howner : task.owner = .agent label) :
      AdvanceStep cfg s id task w (judgeStep cfg s id task.toJob label policy w).1
        (judgeStep cfg s id task.toJob label policy w).2
  | recordingRefusal (decision : Decision) (digest : PolicyDigest) (resolution : Resolution)
      (hpc : task.pc = .recordingRefusal decision digest resolution) :
      AdvanceStep cfg s id task w
        (s.append (task.record cfg id w.now (decidedEvent task.intent decision digest)) w.appended)
        (.finishing resolution none)
  | allowed (grant : Grant) (operations : Operations) (hpc : task.pc = .allowing grant)
      (hmove : s.operations.moveFrom id .submitted .allowed = some operations) :
      AdvanceStep cfg s id task w { s with operations } (.recordingDecided grant)
  | overtaken (grant : Grant) (hpc : task.pc = .allowing grant)
      (hmove : s.operations.moveFrom id .submitted .allowed = none) :
      AdvanceStep cfg s id task w s (.releasing grant.settlement cancelledResolution)
  | recordingDecided (grant : Grant) (hpc : task.pc = .recordingDecided grant) :
      AdvanceStep cfg s id task w
        (s.append (task.record cfg id w.now (decidedEvent task.intent grant.decision grant.policy.digest)) w.appended)
        (if w.appended then .checking grant else .releasing grant.settlement (refusal auditUnavailable))
  | checking (grant : Grant) (hpc : task.pc = .checking grant) :
      AdvanceStep cfg s id task w s
        (if s.operations.statusOf id = some .allowed then .recordingDispatching grant
        else .releasing grant.settlement cancelledResolution)
  | recordingDispatching (grant : Grant) (hpc : task.pc = .recordingDispatching grant) :
      AdvanceStep cfg s id task w
        (s.append (task.record cfg id w.now
          (dispatchingEvent task.intent grant.input.state grant.precondition.fields)) w.appended)
        (if w.appended then .beginning (some grant.precondition) grant.settlement
        else .releasing grant.settlement (refusal auditUnavailable))
  | releasing (settlement : Settlement) (resolution : Resolution) (hpc : task.pc = .releasing settlement resolution) :
      AdvanceStep cfg s id task w (s.settle settlement false) (.finishing resolution none)
  | reserving (hpc : task.pc = .reserving) :
      AdvanceStep cfg s id task w
        { s with
          books := (s.books.reserve cfg.run w.now task.receiver task.intent w.state id).1
          aged := s.aged ++ s.outdated w.now }
        (.notingDecided w.state (s.books.reserve cfg.run w.now task.receiver task.intent w.state id).2)
  | notingDecided (state : ReceiverState) (settlement : Settlement) (hpc : task.pc = .notingDecided state settlement)
      (haudit : s.auditOk = true) :
      AdvanceStep cfg s id task w (s.append (task.record cfg id w.now (operatorDecidedEvent task.intent)) w.appended)
        (if w.appended then .notingDispatching state settlement else .beginning none settlement)
  | unnoted (state : ReceiverState) (settlement : Settlement) (hpc : task.pc = .notingDecided state settlement)
      (haudit : s.auditOk = false) : AdvanceStep cfg s id task w s (.beginning none settlement)
  | notingDispatching (state : ReceiverState) (settlement : Settlement)
      (hpc : task.pc = .notingDispatching state settlement) :
      AdvanceStep cfg s id task w
        (s.append (task.record cfg id w.now (dispatchingEvent task.intent state [])) w.appended)
        (.beginning none settlement)
  | begun (precondition : Option Precondition) (settlement : Settlement) (operations : Operations)
      (hpc : task.pc = .beginning precondition settlement) (hbegin : s.operations.beginSession id = some operations) :
      AdvanceStep cfg s id task w ({ s with operations }.note (.begun id)) (.calling precondition settlement)
  | barred (precondition : Option Precondition) (settlement : Settlement)
      (hpc : task.pc = .beginning precondition settlement) (hbegin : s.operations.beginSession id = none) :
      AdvanceStep cfg s id task w s (.withdrawing settlement)
  | withdrawing (settlement : Settlement) (hpc : task.pc = .withdrawing settlement) :
      AdvanceStep cfg s id task w (s.settle settlement false) (.recording cancelledResolution)
  | calling (precondition : Option Precondition) (settlement : Settlement)
      (hpc : task.pc = .calling precondition settlement) :
      AdvanceStep cfg s id task w (s.note (.called id task.owner ⟨id, task.intent, precondition⟩))
        (.inSession settlement)
  | inSession (settlement : Settlement) (shown : Option String) (hpc : task.pc = .inSession settlement)
      (hagent : ∀ label, task.owner = .agent label → shown = fixedReason w.outcome)
      (hoperator : task.owner = .operator → shown = none) :
      AdvanceStep cfg s id task w (s.note (.answered id w.outcome)) (.settling settlement (resolve w.outcome) shown)
  | settling (settlement : Settlement) (resolution : Resolution) (shown : Option String)
      (hpc : task.pc = .settling settlement resolution shown) :
      AdvanceStep cfg s id task w (s.settle settlement (resolution.dispatch ≠ .notDispatched))
        (.finishing resolution shown)
  | finished (resolution : Resolution) (shown : Option String) (operations : Operations)
      (hpc : task.pc = .finishing resolution shown)
      (hfinish : s.operations.finish id { resolution with reason := shown <|> resolution.reason } = some operations) :
      AdvanceStep cfg s id task w { s with operations } (.recording resolution)
  | late (resolution : Resolution) (shown : Option String) (hpc : task.pc = .finishing resolution shown)
      (hfinish : s.operations.finish id { resolution with reason := shown <|> resolution.reason } = none) :
      AdvanceStep cfg s id task w s (.reviewing resolution)
  | reviewing (resolution : Resolution) (hpc : task.pc = .reviewing resolution) :
      AdvanceStep cfg s id task w s (.recording ((s.operations.endedAs id).getD resolution))
  | recording (resolution : Resolution) (hpc : task.pc = .recording resolution) :
      AdvanceStep cfg s id task w (s.append (task.record cfg id w.now resolution.finishedEvent) w.appended) .ended
  | closing (resolution : Resolution) (hpc : task.pc = .closing resolution) :
      AdvanceStep cfg s id task w { s with operations := (s.operations.finish id resolution).getD s.operations } .ended

theorem step_eq {next : Service} {place : Pc} (h : some (next, place) = some (s', pc)) : next = s' ∧ place = pc :=
  Prod.mk.inj (Option.some.inj h)

/-- The inversion lemma of `advance`. -/
theorem advanceStep_of_advance (h : advance cfg s id task w = some (s', pc)) : AdvanceStep cfg s id task w s' pc := by
  unfold advance at h
  cases hpc : task.pc with
  | precheck =>
    rw [hpc] at h
    obtain ⟨rfl, rfl⟩ := step_eq h
    exact .precheck hpc
  | ledger =>
    rw [hpc] at h
    obtain ⟨rfl, rfl⟩ := step_eq h
    exact .ledger hpc
  | rebuilding =>
    simp only [hpc] at h
    split_ifs at h with hheld hready <;> obtain ⟨rfl, rfl⟩ := step_eq h
    · exact .caughtUp hpc (Option.not_isSome_iff_eq_none.mp hheld) hready
    · exact .rebuilding hpc (Option.not_isSome_iff_eq_none.mp hheld) (eq_false_of_ne_true hready)
  | readingLog =>
    simp only [hpc] at h
    split at h
    · rename_i holder now hheld
      split_ifs at h with hmine
      subst hmine
      split at h <;> obtain ⟨rfl, rfl⟩ := step_eq h
      · rename_i records hlog
        exact .takenIn records now hpc hheld hlog
      · rename_i hlog
        exact .unread now hpc hheld hlog
    · cases h
  | refusing resolution =>
    rw [hpc] at h
    obtain ⟨rfl, rfl⟩ := step_eq h
    exact .refusing resolution hpc
  | recordingRefused resolution =>
    simp only [hpc] at h
    split at h <;> obtain ⟨rfl, rfl⟩ := step_eq h
    · rename_i hdue
      exact .due resolution hpc hdue
    · exact .skipped resolution hpc
  | leasing =>
    simp only [hpc] at h
    split at h <;> obtain ⟨rfl, rfl⟩ := step_eq h
    · rename_i label hlease howner
      exact .leased label hpc hlease howner
    · rename_i hlease howner
      exact .leasedOperator hpc hlease howner
    · rename_i error label hlease howner
      exact .unreached label error hpc hlease howner
    · rename_i error hlease howner
      exact .unreachedOperator error hpc hlease howner
  | deciding =>
    simp only [hpc] at h
    split at h <;> obtain ⟨rfl, rfl⟩ := step_eq h
    · rename_i policy hpolicy
      exact .deciding policy hpc hpolicy
    · rename_i error hpolicy
      exact .undecided error hpc hpolicy
  | judging policy =>
    simp only [hpc] at h
    split at h
    · rename_i label howner
      obtain ⟨rfl, rfl⟩ := step_eq h
      exact .judging policy label hpc howner
    · cases h
  | recordingRefusal decision digest resolution =>
    rw [hpc] at h
    obtain ⟨rfl, rfl⟩ := step_eq h
    exact .recordingRefusal decision digest resolution hpc
  | allowing grant =>
    simp only [hpc] at h
    split at h <;> obtain ⟨rfl, rfl⟩ := step_eq h
    · rename_i operations hmove
      exact .allowed grant operations hpc hmove
    · rename_i hmove
      exact .overtaken grant hpc hmove
  | recordingDecided grant =>
    rw [hpc] at h
    obtain ⟨rfl, rfl⟩ := step_eq h
    exact .recordingDecided grant hpc
  | checking grant =>
    rw [hpc] at h
    obtain ⟨rfl, rfl⟩ := step_eq h
    exact .checking grant hpc
  | recordingDispatching grant =>
    rw [hpc] at h
    obtain ⟨rfl, rfl⟩ := step_eq h
    exact .recordingDispatching grant hpc
  | releasing settlement resolution =>
    rw [hpc] at h
    obtain ⟨rfl, rfl⟩ := step_eq h
    exact .releasing settlement resolution hpc
  | reserving =>
    rw [hpc] at h
    obtain ⟨rfl, rfl⟩ := step_eq h
    exact .reserving hpc
  | notingDecided state settlement =>
    simp only [hpc] at h
    by_cases haudit : s.auditOk = true
    · rw [if_pos haudit] at h
      obtain ⟨rfl, rfl⟩ := step_eq h
      exact .notingDecided state settlement hpc haudit
    · rw [if_neg haudit] at h
      obtain ⟨rfl, rfl⟩ := step_eq h
      exact .unnoted state settlement hpc (eq_false_of_ne_true haudit)
  | notingDispatching state settlement =>
    rw [hpc] at h
    obtain ⟨rfl, rfl⟩ := step_eq h
    exact .notingDispatching state settlement hpc
  | beginning precondition settlement =>
    simp only [hpc] at h
    split at h <;> obtain ⟨rfl, rfl⟩ := step_eq h
    · rename_i operations hbegin
      exact .begun precondition settlement operations hpc hbegin
    · rename_i hbegin
      exact .barred precondition settlement hpc hbegin
  | withdrawing settlement =>
    rw [hpc] at h
    obtain ⟨rfl, rfl⟩ := step_eq h
    exact .withdrawing settlement hpc
  | calling precondition settlement =>
    rw [hpc] at h
    obtain ⟨rfl, rfl⟩ := step_eq h
    exact .calling precondition settlement hpc
  | inSession settlement =>
    rw [hpc] at h
    obtain ⟨rfl, rfl⟩ := step_eq h
    refine .inSession settlement _ hpc (fun label howner => ?_) fun howner => ?_
    · rw [howner]
    · rw [howner]
  | settling settlement resolution shown =>
    rw [hpc] at h
    obtain ⟨rfl, rfl⟩ := step_eq h
    exact .settling settlement resolution shown hpc
  | finishing resolution shown =>
    simp only [hpc] at h
    split at h <;> obtain ⟨rfl, rfl⟩ := step_eq h
    · rename_i operations hfinish
      exact .finished resolution shown operations hpc hfinish
    · rename_i hfinish
      exact .late resolution shown hpc hfinish
  | reviewing resolution =>
    rw [hpc] at h
    obtain ⟨rfl, rfl⟩ := step_eq h
    exact .reviewing resolution hpc
  | recording resolution =>
    rw [hpc] at h
    obtain ⟨rfl, rfl⟩ := step_eq h
    exact .recording resolution hpc
  | closing resolution =>
    rw [hpc] at h
    obtain ⟨rfl, rfl⟩ := step_eq h
    exact .closing resolution hpc
  | ended =>
    rw [hpc] at h
    cases h

end Advance

/-! ### The service's steps -/

/-- Every branch of `Service.step`. -/
inductive ServiceStep (cfg : Settings) (s : Service) : Action → Service → Prop
  | submit (caller : Principal) (receiver : ReceiverId) (submission : OperationSubmission) (now : Instant) :
      ServiceStep cfg s (.submit caller receiver submission now) (s.submit cfg caller receiver submission now).1
  | cancelled (viewer : Principal) (id : OperationId) (operations : Operations) (snapshot : OperationSnapshot)
      (hcancel : s.operations.cancel viewer id = .ok (operations, snapshot)) :
      ServiceStep cfg s (.cancel viewer id) ({ s with operations }.note (.withdrawn id))
  | uncancelled (viewer : Principal) (id : OperationId) (error : ControlError)
      (hcancel : s.operations.cancel viewer id = .error error) : ServiceStep cfg s (.cancel viewer id) s
  | advance (id : OperationId) (w : World) (task : Task) (next : Service) (pc : Pc) (htask : s.tasks id = some task)
      (hadvance : advance cfg s id task w = some (next, pc)) :
      ServiceStep cfg s (.advance id w)
        (if pc = .ended then (next.setTask id { task with pc }).endTask id else next.setTask id { task with pc })
  | panic (id : OperationId) (task : Task) (freed : Option (Option OperationId × WallTime)) (htask : s.tasks id = some task)
      (hlives : task.pc ≠ .ended)
      (hfreed : freed = if (s.rebuilding.any fun rebuilding => rebuilding.1 == some id) then none else s.rebuilding) :
      ServiceStep cfg s (.panic id)
        (({ s with rebuilding := freed }.setTask id { task with pc := .ended }).endTask id)
  | loadPolicy (loaded : Except String (PolicyConfig × PolicyDigest)) (now : WallTime) (policy : Except String ActivePolicy)
      (hpolicy : policy = loaded.map fun loaded => ⟨loaded.1, loaded.2, now⟩) :
      ServiceStep cfg s (.loadPolicy loaded now) ({ s with policy }.note (.loaded policy))
  | noteElsewhere (principal : Option Principal) (event : AuditEvent) (now : WallTime) (ok : Bool) :
      ServiceStep cfg s (.noteElsewhere principal event now ok)
        (s.append { run := cfg.run, time := now, operation := none, principal, receiver := none, event } ok)
  | rebuildElsewhere (now : WallTime) (hfree : s.rebuilding = none) (hready : s.books.ready = false) :
      ServiceStep cfg s (.rebuildElsewhere now) { s with rebuilding := some (none, now) }
  | takenIn (records : List AuditRecord) (now : WallTime) (hheld : s.rebuilding = some (none, now)) :
      ServiceStep cfg s (.readElsewhere (some records)) (s.takeIn records now)
  | unread (now : WallTime) (hheld : s.rebuilding = some (none, now)) :
      ServiceStep cfg s (.readElsewhere none) { s with rebuilding := none }
  | chargeDryRun (label : AgentLabel) (now : Instant) :
      ServiceStep cfg s (.chargeDryRun label now) { s with writes := (chargeWrite cfg.limits s.writes label now).1 }
  | shutdown : ServiceStep cfg s .shutdown { s with operations := { s.operations with closed := true } }

theorem serviceStep_of_step {cfg : Settings} {s s' : Service} {a : Action} (hstep : s.step cfg a = some s') :
    ServiceStep cfg s a s' := by
  cases a with
  | submit caller receiver submission now =>
    obtain rfl := Option.some.inj hstep
    exact .submit caller receiver submission now
  | cancel viewer id =>
    simp only [Service.step] at hstep
    split at hstep <;> obtain rfl := Option.some.inj hstep
    · rename_i operations snapshot hcancel
      exact .cancelled viewer id operations snapshot hcancel
    · rename_i error hcancel
      exact .uncancelled viewer id error hcancel
  | advance id w =>
    obtain ⟨task, htask, hstep⟩ := Option.bind_eq_some_iff.mp hstep
    obtain ⟨⟨next, pc⟩, hadvance, hstep⟩ := Option.bind_eq_some_iff.mp hstep
    obtain rfl := Option.some.inj hstep
    exact .advance id w task next pc htask hadvance
  | panic id =>
    obtain ⟨task, htask, hstep⟩ := Option.bind_eq_some_iff.mp hstep
    split_ifs at hstep with hended
    · cases hstep
    obtain rfl := Option.some.inj hstep
    exact .panic id task _ htask hended rfl
  | loadPolicy loaded now =>
    obtain rfl := Option.some.inj hstep
    exact .loadPolicy loaded now _ rfl
  | noteElsewhere principal event now ok =>
    obtain rfl := Option.some.inj hstep
    exact .noteElsewhere principal event now ok
  | rebuildElsewhere now =>
    simp only [Service.step] at hstep
    split_ifs at hstep with hbusy
    obtain rfl := Option.some.inj hstep
    rw [not_or, Option.not_isSome_iff_eq_none] at hbusy
    exact .rebuildElsewhere now hbusy.1 (eq_false_of_ne_true hbusy.2)
  | readElsewhere log =>
    simp only [Service.step] at hstep
    split at hstep
    · rename_i now hheld
      split at hstep <;> obtain rfl := Option.some.inj hstep
      · exact .takenIn _ now hheld
      · exact .unread now hheld
    · cases hstep
  | chargeDryRun label now =>
    obtain rfl := Option.some.inj hstep
    exact .chargeDryRun label now
  | shutdown =>
    obtain rfl := Option.some.inj hstep
    exact .shutdown

end DenonAvr.Application
