import DenonAvr.Application.Ending

/-!
# What the log says of the end of an operation

The record of an operation's end states the status and the dispatch that its readers saw in every run in which the
log is not misled (`record_tells`): a refusal made before any decision is recorded only for an operation that was not
withdrawn, and an operation that was withdrawn while the gate was deciding is still retained when the gate looks up
how it ended. The record of such a refusal is made from what the gate would have ended the operation with, and not,
as elsewhere, from how it ended (`not_record_tells`).
-/

namespace DenonAvr.Application

open Domain Library Policy Session

/-- A resolution that says what readers see. -/
structure Resolution.Matches (resolution : Resolution) (snapshot : OperationSnapshot) : Prop where
  status : resolution.status = snapshot.status
  dispatch : resolution.dispatch = snapshot.dispatch

/-- A record of the operation's end says what readers see. -/
def AuditEvent.Tells (event : AuditEvent) (snapshot : OperationSnapshot) : Prop :=
  ∀ status dispatch confirmed reason, event = .finished status dispatch confirmed reason →
    status = snapshot.status.text ∧ dispatch = snapshot.dispatch

/-- The step at this place does not mislead the log: it does not record the refusal of an operation that was
withdrawn, nor look up the end of one that is no longer retained. -/
def undisturbedAt (s : Service) (id : OperationId) (w : World) : Pc → Bool
  | .recordingRefused _ =>
    !(s.refusals.1.all fun last => decide (refusalLogEvery ≤ w.instant - last)) || !decide (.withdrawn id ∈ s.trace)
  | .reviewing resolution =>
    (s.operations.entryOf id).isSome || resolution.status = .cancelled && resolution.dispatch = .notDispatched
  | _ => true

def undisturbed (s : Service) : Action → Bool
  | .advance id w => (s.tasks id).all fun task => undisturbedAt s id w task.pc
  | _ => true

/-! ### An operation that has ended -/

/-- What a task is about to say of an operation that ended as `snapshot`. -/
def Telling (s : Service) (id : OperationId) (snapshot : OperationSnapshot) : Pc → Prop
  | .recordingRefused resolution => resolution.Matches snapshot ∨ s.Withdrew id snapshot
  | .recording resolution => resolution.Matches snapshot
  | .ended => True
  | pc => pc.stage ≠ .called ∧ s.Withdrew id snapshot

/-- The operation ended as `entry`, and nothing else is said of it. -/
structure Told (s : Service) (id : OperationId) (entry : Entry) : Prop where
  kept : ∀ entry', s.operations.entryOf id = some entry' → entry' = entry
  known : id ≤ s.operations.nextId
  ended : entry.snapshot.status.isTerminal = true
  telling : ∀ task, s.tasks id = some task → Telling s id entry.snapshot task.pc
  records : ∀ record ok, .appended record ok ∈ s.trace → record.operation = some id → record.event.Tells entry.snapshot

section Told
variable {cfg : Settings} {s s' next : Service} {id : OperationId} {task : Task} {a : Action} {w : World} {pc : Pc}
  {entry entry' : Entry} {snapshot : OperationSnapshot} {resolution : Resolution}

theorem AuditEvent.Tells.of_not_finished {event : AuditEvent} (h : event.isFinished = false) : event.Tells snapshot := by
  intro status dispatch confirmed reason heq
  rw [heq] at h
  cases h

theorem Resolution.Matches.tells (h : resolution.Matches snapshot) : resolution.finishedEvent.Tells snapshot := by
  intro status dispatch confirmed reason heq
  obtain ⟨rfl, rfl, -, -⟩ := AuditEvent.finished.inj heq
  exact ⟨congrArg OperationStatus.text h.status, h.dispatch⟩

theorem Service.Withdrew.matches (h : s.Withdrew id snapshot) (hstatus : resolution.status = .cancelled)
    (hdispatch : resolution.dispatch = .notDispatched) : resolution.Matches snapshot :=
  ⟨hstatus.trans h.status.symm, hdispatch.trans h.dispatch.symm⟩

theorem telling_iff (h : pc.stage ≠ .over) :
    Telling s id snapshot pc ↔ pc.stage ≠ .called ∧ s.Withdrew id snapshot := by
  cases pc <;> first | exact Iff.rfl | exact absurd rfl h

theorem Telling.mono (h : Telling s id snapshot pc) (hkeeps : ∀ event ∈ s.trace, event ∈ s'.trace) :
    Telling s' id snapshot pc := by
  cases pc with
  | recordingRefused resolution => exact h.imp (fun h => h) fun hwithdrew => hwithdrew.mono hkeeps
  | recording resolution => exact h
  | ended => trivial
  | _ => exact ⟨h.1, h.2.mono hkeeps⟩

/-- What a task says next, by its place. -/
theorem Telling.course (h : Telling s id entry.snapshot task.pc)
    (hentry : ∀ entry', s.operations.entryOf id = some entry' → entry' = entry)
    (hended : entry.snapshot.status.isTerminal = true) (hundisturbed : undisturbedAt s id w task.pc = true)
    (hcourse : Course cfg s id task w next pc) : Telling s id entry.snapshot pc := by
  -- The operation does not move any more.
  have hover : ∀ status, s.operations.statusOf id = some status → status.isTerminal = true := by
    intro status hstatus
    obtain ⟨entry', hentry', rfl⟩ := Operations.statusOf_eq_some.mp hstatus
    rw [hentry entry' hentry']
    exact hended
  cases hcourse with
  | along stage hstage hnot hleads _ _ =>
    obtain ⟨hne, hwithdrew⟩ := (telling_iff (by rw [hstage]; exact hnot)).mp h
    rw [hstage] at hne
    generalize hafter : pc.stage = after at hleads
    cases hleads with
    | refl => exact (telling_iff (by rw [hafter]; exact hnot)).mpr ⟨by rw [hafter]; exact hne, hwithdrew⟩
    | cleared | stopping => exact (telling_iff (by rw [hafter]; decide)).mpr ⟨by rw [hafter]; decide, hwithdrew⟩
  | allowed hmove _ _ _ => exact absurd (hover _ (Operations.moveFrom_spec hmove).1) (by decide)
  | begun hbegin _ _ _ => exact absurd (hover _ (Operations.moveFrom_spec hbegin).1) (by decide)
  | barred _ _ hstage hnext _ =>
    obtain ⟨-, hwithdrew⟩ := (telling_iff (by rw [hstage]; decide)).mp h
    exact (telling_iff (by rw [hnext]; decide)).mpr ⟨by rw [hnext]; decide, hwithdrew⟩
  | refused resolution hpc hnext _ _ =>
    rw [hpc] at h
    rw [hnext]
    exact .inr h.2
  | finished resolution visible shown _ _ _ _ hfinish _ =>
    obtain ⟨status, hstatus, hrunning, -⟩ := Operations.finish_spec hfinish
    rw [hover status hstatus] at hrunning
    cases hrunning
  | late resolution visible shown hpc hnext _ _ _ =>
    rw [hpc] at h
    rw [hnext]
    exact ⟨fun hcalled => (by cases hcalled), h.2⟩
  | reviewed resolution hpc hnext _ _ =>
    rw [hpc] at h
    rw [hpc] at hundisturbed
    rw [hnext]
    cases hretained : s.operations.entryOf id with
    | some entry' =>
      obtain rfl := hentry entry' hretained
      unfold Operations.endedAs
      simp only [hretained, Option.bind_some, hended, if_true, Option.getD_some]
      exact ⟨rfl, rfl⟩
    | none =>
      simp only [undisturbedAt, hretained, Option.isSome_none, Bool.false_or, Bool.and_eq_true, decide_eq_true_eq] at hundisturbed
      unfold Operations.endedAs
      rw [hretained]
      exact h.2.matches hundisturbed.1 hundisturbed.2
  | withdrawn settlement hpc hnext _ _ =>
    rw [hpc] at h
    rw [hnext]
    exact h.2.matches rfl rfl
  | due resolution written hpc hnext hdue hstatus hdispatch _ _ =>
    rw [hpc] at h
    simp only [undisturbedAt, hpc, hdue, Bool.not_true, Bool.false_or, Bool.not_eq_true', decide_eq_false_iff_not]
      at hundisturbed
    rw [hnext]
    rcases h with hmatches | hwithdrew
    · exact ⟨hstatus.trans hmatches.status, hdispatch.trans hmatches.dispatch⟩
    · exact absurd hwithdrew.event hundisturbed
  | closed _ _ hnext _ _ | skipped _ _ hnext _ _ | recorded _ _ _ hnext _ _ =>
    rw [hnext]
    trivial

theorem Told.step (h : Told s id entry) (hreached : (gate cfg).Reachable s) (hundisturbed : undisturbed s a = true)
    (hstep : s.step cfg a = some s') : Told s' id entry := by
  have hvisit := visit_of_step hstep id
  have hkeeps := hvisit.keeps
  have hentry : ∀ entry', s'.operations.entryOf id = some entry' → entry' = entry := by
    intro entry' hentry'
    obtain ⟨old, hold, hsame⟩ := entryOf_before_step hreached hstep h.known hentry'
    obtain rfl := h.kept old hold
    exact hsame h.ended
  have hknown : id ≤ s'.operations.nextId := by
    obtain ⟨acts, hexec⟩ := exec_of_step hreached hstep
    exact h.known.trans (nextId_le_of_exec hexec)
  cases hvisit with
  | untouched htasks _ _ hadds =>
    refine ⟨hentry, hknown, h.ended, fun task htask => (h.telling task (htasks ▸ htask)).mono hkeeps,
      fun record ok hmem hid => h.records record ok (hadds _ hmem (.inl hid)) hid⟩
  | new _ _ _ _ hid _ _ _ _ =>
    exact absurd (hid ▸ h.known) (Nat.not_succ_le_self _)
  | cancelled viewer snapshot hcancel _ _ =>
    obtain ⟨current, hcurrent, hcancellable, -⟩ := entryOf_of_cancel hcancel
    obtain rfl := h.kept current hcurrent
    rw [OperationStatus.isCancellable_of_isTerminal h.ended] at hcancellable
    cases hcancellable
  | advanced task w next pc haction htask hadvance htasks htrace _ =>
    subst haction
    have hhere : undisturbedAt s id w task.pc = true := by
      simpa only [undisturbed, htask, Option.all_some] using hundisturbed
    have htelling := (h.telling task htask).course h.kept h.ended hhere (advance_course hadvance)
    refine ⟨hentry, hknown, h.ended, fun task' htask' => ?_, fun record ok hmem hid => ?_⟩
    · obtain rfl := Option.some.inj (htasks.symm.trans htask')
      exact htelling.mono hkeeps
    · rw [htrace] at hmem
      rcases added_of_advance hadvance hmem with hold | ⟨-, -, hends⟩
      · exact h.records record ok hold hid
      · cases hfinished : record.event.isFinished with
        | false => exact .of_not_finished hfinished
        | true =>
          obtain ⟨resolution, ok', hpc, -, heq⟩ := hends ⟨record, ok, rfl, hfinished⟩
          obtain ⟨rfl, -⟩ := Event.appended.inj heq
          have hmatches := h.telling task htask
          rw [hpc] at hmatches
          exact Resolution.Matches.tells hmatches
  | panicked task _ _ htasks htrace _ =>
    refine ⟨hentry, hknown, h.ended, fun task' htask' => ?_, fun record ok hmem => h.records record ok (htrace ▸ hmem)⟩
    obtain rfl := Option.some.inj (htasks.symm.trans htask')
    trivial

/-- What ending an operation leaves of it. -/
theorem entryOf_of_finish {operations operations' : Operations} (h : operations.finish id resolution = some operations')
    (hentry : operations'.entryOf id = some entry) : resolution.Matches entry.snapshot := by
  unfold Operations.finish at h
  obtain ⟨current, snapshot, -, hchange, rfl⟩ := Operations.transition_eq_some h
  split_ifs at hchange
  obtain rfl := Option.some.inj hchange
  obtain rfl := Option.some.inj ((AList.lookup_insert _).symm.trans hentry)
  exact ⟨rfl, rfl⟩

/-- An operation that is running has no record of its end. -/
theorem Lives.no_record (h : Lives s id) (hentry : s.operations.entryOf id = some entry)
    (hrunning : entry.snapshot.status.isTerminal = false) {record : AuditRecord} {ok : Bool}
    (hmem : .appended record ok ∈ s.trace) (hid : record.operation = some id) : record.event.isFinished = false := by
  cases hfinished : record.event.isFinished with
  | false => rfl
  | true =>
    obtain ⟨task, htask⟩ := h.task entry hentry
    have hended := h.ends _ hmem ⟨record, ok, rfl, hfinished⟩ hid task htask
    have hover := h.standing task htask entry hentry
    rw [hended] at hover
    rcases hover with hover | ⟨-, hwithdrew⟩
    · rw [show entry.snapshot.status.isTerminal = true from hover] at hrunning
      cases hrunning
    · rw [hwithdrew.isTerminal] at hrunning
      cases hrunning

/-- The stage of the task of an operation that is running. -/
theorem Lives.stage (h : Lives s id) (htask : s.tasks id = some task) (hentry : s.operations.entryOf id = some entry)
    (hrunning : entry.snapshot.status.isTerminal = false) : task.pc.stage ≠ .over ∧ task.pc.stage ≠ .withdrawing := by
  have hstanding := h.standing task htask entry hentry
  refine ⟨fun hover => ?_, fun hwithdrawing => ?_⟩
  · rw [hover] at hstanding
    rcases hstanding with hover | ⟨-, hwithdrew⟩
    · rw [show entry.snapshot.status.isTerminal = true from hover] at hrunning
      cases hrunning
    · rw [hwithdrew.isTerminal] at hrunning
      cases hrunning
  · rw [hwithdrawing] at hstanding
    rcases hstanding with hnever | ⟨-, hwithdrew⟩
    · exact hnever
    · rw [hwithdrew.isTerminal] at hrunning
      cases hrunning

/-- The step that ends an operation. -/
theorem told_of_end (hreached : (gate cfg).Reachable s) (hstep : s.step cfg a = some s')
    (hentry : s.operations.entryOf id = some entry) (hrunning : entry.snapshot.status.isTerminal = false)
    (hafter : s'.operations.entryOf id = some entry') (hended : entry'.snapshot.status.isTerminal = true) :
    Told s' id entry' := by
  have hlives := lives_of_reachable hreached id
  have htidy := tidy_of_reachable (table_of_gate hreached)
  have hkept : ∀ other, s'.operations.entryOf id = some other → other = entry' :=
    fun other hother => (Option.some.inj (hafter.symm.trans hother)).symm
  have hknown : id ≤ s'.operations.nextId := by
    obtain ⟨acts, hexec⟩ := exec_of_step hreached hstep
    exact (htidy.ordered id entry hentry).1.trans (nextId_le_of_exec hexec)
  have hnot : ∀ {current : Entry}, current = entry → current.snapshot.status.isTerminal ≠ true := by
    rintro _ rfl hterminal
    rw [hterminal] at hrunning
    cases hrunning
  cases visit_of_step hstep id with
  | untouched _ hentries _ _ =>
    rcases hentries with hsame | ⟨hgone, -⟩
    · exact absurd hended (hnot (Option.some.inj (hafter.symm.trans (hsame.trans hentry))))
    · rw [hgone] at hafter
      cases hafter
  | new _ _ _ _ hid _ _ _ _ =>
    rw [hid, htidy.ordered.entryOf_next] at hentry
    cases hentry
  | cancelled viewer snapshot hcancel htasks htrace =>
    have hwithdrew : s'.Withdrew id entry'.snapshot :=
      (lives_of_reachable (.step hreached trivial hstep) id).withdrawn (by rw [htrace]; simp) entry' hafter
    refine ⟨hkept, hknown, hended, fun task htask => ?_, fun record ok hmem hid => .of_not_finished ?_⟩
    · obtain ⟨hover, -⟩ := hlives.stage (htasks ▸ htask) hentry hrunning
      refine (telling_iff hover).mpr ⟨fun hcalled => ?_, hwithdrew⟩
      obtain ⟨current, hcurrent, hcancellable, -⟩ := entryOf_of_cancel hcancel
      obtain rfl := Option.some.inj (hcurrent.symm.trans hentry)
      rcases hlives.standing task (htasks ▸ htask) current hcurrent with hexpects | ⟨hne, -⟩
      · rw [hcalled] at hexpects
        rw [show current.snapshot.status = .inSession from hexpects] at hcancellable
        cases hcancellable
      · exact hne hcalled
    · rw [htrace, List.mem_append, List.mem_singleton] at hmem
      exact hlives.no_record hentry hrunning (hmem.resolve_right (by simp)) hid
  | advanced task w next pc haction htask hadvance htasks htrace hoperations =>
    have hrecords : ∀ record ok, .appended record ok ∈ s'.trace → record.operation = some id →
        record.event.Tells entry'.snapshot := by
      intro record ok hmem hid
      rw [htrace] at hmem
      rcases added_of_advance hadvance hmem with hold | ⟨-, -, hends⟩
      · exact .of_not_finished (hlives.no_record hentry hrunning hold hid)
      · refine .of_not_finished (Bool.eq_false_iff.mpr fun hfinished => ?_)
        obtain ⟨resolution, -, hpc, -⟩ := hends ⟨record, ok, rfl, hfinished⟩
        exact (hlives.stage htask hentry hrunning).1 (congrArg Pc.stage hpc)
    refine ⟨hkept, hknown, hended, fun task' htask' => ?_, hrecords⟩
    obtain rfl := Option.some.inj (htasks.symm.trans htask')
    by_cases hlast : pc = .ended
    · rw [hlast]
      trivial
    rw [hoperations, if_neg hlast] at hafter
    have hsame : next.operations ≠ s.operations := by
      intro hsame
      rw [hsame] at hafter
      exact hnot (Option.some.inj (hafter.symm.trans hentry)) hended
    obtain ⟨hover, hwithdrawing⟩ := hlives.stage htask hentry hrunning
    cases advance_course hadvance with
    | along _ _ _ _ hoperations _ | barred hoperations _ _ _ _ | late _ _ _ _ _ _ hoperations _
    | reviewed _ _ _ hoperations _ | withdrawn _ _ _ hoperations _ | due _ _ _ _ _ _ _ hoperations _ =>
      exact absurd hoperations hsame
    | allowed hmove _ _ _ =>
      obtain ⟨other, hother, hstatus⟩ := Operations.statusOf_eq_some.mp (Operations.moveFrom_spec hmove).2
      obtain rfl := Option.some.inj (hother.symm.trans hafter)
      rw [hstatus] at hended
      cases hended
    | begun hbegin _ _ _ =>
      obtain ⟨other, hother, hstatus⟩ := Operations.statusOf_eq_some.mp (Operations.moveFrom_spec hbegin).2
      obtain rfl := Option.some.inj (hother.symm.trans hafter)
      rw [hstatus] at hended
      cases hended
    | refused resolution _ hnext hgetD _ =>
      rw [hnext]
      cases hfinish : s.operations.finish id resolution with
      | none =>
        rw [hfinish] at hgetD
        exact absurd hgetD hsame
      | some finished =>
        rw [hfinish, Option.getD_some] at hgetD
        rw [hgetD] at hafter
        exact .inl (entryOf_of_finish hfinish hafter)
    | finished resolution visible shown _ hnext hstatus hdispatch hfinish _ =>
      rw [hnext]
      have hmatches := entryOf_of_finish hfinish hafter
      exact ⟨hstatus.symm.trans hmatches.status, hdispatch.symm.trans hmatches.dispatch⟩
    | closed _ _ hnext _ _ | skipped _ _ hnext _ _ | recorded _ _ _ hnext _ _ => exact absurd hnext hlast
  | panicked task _ _ htasks htrace _ =>
    refine ⟨hkept, hknown, hended, fun task' htask' => ?_, fun record ok hmem hid => .of_not_finished ?_⟩
    · obtain rfl := Option.some.inj (htasks.symm.trans htask')
      trivial
    · exact hlives.no_record hentry hrunning (htrace ▸ hmem) hid

/-- In every run of steps that do not mislead the log, what has ended is told as it ended. -/
theorem told_of_reachable (h : (gate cfg).ReachableBy (fun s a => undisturbed s a = true) s)
    (hentry : s.operations.entryOf id = some entry) (hended : entry.snapshot.status.isTerminal = true) :
    Told s id entry := by
  revert entry
  refine Machine.ReachableBy.invariant (I := fun s => ∀ {entry : Entry}, s.operations.entryOf id = some entry →
    entry.snapshot.status.isTerminal = true → Told s id entry) (fun s hinit entry hentry => ?_) ?_ h
  · obtain rfl : s = {} := hinit
    cases hentry
  · intro s a s' hreached hundisturbed hi hstep entry' hafter hended
    have hreached := hreached.reachable
    by_cases hid : id ≤ s.operations.nextId
    · obtain ⟨entry, hentry, hsame⟩ := entryOf_before_step hreached hstep hid hafter
      by_cases hover : entry.snapshot.status.isTerminal = true
      · rw [hsame hover]
        exact (hi hentry hover).step hreached hundisturbed hstep
      · exact told_of_end hreached hstep hentry (Bool.eq_false_iff.mpr hover) hafter hended
    · have hgated := gated_of_reachable hreached
      have hordered := (tidy_of_reachable (table_of_gate hreached)).ordered
      cases visit_of_step hstep id with
      | untouched _ hentries _ _ =>
        rcases hentries with hsame | ⟨hgone, -⟩
        · exact absurd (hordered id entry' (hsame ▸ hafter)).1 hid
        · rw [hgone] at hafter
          cases hafter
      | new caller _ _ entry _ _ hentry hstatus _ =>
        obtain rfl := Option.some.inj (hentry.symm.trans hafter)
        rw [hstatus] at hended
        cases caller <;> cases hended
      | cancelled _ _ hcancel _ _ =>
        obtain ⟨entry, hentry, -⟩ := entryOf_of_cancel hcancel
        exact absurd (hordered id entry hentry).1 hid
      | advanced task _ _ _ _ htask _ _ _ _ | panicked task htask _ _ _ _ => exact absurd (hgated.task id task htask) hid

end Told

/-- **The log tells the truth.** In every run of steps that do not mislead the log, each record of an operation's end
states the status and the dispatch that readers of the operation see once it has ended. -/
theorem record_tells (cfg : Settings) (s : Service)
    (h : (gate cfg).ReachableBy (fun s a => undisturbed s a = true) s) (acts : List Action) (s' : Service)
    (hexec : (gate cfg).execBy (fun s a => undisturbed s a = true) s acts = some s') (id : OperationId) (entry : Entry)
    (hentry : s.operations.entryOf id = some entry) (hended : entry.snapshot.status.isTerminal = true)
    (record : AuditRecord) (ok : Bool) (hmem : .appended record ok ∈ s'.trace) (hid : record.operation = some id) :
    record.event.Tells entry.snapshot := by
  obtain ⟨-, htold⟩ := h.execBy_invariant (I := fun s => Told s id entry)
    (fun _ _ _ hreached hundisturbed htold hstep => htold.step hreached.reachable hundisturbed hstep)
    (told_of_reachable h hentry hended) hexec
  exact htold.records record ok hmem hid

/-! ### A refusal that was withdrawn -/

/-- A request for which there is no policy, up to where it is ended, with `between` before that. -/
def withoutPolicy (between : List Action) : List Action :=
  [.submit (.agent kitchen) den { intent := smallRise } 0, .advance 1 quietWorld] ++ between ++
    [.advance 1 quietWorld]

/-- The steps that record it. -/
def recordRefusal : List Action := [.advance 1 quietWorld, .advance 1 quietWorld]

def refusedRequest : Service :=
  ((gate gateSettings).execBy (fun s a => undisturbed s a = true) {} (withoutPolicy [])).get (by decide)

def withdrawnRequest : Service :=
  ((gate gateSettings).exec {} (withoutPolicy [.cancel (.agent kitchen) 1])).get (by decide)

/-- The operation as the service keeps it. -/
def riseEntry (status : OperationStatus) (reason : Option String) : Entry :=
  { owner := .agent kitchen, key := none, snapshot := { id := 1, receiver := den, intent := smallRise, status, reason } }

def refusalRecord : AuditRecord :=
  { run := gateSettings.run, time := quietWorld.now, operation := some 1, principal := some (.agent kitchen)
    receiver := some den, event := (refusal policyUnavailable).finishedEvent }

/-- A request that is refused for want of a policy. -/
theorem record_tells_refusedRequest :
    refusalRecord.event.Tells (riseEntry .rejected (some policyUnavailable)).snapshot :=
  record_tells gateSettings refusedRequest
    (Machine.reachableBy_of_execBy ({} : Service) (withoutPolicy []) (gate_init _) (Option.some_get _).symm)
    recordRefusal _ (Option.some_get (by decide)).symm 1 _ (by decide) rfl refusalRecord true (by decide) rfl

/-- The request is withdrawn before it is ended, and the record of it says that it was rejected. -/
theorem not_record_tells : ∃ cfg s acts s' id entry record ok, (gate cfg).Reachable s ∧
    (gate cfg).exec s acts = some s' ∧ s.operations.entryOf id = some entry ∧
      entry.snapshot.status.isTerminal = true ∧ .appended record ok ∈ s'.trace ∧ record.operation = some id ∧
        ¬ record.event.Tells entry.snapshot := by
  refine ⟨gateSettings, withdrawnRequest, recordRefusal, _, 1, riseEntry .cancelled none, refusalRecord, true,
    Machine.reachable_of_exec ({} : Service) _ (gate_init _) (Option.some_get _).symm, (Option.some_get (by decide)).symm,
    by decide, rfl, by decide, rfl, fun htells => ?_⟩
  obtain ⟨hstatus, -⟩ := htells _ _ _ _ rfl
  exact absurd hstatus (by decide)

end DenonAvr.Application
