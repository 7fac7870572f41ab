import DenonAvr.Application.Reservation
import DenonAvr.Application.Restart

/-!
# A late rebuild

The ledger is rebuilt from the log while operations go on: one may reserve its place, announce its write and settle
between the start of the read and the merge. The merge loses no change and counts none twice. It brings back the
change of an operation that was settled as undispatched exactly if the log as read holds the announcement and not
yet the record of the end, which is appended after the settlement (`mergedOnce_iff`).

`watched` is the service with the places that were settled as undispatched.
-/

namespace DenonAvr.Application

open Domain Library Policy Session

/-! ### Merging -/

section Merge
variable {held more : List LedgerEntry} {entry : LedgerEntry}

/-- The two entries are of one operation on one receiver. -/
def LedgerEntry.samePlace (entry other : LedgerEntry) : Bool :=
  other.receiver == entry.receiver && other.key == entry.key

theorem LedgerEntry.samePlace_iff {other : LedgerEntry} :
    entry.samePlace other = true ↔ other.receiver = entry.receiver ∧ other.key = entry.key := by
  simp [samePlace]

theorem countP_absorb (e : LedgerEntry) :
    (Ledger.absorb held e).countP entry.samePlace =
      if held.countP entry.samePlace = 0 ∧ entry.samePlace e = true then 1 else held.countP entry.samePlace := by
  unfold Ledger.absorb
  have hzero : held.countP entry.samePlace = 0 ↔ ∀ x ∈ held, ¬ entry.samePlace x = true := List.countP_eq_zero
  by_cases hplace : entry.samePlace e = true
  · have hany : (held.any fun existing => existing.receiver == e.receiver && existing.key == e.key) = true ↔
        held.countP entry.samePlace ≠ 0 := by
      obtain ⟨hreceiver, hkey⟩ := LedgerEntry.samePlace_iff.mp hplace
      rw [Ne, hzero, List.any_eq_true, hreceiver, hkey]
      push Not
      rfl
    by_cases hheld : held.countP entry.samePlace = 0
    · rw [if_neg fun h => hany.mp h hheld, if_pos ⟨hheld, hplace⟩, List.countP_append, hheld]
      simp [hplace]
    · have hnot : ¬ (held.countP entry.samePlace = 0 ∧ entry.samePlace e = true) := fun h => hheld h.1
      rw [if_pos (hany.mpr hheld), if_neg hnot]
  · have hnot : ¬ (held.countP entry.samePlace = 0 ∧ entry.samePlace e = true) := fun h => hplace h.2
    rw [if_neg hnot]
    split_ifs
    · rfl
    · rw [List.countP_append]
      simp [hplace]

/-- A place that is held stays as it is; another is taken in once. -/
theorem countP_foldl_absorb :
    (more.foldl Ledger.absorb held).countP entry.samePlace =
      if held.countP entry.samePlace = 0 then min 1 (more.countP entry.samePlace) else held.countP entry.samePlace := by
  induction more generalizing held with
  | nil => simp
  | cons e more ih =>
    rw [List.foldl_cons, ih, countP_absorb, List.countP_cons]
    by_cases hheld : held.countP entry.samePlace = 0 <;> by_cases hplace : entry.samePlace e = true <;>
      simp [hheld, hplace]

/-- What is taken in is filtered like what it is taken from. -/
theorem filter_foldl_absorb {p : LedgerEntry → Bool} (hmore : ∀ e ∈ more, p e = false) :
    (more.foldl Ledger.absorb held).filter p = held.filter p := by
  induction more generalizing held with
  | nil => rfl
  | cons e more ih =>
    rw [List.foldl_cons, ih fun x hx => hmore x (List.mem_cons_of_mem _ hx)]
    unfold Ledger.absorb
    split_ifs
    · rfl
    · rw [List.filter_append]
      simp [hmore e List.mem_cons_self]

end Merge

/-! ### Phases of a task -/

/-- How far the task has come with its place: 0 before it is reserved, 1 until the write is announced in the log,
and 2 from there on. -/
def Pc.phase : Pc → ℕ
  | .precheck | .ledger | .rebuilding | .readingLog | .leasing | .deciding | .judging _ | .reserving => 0
  | .allowing _ | .recordingDecided _ | .checking _ | .recordingDispatching _ | .notingDecided _ _
  | .notingDispatching _ _ => 1
  | _ => 2

/-- The event announces a write of the operation. -/
def Event.Announces (event : Event) (cfg : Settings) (id : OperationId) (job : Job) : Prop :=
  ∃ now state fields ok, event = .appended (job.record cfg id now (dispatchingEvent job.intent state fields)) ok

/-- Whether the event announces a write. -/
def Event.announces : Event → Bool
  | .appended record _ => record.event.isDispatching
  | _ => false

/-- A step of the operation's task never goes back, and announces the write when it leaves phase 1. -/
structure Onward (cfg : Settings) (id : OperationId) (task : Task) (s s' : Service) (pc : Pc) : Prop where
  le : task.pc.phase ≤ pc.phase
  trace : s'.trace = s.trace ∨ ∃ event, s'.trace = s.trace ++ [event] ∧ (event.announces = true →
    event.Announces cfg id task.toJob ∧ task.pc.phase = 1 ∧ pc.phase = 2)

section Onward
variable {cfg : Settings} {s s' : Service} {id : OperationId} {task : Task} {w : World} {pc : Pc}

theorem Onward.event {event : Event} (hle : task.pc.phase ≤ pc.phase) (htrace : s'.trace = s.trace ++ [event])
    (hevent : event.announces = false) : Onward cfg id task s s' pc :=
  ⟨hle, .inr ⟨event, htrace, fun h => by rw [hevent] at h; cases h⟩⟩

theorem Onward.judge {policy : ActivePolicy} (hpc : task.pc = .judging policy) (label : AgentLabel) :
    Onward cfg id task s (judgeStep cfg s id task.toJob label policy w).1
      (judgeStep cfg s id task.toJob label policy w).2 := by
  have hle : ∀ next : Pc, task.pc.phase ≤ next.phase := fun next => by
    rw [hpc]
    exact Nat.zero_le _
  unfold judgeStep
  dsimp only
  split <;> exact .event (hle _) rfl rfl

theorem advance_onward (h : advance cfg s id task w = some (s', pc)) : Onward cfg id task s s' pc := by
  have hzero : task.pc.phase = 0 → task.pc.phase ≤ pc.phase := fun hphase => by
    rw [hphase]
    exact Nat.zero_le _
  cases advanceStep_of_advance h with
  | precheck hpc | ledger hpc | leasedOperator hpc => exact ⟨hzero (by rw [hpc]; rfl), .inl rfl⟩
  | caughtUp hpc | rebuilding hpc => exact ⟨hzero (by rw [hpc]; rfl), .inl rfl⟩
  | takenIn records now hpc => exact ⟨hzero (by rw [hpc]; rfl), .inl rfl⟩
  | unread now hpc => exact ⟨hzero (by rw [hpc]; rfl), .inl rfl⟩
  | leased label hpc => exact ⟨hzero (by rw [hpc]; rfl), .inl rfl⟩
  | unreached label error hpc => exact ⟨hzero (by rw [hpc]; rfl), .inl rfl⟩
  | unreachedOperator error hpc | undecided error hpc => exact ⟨hzero (by rw [hpc]; rfl), .inl rfl⟩
  | reserving hpc => exact ⟨hzero (by rw [hpc]; rfl), .inl rfl⟩
  | deciding policy hpc => exact .event (hzero (by rw [hpc]; rfl)) rfl rfl
  | judging policy label hpc => exact .judge hpc label
  | refusing resolution hpc | closing resolution hpc | reviewing resolution hpc | skipped resolution hpc =>
    exact ⟨by rw [hpc]; exact le_rfl, .inl rfl⟩
  | due resolution hpc => exact ⟨by rw [hpc]; exact le_rfl, .inl rfl⟩
  | releasing settlement resolution hpc => exact ⟨by rw [hpc]; exact le_rfl, .inl rfl⟩
  | withdrawing settlement hpc => exact ⟨by rw [hpc]; exact le_rfl, .inl rfl⟩
  | settling settlement resolution shown hpc => exact ⟨by rw [hpc]; exact le_rfl, .inl rfl⟩
  | barred precondition settlement hpc => exact ⟨by rw [hpc]; exact le_rfl, .inl rfl⟩
  | finished resolution shown operations hpc => exact ⟨by rw [hpc]; exact le_rfl, .inl rfl⟩
  | late resolution shown hpc => exact ⟨by rw [hpc]; exact le_rfl, .inl rfl⟩
  | recordingRefusal decision digest resolution hpc => exact .event (by rw [hpc]; exact le_rfl) rfl rfl
  | recording resolution hpc => exact .event (by rw [hpc]; exact le_rfl) rfl rfl
  | begun precondition settlement operations hpc => exact .event (by rw [hpc]; exact le_rfl) rfl rfl
  | calling precondition settlement hpc => exact .event (by rw [hpc]; exact le_rfl) rfl rfl
  | inSession settlement shown hpc => exact .event (by rw [hpc]; exact le_rfl) rfl rfl
  | allowed grant operations hpc => exact ⟨by rw [hpc]; exact le_rfl, .inl rfl⟩
  | overtaken grant hpc => exact ⟨by simp [hpc, Pc.phase], .inl rfl⟩
  | recordingDecided grant hpc =>
    refine .event ?_ rfl rfl
    rw [hpc]
    split_ifs <;> simp [Pc.phase]
  | checking grant hpc =>
    refine ⟨?_, .inl rfl⟩
    rw [hpc]
    split_ifs <;> simp [Pc.phase]
  | recordingDispatching grant hpc =>
    refine ⟨?_, .inr ⟨_, rfl, fun _ => ⟨⟨_, _, _, _, rfl⟩, by rw [hpc]; rfl, ?_⟩⟩⟩
    · rw [hpc]
      split_ifs <;> simp [Pc.phase]
    · split_ifs <;> rfl
  | notingDecided state settlement hpc =>
    split_ifs
    · exact .event (by simp [hpc, Pc.phase]) rfl rfl
    · exact .event (by simp [hpc, Pc.phase]) rfl rfl
  | unnoted state settlement hpc => exact ⟨by simp [hpc, Pc.phase], .inl rfl⟩
  | notingDispatching state settlement hpc =>
    exact ⟨by simp [hpc, Pc.phase], .inr ⟨_, rfl, fun _ => ⟨⟨_, _, _, _, rfl⟩, by rw [hpc]; rfl, rfl⟩⟩⟩

end Onward

/-! ### The service with what was released -/

/-- The change that the task's next step settles as undispatched. -/
def Pc.released? : Pc → Option OpKey
  | .releasing settlement _ | .withdrawing settlement => settlement.key
  | .settling settlement resolution _ => if resolution.dispatch = .notDispatched then settlement.key else none
  | _ => none

/-- A service, with the changes that were settled as undispatched. -/
structure Watched where
  service : Service := {}
  released : List OpKey := []

def releasedBy (s : Service) : Action → Option OpKey
  | .advance id _ => (s.tasks id).bind fun task => task.pc.released?
  | _ => none

def watched (cfg : Settings) : Machine Watched Action where
  init w := w = {}
  step w a := (w.service.step cfg a).map fun service =>
    { service, released := (releasedBy w.service a).toList ++ w.released }

/-- The records that a step merges into the ledger, and the time that its rebuild goes by. -/
def mergedBy (s : Service) : Action → Option (List AuditRecord × WallTime)
  | .advance id w =>
    match s.tasks id, s.rebuilding, w.log with
    | some task, some (some holder, now), some records =>
      if task.pc = .readingLog ∧ holder = id then some (records, now) else none
    | _, _, _ => none
  | .readElsewhere (some records) =>
    match s.rebuilding with
    | some (none, now) => some (records, now)
    | _ => none
  | _ => none

/-- Whether the record announces the write of an operation. -/
def AuditRecord.announces (key : OpKey) (record : AuditRecord) : Bool :=
  record.event.isDispatching && decide (record.key? = some key)

/-- What a log gives back of this run: announcements that its tasks made, each at most once. -/
structure GivesBack (cfg : Settings) (s : Service) (records : List AuditRecord) : Prop where
  own : ∀ record ∈ records, record.run = cfg.run → record.event.isDispatching = true →
    ∃ id task now state fields, s.tasks id = some task ∧ task.pc.phase ≠ 0 ∧
      record = task.record cfg id now (dispatchingEvent task.intent state fields)
  once : ∀ id, records.countP (AuditRecord.announces ⟨cfg.run, id⟩) ≤ 1

/-- Of each change that was settled as undispatched and whose announcement the records hold, they hold the end. -/
def EndsRead (released : List OpKey) (records : List AuditRecord) (now : WallTime) : Prop :=
  ∀ key ∈ released, ∀ record ∈ records, record.announces key = true → now.saturatingSub retention ≤ record.time →
    ∃ other ∈ records, other.notDispatched? = some key

/-- A step that merges reads the log of the run, with the ends of what was released. -/
def ReadsEnds (cfg : Settings) (w : Watched) (a : Action) : Prop :=
  ∀ records now, mergedBy w.service a = some (records, now) →
    GivesBack cfg w.service records ∧ EndsRead w.released records now

/-- The merge counts every change once: the live ones, those of earlier runs as the log has them, and none that was
released. -/
structure MergedOnce (cfg : Settings) (before after rebuilt : Ledger) (released : List OpKey) : Prop where
  live : ∀ entry ∈ before.entries, after.entries.countP (fun e => e.key == entry.key) = 1
  earlier : ∀ key, key.run ≠ cfg.run →
    after.entries.filter (fun e => e.key == key) = rebuilt.entries.filter (fun e => e.key == key)
  gone : ∀ key ∈ released, ∀ entry ∈ after.entries, entry.key ≠ key

section Watched
variable {cfg : Settings} {w w' : Watched} {s s' : Service} {a : Action} {id : OperationId} {task : Task} {pc : Pc}
  {world : World} {records : List AuditRecord} {now : WallTime} {key : OpKey}

theorem step_watched (h : (watched cfg).step w a = some w') :
    w.service.step cfg a = some w'.service ∧ w'.released = (releasedBy w.service a).toList ++ w.released := by
  obtain ⟨service, hstep, rfl⟩ := Option.map_eq_some_iff.mp h
  exact ⟨hstep, rfl⟩

theorem reachable_service {C : Watched → Action → Prop} (h : (watched cfg).ReachableBy C w) :
    (gate cfg).Reachable w.service := by
  induction h with
  | @init w hinit =>
    obtain rfl : w = {} := hinit
    exact .init rfl
  | step _ _ hstep ih => exact .step ih trivial (step_watched hstep).1

/-- What a step of a task does to the books. -/
inductive Moved (cfg : Settings) (id : OperationId) (task : Task) (world : World) (s s' : Service) (pc : Pc) : Prop
  | same (released : task.pc.released? = none) (books : s'.books = s.books)
      (place : task.pc.phase = 2 → task.pc.unsettled? = none → pc.unsettled? = none)
  | merged (records : List AuditRecord) (now : WallTime) (before : task.pc = .readingLog)
      (held : s.rebuilding = some (some id, now)) (log : world.log = some records) (state : s' = s.takeIn records now)
  | reserved (now : WallTime) (state : ReceiverState) (before : task.pc.phase = 0) (released : task.pc.released? = none)
      (after : pc.phase = 1)
      (books : s'.books = (s.books.reserve cfg.run now task.receiver task.intent state id).1)
  | released (key : OpKey) (settlement : Settlement) (released : task.pc.released? = some key)
      (phase : task.pc.phase = 2) (place : task.pc.unsettled? = some settlement) (key_eq : settlement.key = some key)
      (after : pc.unsettled? = none) (state : s' = s.settle settlement false)

theorem settle_of_key_none {settlement : Settlement} {dispatched : Bool} (h : settlement.key = none) :
    s.settle settlement dispatched = s := by
  unfold Service.settle Books.settle
  rw [h]

theorem settle_true (settlement : Settlement) : s.settle settlement true = s := by
  unfold Service.settle Books.settle
  cases settlement.key <;> rfl

theorem Moved.settle {settlement : Settlement} {dispatched : Bool} (hplace : task.pc.unsettled? = some settlement)
    (hphase : task.pc.phase = 2) (hreleased : task.pc.released? = if dispatched then none else settlement.key)
    (hafter : pc.unsettled? = none) : Moved cfg id task world s (s.settle settlement dispatched) pc := by
  cases dispatched with
  | true => exact .same hreleased (by rw [settle_true]) fun _ _ => hafter
  | false =>
    cases hkey : settlement.key with
    | none =>
      rw [settle_of_key_none hkey]
      exact .same (hreleased.trans hkey) rfl fun _ _ => hafter
    | some key => exact .released key settlement (hreleased.trans hkey) hphase hplace hkey hafter rfl

theorem advance_moved (h : advance cfg s id task world = some (s', pc)) : Moved cfg id task world s s' pc := by
  have hledger := advance_ledger h
  cases hledger with
  | same books _ place _ _ _ =>
    cases hpc : task.pc with
    | releasing settlement resolution | withdrawing settlement =>
      unfold advance at h
      rw [hpc] at h
      obtain ⟨rfl, rfl⟩ := step_eq h
      rw [hpc] at place
      cases place
    | settling settlement resolution shown =>
      unfold advance at h
      rw [hpc] at h
      obtain ⟨rfl, rfl⟩ := step_eq h
      rw [hpc] at place
      cases place
    | _ =>
      refine .same (by rw [hpc]; rfl) books fun _ hnone => ?_
      rw [place]
      exact hnone
  | rebuilt records now before held log _ state => exact .merged _ _ before held log state
  | reserved before after books _ _ _ =>
    have hphase : task.pc.phase = 0 ∧ task.pc.released? = none := by
      rcases before with ⟨policy, hpc⟩ | hpc <;> rw [hpc] <;> exact ⟨rfl, rfl⟩
    refine .reserved world.now world.state hphase.1 hphase.2 ?_ books
    unfold advance at h
    rcases before with ⟨policy, hpc⟩ | hpc
    · simp only [hpc] at h
      split at h
      · obtain ⟨-, hplace⟩ := Prod.ext_iff.mp (Option.some.inj h)
        dsimp only at hplace
        rw [← hplace] at after ⊢
        unfold judgeStep at after ⊢
        dsimp only at after ⊢
        split at after
        · cases after
        · cases after
        · rfl
      · cases h
    · rw [hpc] at h
      obtain ⟨rfl, rfl⟩ := step_eq h
      rfl
  | released settlement before after _ state =>
    subst state
    rcases before with ⟨resolution, hpc⟩ | hpc <;>
      exact .settle (by rw [hpc]; rfl) (by rw [hpc]; rfl) (by rw [hpc]; rfl) after
  | settled settlement resolution shown before after _ state =>
    subst state
    refine .settle (by rw [before]; rfl) (by rw [before]; rfl) ?_ after
    rw [before]
    by_cases hnot : resolution.dispatch = .notDispatched <;> simp [Pc.released?, hnot]

/-! ### What the ledger counts -/

/-- The operation's task has reserved a volume change of `receiver`. -/
def HasPlace (s : Service) (key : OpKey) (receiver : ReceiverId) : Prop :=
  ∃ task, s.tasks key.operation = some task ∧ task.pc.phase ≠ 0 ∧ task.receiver = receiver ∧
    (targetOf task.intent).isSome = true

/-- The ledger while this run's changes are counted in it. -/
structure Tracked (cfg : Settings) (w : Watched) : Prop where
  owned : ∀ entry ∈ w.service.books.ledger.entries, entry.key.run = cfg.run →
    HasPlace w.service entry.key entry.receiver
  /-- Until the merge only changes of this run are counted. -/
  live : w.service.books.ready = false → ∀ entry ∈ w.service.books.ledger.entries, entry.key.run = cfg.run
  once : ∀ key, key.run = cfg.run → w.service.books.ledger.entries.countP (fun e => e.key == key) ≤ 1
  released : ∀ key ∈ w.released, key.run = cfg.run ∧ ∃ task, w.service.tasks key.operation = some task ∧
    task.pc.phase = 2 ∧ task.pc.unsettled? = none ∧ (targetOf task.intent).isSome = true
  gone : ∀ key ∈ w.released, ∀ entry ∈ w.service.books.ledger.entries, entry.key ≠ key

/-- The tasks of `s` go on in `s'`: none goes back, and what was settled stays settled. -/
def TasksGoOn (s s' : Service) : Prop :=
  ∀ id task, s.tasks id = some task → ∃ task', s'.tasks id = some task' ∧ task'.toJob = task.toJob ∧
    task.pc.phase ≤ task'.pc.phase ∧ (task.pc.phase = 2 → task.pc.unsettled? = none → task'.pc.unsettled? = none)

theorem TasksGoOn.of_eq (h : s'.tasks = s.tasks) : TasksGoOn s s' :=
  fun _ task htask => ⟨task, by rw [h]; exact htask, rfl, le_rfl, fun _ h => h⟩

theorem phase_le (pc : Pc) : pc.phase ≤ 2 := by
  cases pc <;> simp [Pc.phase]

theorem TasksGoOn.hasPlace (h : TasksGoOn s s') {receiver : ReceiverId} (hplace : HasPlace s key receiver) :
    HasPlace s' key receiver := by
  obtain ⟨task, htask, hphase, hreceiver, htarget⟩ := hplace
  obtain ⟨task', htask', hjob, hle, -⟩ := h _ task htask
  refine ⟨task', htask', by omega, ?_, ?_⟩
  · rw [← hreceiver, ← hjob]
  · rw [← htarget, ← hjob]

theorem TasksGoOn.released (h : TasksGoOn s s')
    (hsettled : ∃ task, s.tasks id = some task ∧ task.pc.phase = 2 ∧ task.pc.unsettled? = none ∧
      (targetOf task.intent).isSome = true) :
    ∃ task, s'.tasks id = some task ∧ task.pc.phase = 2 ∧ task.pc.unsettled? = none ∧
      (targetOf task.intent).isSome = true := by
  obtain ⟨task, htask, hphase, hnone, htarget⟩ := hsettled
  obtain ⟨task', htask', hjob, hle, hkeep⟩ := h _ task htask
  have hbound := phase_le task'.pc
  refine ⟨task', htask', by omega, hkeep hphase hnone, ?_⟩
  rw [← htarget, ← hjob]

/-- A step that leaves the books alone. -/
theorem Tracked.goOn (h : Tracked cfg w) (hbooks : s'.books = w.service.books) (hgo : TasksGoOn w.service s') :
    Tracked cfg ⟨s', w.released⟩ := by
  refine ⟨fun entry hmem hrun => ?_, fun hready => ?_, fun key hrun => ?_, fun key hmem => ?_,
    fun key hkey entry hmem => ?_⟩
  · exact hgo.hasPlace (h.owned entry (hbooks ▸ hmem) hrun)
  · exact hbooks ▸ h.live (hbooks ▸ hready)
  · exact hbooks ▸ h.once key hrun
  · exact ⟨(h.released key hmem).1, hgo.released (h.released key hmem).2⟩
  · exact h.gone key hkey entry (hbooks ▸ hmem)

theorem Tracked.reserve (h : Tracked cfg w) {task' : Task} {state : ReceiverState}
    (htask : w.service.tasks id = some task) (hbefore : task.pc.phase = 0)
    (hbooks : s'.books = (w.service.books.reserve cfg.run now task.receiver task.intent state id).1)
    (hgo : TasksGoOn w.service s') (htask' : s'.tasks id = some task') (hjob : task'.toJob = task.toJob)
    (hafter : task'.pc.phase = 1) : Tracked cfg ⟨s', w.released⟩ := by
  have hmem : ∀ entry ∈ s'.books.ledger.entries, entry ∈ w.service.books.ledger.entries ∨
      ∃ change, Books.changeOf now task.intent state = some change ∧
        entry = ⟨task.receiver, ⟨cfg.run, id⟩, change⟩ := by
    intro entry hentry
    rw [hbooks] at hentry
    exact (mem_reserved.mp hentry).imp (fun h => (Ledger.mem_prune.mp h).1) fun h => h
  have hready : s'.books.ready = w.service.books.ready := by
    rw [hbooks, ready_reserve]
  have hunplaced : ∀ entry ∈ w.service.books.ledger.entries, entry.key ≠ ⟨cfg.run, id⟩ := by
    rintro entry hentry hkey
    obtain ⟨other, hother, hphase, -⟩ := h.owned entry hentry (by rw [hkey])
    rw [hkey, htask] at hother
    obtain rfl := Option.some.inj hother
    exact hphase hbefore
  refine ⟨fun entry hentry hrun => ?_, fun hunready entry hentry => ?_, fun key hrun => ?_,
    fun key hkey => ?_, fun key hkey entry hentry => ?_⟩
  · rcases hmem entry hentry with hold | ⟨change, hchange, rfl⟩
    · exact hgo.hasPlace (h.owned entry hold hrun)
    · obtain ⟨target, htarget, -⟩ := Option.map_eq_some_iff.mp hchange
      refine ⟨task', htask', by rw [hafter]; decide, by rw [hjob], ?_⟩
      rw [hjob, htarget]
      rfl
  · rcases hmem entry hentry with hold | ⟨change, -, rfl⟩
    · exact h.live (hready ▸ hunready) entry hold
    · rfl
  · show s'.books.ledger.entries.countP _ ≤ 1
    have hpruned : (w.service.books.ledger.prune now).entries.countP (fun e => e.key == key) ≤
        w.service.books.ledger.entries.countP fun e => e.key == key :=
      List.filter_sublist.countP_le
    have hold := h.once key hrun
    rw [hbooks]
    unfold Books.reserve
    cases hchange : Books.changeOf now task.intent state with
    | none => exact hpruned.trans hold
    | some change =>
      show ((w.service.books.ledger.prune now).entries ++ [_]).countP _ ≤ 1
      rw [List.countP_append]
      by_cases hkey : key = ⟨cfg.run, id⟩
      · have hzero : w.service.books.ledger.entries.countP (fun e => e.key == key) = 0 :=
          List.countP_eq_zero.mpr fun entry hentry heq => hunplaced entry hentry (by rw [← hkey]; exact beq_iff_eq.mp heq)
        have hone : List.countP (fun e : LedgerEntry => e.key == key) [⟨task.receiver, ⟨cfg.run, id⟩, change⟩] ≤ 1 :=
          List.countP_le_length
        omega
      · have hnone : List.countP (fun e : LedgerEntry => e.key == key) [⟨task.receiver, ⟨cfg.run, id⟩, change⟩] = 0 := by
          simp [Ne.symm hkey]
        omega
  · exact ⟨(h.released key hkey).1, hgo.released (h.released key hkey).2⟩
  · rcases hmem entry hentry with hold | ⟨change, -, rfl⟩
    · exact h.gone key hkey entry hold
    · rintro rfl
      obtain ⟨-, other, hother, hphase, -⟩ := h.released _ hkey
      rw [htask] at hother
      obtain rfl := Option.some.inj hother
      omega

theorem Tracked.release (h : Tracked cfg w) {task' : Task} {settlement : Settlement}
    (htask : w.service.tasks id = some task) (hplace : settlement = task.place cfg id)
    (hkey : settlement.key = some key) (hphase : task.pc.phase = 2)
    (hbooks : s'.books = (w.service.settle settlement false).books) (hgo : TasksGoOn w.service s')
    (htask' : s'.tasks id = some task') (hjob : task'.toJob = task.toJob) (hafter : task'.pc.unsettled? = none) :
    Tracked cfg ⟨s', key :: w.released⟩ := by
  have htarget : (targetOf task.intent).isSome = true ∧ settlement = ⟨task.receiver, some ⟨cfg.run, id⟩⟩ ∧
      key = ⟨cfg.run, id⟩ := by
    rw [hplace] at hkey ⊢
    unfold Job.place at hkey ⊢
    cases htarget : targetOf task.intent with
    | none => rw [htarget] at hkey; cases hkey
    | some target =>
      rw [htarget] at hkey
      exact ⟨rfl, rfl, (Option.some.inj hkey).symm⟩
  obtain ⟨hvolume, hsettlement, rfl⟩ := htarget
  have hentries : s'.books.ledger.entries =
      w.service.books.ledger.entries.filter fun entry =>
        !(entry.receiver == task.receiver && entry.key == ⟨cfg.run, id⟩) := by
    rw [hbooks, hsettlement]
    rfl
  have hmem : ∀ entry ∈ s'.books.ledger.entries, entry ∈ w.service.books.ledger.entries := fun entry hentry =>
    List.mem_of_mem_filter (hentries ▸ hentry)
  have hready : s'.books.ready = w.service.books.ready := by
    rw [hbooks]
    exact ready_settle _ _ _
  refine ⟨fun entry hentry hrun => ?_, fun hunready entry hentry => ?_, fun key hrun => ?_,
    fun key hreleased => ?_, fun key hreleased entry hentry => ?_⟩
  · exact hgo.hasPlace (h.owned entry (hmem entry hentry) hrun)
  · exact h.live (hready ▸ hunready) entry (hmem entry hentry)
  · show s'.books.ledger.entries.countP _ ≤ 1
    rw [hentries]
    exact (List.filter_sublist.countP_le).trans (h.once key hrun)
  · rcases List.mem_cons.mp hreleased with rfl | hreleased
    · obtain ⟨_, hgone, _, hle, -⟩ := hgo id task htask
      rw [htask'] at hgone
      obtain rfl := Option.some.inj hgone
      have hbound := phase_le task'.pc
      exact ⟨rfl, task', htask', by omega, hafter, by rw [hjob]; exact hvolume⟩
    · exact ⟨(h.released key hreleased).1, hgo.released (h.released key hreleased).2⟩
  · rcases List.mem_cons.mp hreleased with rfl | hreleased
    · intro heq
      obtain ⟨other, hother, -, hreceiver, -⟩ := h.owned entry (hmem entry hentry) (by rw [heq])
      rw [heq, htask] at hother
      obtain rfl := Option.some.inj hother
      have hkept := List.of_mem_filter (hentries ▸ hentry)
      simp [heq, hreceiver] at hkept
    · exact h.gone key hreleased entry (hmem entry hentry)

/-! ### The merge -/

theorem HasPlace.unique {receiver receiver' : ReceiverId} (h : HasPlace s key receiver)
    (h' : HasPlace s key receiver') : receiver' = receiver := by
  obtain ⟨task, htask, -, rfl, -⟩ := h
  obtain ⟨task', htask', -, rfl, -⟩ := h'
  rw [htask] at htask'
  rw [Option.some.inj htask']

theorem isDispatching_of_volumeChange? {record : AuditRecord} {change : ReceiverId × RecentChange}
    (h : record.volumeChange? = some change) : record.event.isDispatching = true := by
  unfold AuditRecord.volumeChange? at h
  split at h
  · rename_i hevent _
    rw [hevent]
    rfl
  · cases h

/-- What a record of the task counts as. -/
theorem receiver_of_volumeChange? {state : ReceiverState} {fields : List CoreField}
    {change : ReceiverId × RecentChange}
    (h : (task.record cfg id now (dispatchingEvent task.intent state fields)).volumeChange? = some change) :
    change.1 = task.receiver ∧ (targetOf task.intent).isSome = true := by
  cases htarget : targetOf task.intent with
  | none =>
    simp only [AuditRecord.volumeChange?, Job.record, dispatchingEvent, htarget] at h
    cases h
  | some target =>
    rw [volumeChange?_dispatching rfl rfl htarget] at h
    exact ⟨by rw [← Option.some.inj h], rfl⟩

/-- A change of this run that the log gives back is announced by a record that was read, and has its place. -/
theorem GivesBack.hasPlace (hread : GivesBack cfg s records) {entry : LedgerEntry}
    (hmem : entry ∈ (Ledger.rebuild records now).entries) (hrun : entry.key.run = cfg.run) :
    HasPlace s entry.key entry.receiver := by
  obtain ⟨⟨record, hrecord, hentry⟩, -⟩ := mem_rebuild.mp hmem
  obtain ⟨hrun', hchange, hkey⟩ := ledgerEntry_eq_some hentry
  obtain ⟨id, task, time, state, fields, htask, hphase, rfl⟩ :=
    hread.own record hrecord (hrun'.symm.trans hrun) (isDispatching_of_volumeChange? hchange)
  obtain ⟨hreceiver, htarget⟩ := receiver_of_volumeChange? hchange
  rw [(hkey ⟨cfg.run, id⟩ rfl).1]
  exact ⟨task, htask, hphase, hreceiver.symm, htarget⟩

theorem GivesBack.countP_le (hread : GivesBack cfg s records) (hrun : key.run = cfg.run) :
    (Ledger.rebuild records now).entries.countP (fun e => e.key == key) ≤ 1 := by
  refine le_trans ?_ (hrun ▸ hread.once key.operation)
  show ((records.filterMap _).filter _).countP _ ≤ _
  refine (List.filter_sublist.countP_le).trans ?_
  rw [List.countP_filterMap]
  refine List.countP_mono_left fun record hrecord hcounts => ?_
  obtain ⟨entry, hentry⟩ : ∃ entry,
      record.ledgerEntry (records.filterMap AuditRecord.notDispatched?) = some entry := by
    cases hentry : record.ledgerEntry (records.filterMap AuditRecord.notDispatched?) with
    | none => simp [hentry] at hcounts
    | some entry => exact ⟨entry, rfl⟩
  rw [hentry] at hcounts
  obtain ⟨hrun', hchange, hkey⟩ := ledgerEntry_eq_some hentry
  have hdispatching := isDispatching_of_volumeChange? hchange
  have hentrykey : entry.key = key := beq_iff_eq.mp hcounts
  obtain ⟨id, task, time, state, fields, -, -, rfl⟩ :=
    hread.own record hrecord (by rw [← hrun', hentrykey, hrun]) hdispatching
  have hid : entry.key = ⟨cfg.run, id⟩ := (hkey ⟨cfg.run, id⟩ rfl).1
  rw [AuditRecord.announces, hdispatching, ← hentrykey, hid]
  exact decide_eq_true rfl

/-- Counting by the key is counting by the place, when a key has one receiver. -/
theorem countP_key_eq {entries : List LedgerEntry} {entry : LedgerEntry}
    (h : ∀ e ∈ entries, e.key = entry.key → e.receiver = entry.receiver) :
    entries.countP (fun e => e.key == entry.key) = entries.countP entry.samePlace := by
  refine List.countP_congr fun e hmem => ?_
  rw [beq_iff_eq, LedgerEntry.samePlace_iff]
  exact ⟨fun hkey => ⟨h e hmem hkey, hkey⟩, fun hboth => hboth.2⟩

/-- The changes that the merge leaves are each of a task that has their place, or of an earlier run. -/
theorem Tracked.hasPlace_merge (h : Tracked cfg w) (hread : GivesBack cfg w.service records) {entry : LedgerEntry}
    (hmem : entry ∈ ((Ledger.rebuild records now).merge w.service.books.ledger).entries)
    (hrun : entry.key.run = cfg.run) : HasPlace w.service entry.key entry.receiver := by
  rcases Ledger.mem_merge hmem with hold | hold
  · exact hread.hasPlace hold hrun
  · exact h.owned entry hold hrun

theorem Tracked.countP_merge_le (h : Tracked cfg w) (hread : GivesBack cfg w.service records)
    (hrun : key.run = cfg.run) :
    ((Ledger.rebuild records now).merge w.service.books.ledger).entries.countP (fun e => e.key == key) ≤ 1 := by
  by_cases hany : ∃ entry ∈ ((Ledger.rebuild records now).merge w.service.books.ledger).entries, entry.key = key
  · obtain ⟨entry, hmem, rfl⟩ := hany
    have hplace := h.hasPlace_merge hread hmem hrun
    rw [countP_key_eq fun e he hkey => hplace.unique (hkey ▸ h.hasPlace_merge hread he (hkey ▸ hrun))]
    have hrebuilt : (Ledger.rebuild records now).entries.countP (fun e => e.key == entry.key) ≤ 1 :=
      hread.countP_le hrun
    have hle : (Ledger.rebuild records now).entries.countP entry.samePlace ≤
        (Ledger.rebuild records now).entries.countP fun e => e.key == entry.key :=
      List.countP_mono_left fun e _ he => beq_iff_eq.mpr (LedgerEntry.samePlace_iff.mp he).2
    show (w.service.books.ledger.entries.foldl Ledger.absorb _).countP _ ≤ 1
    rw [countP_foldl_absorb]
    split_ifs
    · exact min_le_left _ _
    · omega
  · push Not at hany
    rw [List.countP_eq_zero.mpr fun e he heq => hany e he (beq_iff_eq.mp heq)]
    exact Nat.zero_le _

theorem Tracked.countP_merge_live (h : Tracked cfg w) (hready : w.service.books.ready = false)
    (hread : GivesBack cfg w.service records) {entry : LedgerEntry}
    (hmem : entry ∈ w.service.books.ledger.entries) :
    ((Ledger.rebuild records now).merge w.service.books.ledger).entries.countP (fun e => e.key == entry.key) = 1 := by
  refine le_antisymm (h.countP_merge_le hread (h.live hready entry hmem)) ?_
  obtain ⟨e, he, -, hkey⟩ : ∃ e ∈ ((Ledger.rebuild records now).merge w.service.books.ledger).entries,
      e.receiver = entry.receiver ∧ e.key = entry.key := Ledger.key_mem_merge_right hmem
  exact List.countP_pos_iff.mpr ⟨e, he, beq_iff_eq.mpr hkey⟩

theorem Tracked.filter_merge (h : Tracked cfg w) (hready : w.service.books.ready = false)
    (hrun : key.run ≠ cfg.run) :
    ((Ledger.rebuild records now).merge w.service.books.ledger).entries.filter (fun e => e.key == key) =
      (Ledger.rebuild records now).entries.filter fun e => e.key == key := by
  refine filter_foldl_absorb fun e he => ?_
  have hown := h.live hready e he
  exact beq_eq_false_iff_ne.mpr fun heq => hrun (heq ▸ hown)

/-- What was released comes back exactly if its announcement is read without its end. -/
theorem Tracked.gone_merge_iff (h : Tracked cfg w) (hread : GivesBack cfg w.service records) :
    (∀ key ∈ w.released, ∀ entry ∈ ((Ledger.rebuild records now).merge w.service.books.ledger).entries,
      entry.key ≠ key) ↔ EndsRead w.released records now := by
  constructor
  · intro hgone key hkey record hrecord hannounces hyoung
    by_contra hnone
    push Not at hnone
    rw [AuditRecord.announces, Bool.and_eq_true, decide_eq_true_eq] at hannounces
    obtain ⟨hdispatching, hrecordkey⟩ := hannounces
    obtain ⟨hrun, task, htask, -, -, htarget⟩ := h.released key hkey
    have hrecordrun : record.run = cfg.run := by
      obtain ⟨_, -, heq⟩ := Option.map_eq_some_iff.mp hrecordkey
      rw [← hrun, ← heq]
    obtain ⟨id, task', time, state, fields, htask', -, rfl⟩ := hread.own record hrecord hrecordrun hdispatching
    obtain rfl := Option.some.inj hrecordkey
    rw [htask] at htask'
    obtain rfl := Option.some.inj htask'
    obtain ⟨target, htarget⟩ := Option.isSome_iff_exists.mp htarget
    have hmem := mem_rebuild_of_dispatching hrecord hrecordkey
      (volumeChange?_dispatching rfl rfl htarget) hnone hyoung
    exact hgone _ hkey _ (Ledger.mem_merge_of_mem_left hmem) rfl
  · rintro hends key hkey entry hmem rfl
    rcases Ledger.mem_merge hmem with hold | hold
    · obtain ⟨⟨record, hrecord, hentry⟩, hyoung⟩ := mem_rebuild.mp hold
      obtain ⟨hrun, hchange, hfree⟩ := ledgerEntry_eq_some hentry
      have hdispatching := isDispatching_of_volumeChange? hchange
      obtain ⟨id, task, time, state, fields, -, -, rfl⟩ :=
        hread.own record hrecord (hrun.symm.trans (h.released _ hkey).1) hdispatching
      obtain ⟨heq, hnot⟩ := hfree ⟨cfg.run, id⟩ rfl
      have htime : entry.change.time = time := by
        unfold AuditRecord.volumeChange? at hchange
        split at hchange
        · rw [← (Prod.mk.inj (Option.some.inj hchange)).2]
          rfl
        · cases hchange
      obtain ⟨other, hother, hreleased⟩ := hends _ hkey _ hrecord
        (by rw [AuditRecord.announces, hdispatching, heq]; exact decide_eq_true rfl) (by rw [← htime]; exact hyoung)
      exact hnot (List.mem_filterMap.mpr ⟨other, hother, by rw [hreleased, heq]⟩)
    · exact h.gone _ hkey entry hold rfl

/-! ### Steps -/

theorem TasksGoOn.set (htasks : s'.tasks = s.tasks) (htask : s.tasks id = some task)
    (hle : task.pc.phase ≤ pc.phase) (hkeep : task.pc.phase = 2 → task.pc.unsettled? = none → pc.unsettled? = none) :
    TasksGoOn s (s'.setTask id { task with pc }) := by
  intro other task' htask'
  unfold Service.setTask
  dsimp only
  by_cases heq : other = id
  · subst heq
    rw [htask] at htask'
    obtain rfl := Option.some.inj htask'
    exact ⟨_, Function.update_self .., rfl, hle, hkeep⟩
  · rw [Function.update_of_ne heq, htasks]
    exact ⟨task', htask', rfl, le_rfl, fun _ h => h⟩

/-- A step that merges. -/
theorem step_merged (hmerge : mergedBy s a = some (records, now)) (hstep : s.step cfg a = some s') :
    s.rebuilding.isSome = true ∧ releasedBy s a = none ∧ s'.books = (s.takeIn records now).books ∧
      TasksGoOn s s' := by
  cases a with
  | advance id world =>
    simp only [mergedBy] at hmerge
    split at hmerge
    · rename_i task holder time log htask hheld hlog
      split_ifs at hmerge with hmine
      obtain ⟨hpc, rfl⟩ := hmine
      obtain ⟨rfl, rfl⟩ := Prod.mk.inj (Option.some.inj hmerge)
      have hadvance : advance cfg s holder task world = some (s.takeIn log time, .leasing) := by
        unfold advance
        simp [hpc, hheld, hlog]
      simp only [Service.step, htask, hadvance, Option.bind_eq_bind, Option.bind_some] at hstep
      obtain rfl := Option.some.inj hstep
      refine ⟨by rw [hheld]; rfl, by simp [releasedBy, htask, hpc, Pc.released?], rfl, ?_⟩
      exact .set rfl htask (by simp [hpc, Pc.phase]) fun _ _ => rfl
    · cases hmerge
  | readElsewhere log =>
    cases log with
    | none => cases hmerge
    | some log =>
      simp only [mergedBy] at hmerge
      split at hmerge
      · rename_i time hheld
        obtain ⟨rfl, rfl⟩ := Prod.mk.inj (Option.some.inj hmerge)
        simp only [Service.step, hheld] at hstep
        obtain rfl := Option.some.inj hstep
        exact ⟨by rw [hheld]; rfl, rfl, rfl, .of_eq rfl⟩
      · cases hmerge
  | _ => cases hmerge

theorem Tracked.merge (h : Tracked cfg w) (hmerge : mergedBy w.service a = some (records, now))
    (hread : GivesBack cfg w.service records) (hends : EndsRead w.released records now)
    (hstep : w.service.step cfg a = some s') : Tracked cfg ⟨s', w.released⟩ := by
  obtain ⟨-, -, hbooks, hgo⟩ := step_merged hmerge hstep
  refine ⟨fun entry hmem hrun => ?_, fun hunready => ?_, fun key hrun => ?_, fun key hkey => ?_, ?_⟩
  · change entry ∈ s'.books.ledger.entries at hmem
    rw [hbooks] at hmem
    exact hgo.hasPlace (h.hasPlace_merge hread hmem hrun)
  · change s'.books.ready = false at hunready
    rw [hbooks] at hunready
    cases hunready
  · show s'.books.ledger.entries.countP _ ≤ 1
    rw [hbooks]
    exact h.countP_merge_le hread hrun
  · exact ⟨(h.released key hkey).1, hgo.released (h.released key hkey).2⟩
  · show ∀ key ∈ w.released, ∀ entry ∈ s'.books.ledger.entries, entry.key ≠ key
    rw [hbooks]
    exact (h.gone_merge_iff hread).mpr hends

/-- A step of a task that does not merge. -/
theorem Tracked.advance (h : Tracked cfg w) (hgated : Gated cfg w.service) (htask : w.service.tasks id = some task)
    (hstep : advance cfg w.service id task world = some (s', pc))
    (hmerge : mergedBy w.service (.advance id world) = none) :
    Tracked cfg ⟨s'.setTask id { task with pc }, task.pc.released?.toList ++ w.released⟩ := by
  have hframe := advance_frame hstep
  have honward := advance_onward hstep
  have hset : ∀ hkeep, TasksGoOn w.service (s'.setTask id { task with pc }) := fun hkeep =>
    .set hframe.tasks htask honward.le hkeep
  have hself : (s'.setTask id { task with pc }).tasks id = some { task with pc } := Function.update_self ..
  cases advance_moved hstep with
  | same released books place =>
    rw [released]
    exact h.goOn books (hset place)
  | merged records now before held log state =>
    unfold mergedBy at hmerge
    simp [htask, held, log, before] at hmerge
  | reserved now state before released after books =>
    rw [released]
    exact h.reserve htask before books (hset fun hphase => by omega) hself rfl after
  | released key settlement released phase place key_eq after state =>
    rw [released]
    subst state
    exact h.release htask ((hgated.proper id task htask).place settlement place) key_eq phase rfl
      (hset fun _ _ => after) hself rfl after

theorem Tracked.submit (h : Tracked cfg w) (hgated : Gated cfg w.service) (caller : Principal)
    (receiver : ReceiverId) (submission : OperationSubmission) (instant : Instant) :
    Tracked cfg ⟨(w.service.submit cfg caller receiver submission instant).1, w.released⟩ := by
  rcases submit_cases cfg w.service caller receiver submission instant with ⟨writes, hs⟩ | ⟨writes, hs⟩
  · rw [hs]
    exact h.goOn rfl (.of_eq rfl)
  · rw [hs]
    refine h.goOn rfl (fun other task htask => ⟨task, ?_, rfl, le_rfl, fun _ h => h⟩)
    have hne : other ≠ w.service.operations.nextId + 1 := (Nat.lt_succ_of_le (hgated.task other task htask)).ne
    exact (Function.update_of_ne hne ..).trans htask

theorem Tracked.step (h : Tracked cfg w) (hgated : Gated cfg w.service) (hmeets : ReadsEnds cfg w a)
    (hstep : (watched cfg).step w a = some w') : Tracked cfg w' := by
  obtain ⟨service, released⟩ := w'
  obtain ⟨hstep, rfl⟩ := step_watched hstep
  dsimp only at hstep
  cases hmerge : mergedBy w.service a with
  | some merged =>
    obtain ⟨hread, hends⟩ := hmeets merged.1 merged.2 hmerge
    rw [(step_merged hmerge hstep).2.1]
    exact h.merge hmerge hread hends hstep
  | none =>
    cases serviceStep_of_step hstep with
    | submit caller receiver submission instant => exact h.submit hgated caller receiver submission instant
    | advance id world task next pc htask hadvance =>
      have hnext := h.advance hgated htask hadvance hmerge
      have hreleased : releasedBy w.service (.advance id world) = task.pc.released? := by
        simp [releasedBy, htask]
      rw [hreleased]
      split_ifs
      · exact hnext.goOn rfl (.of_eq rfl)
      · exact hnext
    | panic id task freed htask => exact h.goOn rfl (TasksGoOn.set rfl htask (phase_le _) fun _ _ => rfl)
    | takenIn records time hheld =>
      unfold mergedBy at hmerge
      simp [hheld] at hmerge
    | cancelled | uncancelled | loadPolicy | noteElsewhere | chargeDryRun | shutdown | rebuildElsewhere | unread =>
      exact h.goOn rfl (.of_eq rfl)

theorem tracked_of_reachable (h : (watched cfg).ReachableBy (ReadsEnds cfg) w) : Tracked cfg w := by
  refine Machine.ReachableBy.invariant (I := Tracked cfg) (fun w hinit => ?_)
    (fun w a w' hw hmeets hi hstep => hi.step (gated_of_reachable (reachable_service hw)) hmeets hstep) h
  obtain rfl : w = {} := hinit
  exact ⟨fun _ hmem => (by cases hmem), fun _ _ hmem => (by cases hmem),
    fun _ _ => Nat.zero_le _, fun _ hmem => (by cases hmem), fun _ hmem => by cases hmem⟩

/-! ### What the service announces -/

/-- The records that were to be appended, in order. -/
def Service.written (s : Service) : List AuditRecord :=
  s.trace.filterMap fun event => match event with
    | .appended record _ => some record
    | _ => none

/-- Whether the event announces the write of this operation. -/
def Event.announcesOf (id : OperationId) (event : Event) : Bool := event.announces && decide (event.task? = some id)

/-- Each operation announces its write at most once, by a record of its task. -/
structure Announced (cfg : Settings) (s : Service) : Prop where
  own : ∀ event ∈ s.trace, event.announces = true → ∀ id, event.task? = some id → ∃ task, s.tasks id = some task ∧
    task.pc.phase = 2 ∧ event.Announces cfg id task.toJob
  once : ∀ id, s.trace.countP (Event.announcesOf id) ≤ 1

theorem Announced.goOn (h : Announced cfg s) (hgo : TasksGoOn s s')
    (htrace : s'.trace = s.trace ∨ ∃ event, s'.trace = s.trace ++ [event] ∧
      (event.announces = false ∨ event.task? = none)) : Announced cfg s' := by
  have hold : ∀ event ∈ s.trace, event.announces = true → ∀ id, event.task? = some id → ∃ task,
      s'.tasks id = some task ∧ task.pc.phase = 2 ∧ event.Announces cfg id task.toJob := by
    intro event hmem hannounces id hid
    obtain ⟨task, htask, hphase, hevent⟩ := h.own event hmem hannounces id hid
    obtain ⟨task', htask', hjob, hle, -⟩ := hgo id task htask
    have hbound := phase_le task'.pc
    exact ⟨task', htask', by omega, hjob ▸ hevent⟩
  rcases htrace with hsame | ⟨event, hevent, hsilent⟩
  · exact ⟨hsame ▸ hold, hsame ▸ h.once⟩
  · refine ⟨fun other hmem hannounces id hid => ?_, fun id => ?_⟩
    · rw [hevent, List.mem_append, List.mem_singleton] at hmem
      rcases hmem with hmem | rfl
      · exact hold other hmem hannounces id hid
      · rcases hsilent with hsilent | hsilent
        · rw [hsilent] at hannounces
          cases hannounces
        · rw [hsilent] at hid
          cases hid
    · have hzero : Event.announcesOf id event = false := by
        unfold Event.announcesOf
        rcases hsilent with hsilent | hsilent <;> simp [hsilent]
      rw [hevent, List.countP_append, List.countP_singleton, hzero]
      exact h.once id

theorem task?_of_announces {event : Event} {job : Job} (h : event.Announces cfg id job) : event.task? = some id := by
  obtain ⟨now, state, fields, ok, rfl⟩ := h
  rfl

theorem Announced.advance (h : Announced cfg s) (htask : s.tasks id = some task)
    (hstep : advance cfg s id task world = some (s', pc)) : Announced cfg (s'.setTask id { task with pc }) := by
  have honward := advance_onward hstep
  have hkeep : task.pc.phase = 2 → task.pc.unsettled? = none → pc.unsettled? = none := by
    intro hphase hnone
    cases advance_moved hstep with
    | same _ _ place => exact place hphase hnone
    | merged _ _ before _ _ _ => rw [before] at hphase; cases hphase
    | reserved _ _ before _ _ _ => omega
    | released _ _ _ _ place _ _ _ => rw [hnone] at place; cases place
  have hgo : TasksGoOn s (s'.setTask id { task with pc }) := .set (advance_frame hstep).tasks htask honward.le hkeep
  rcases honward.trace with hsame | ⟨event, hevent, hby⟩
  · exact h.goOn hgo (.inl hsame)
  · cases hannounces : event.announces with
    | false => exact h.goOn hgo (.inr ⟨event, hevent, .inl hannounces⟩)
    | true =>
      obtain ⟨hrecord, hbefore, hafter⟩ := hby hannounces
      have hid := task?_of_announces hrecord
      have hsame : Announced cfg { s'.setTask id { task with pc } with trace := s.trace } := h.goOn hgo (.inl rfl)
      refine ⟨fun other hmem hother who hwho => ?_, fun who => ?_⟩
      · change other ∈ s'.trace at hmem
        rw [hevent, List.mem_append, List.mem_singleton] at hmem
        rcases hmem with hmem | rfl
        · exact hsame.own other hmem hother who hwho
        · obtain rfl := Option.some.inj (hid.symm.trans hwho)
          exact ⟨_, Function.update_self .., hafter, hrecord⟩
      · show s'.trace.countP _ ≤ 1
        rw [hevent, List.countP_append, List.countP_singleton]
        by_cases hwho : who = id
        · -- The task had not come past its announcement, so this is the first.
          have hnone : s.trace.countP (Event.announcesOf who) = 0 := by
            refine List.countP_eq_zero.mpr fun other hmem hother => ?_
            rw [Event.announcesOf, Bool.and_eq_true, decide_eq_true_eq] at hother
            obtain ⟨other', hother', hphase, -⟩ := h.own other hmem hother.1 who hother.2
            rw [hwho, htask] at hother'
            obtain rfl := Option.some.inj hother'
            omega
          rw [hnone]
          split_ifs <;> omega
        · have hother : Event.announcesOf who event = false := by
            simp [Event.announcesOf, hid, Ne.symm hwho]
          rw [hother]
          exact h.once who

theorem Announced.step (h : Announced cfg s) (hgated : Gated cfg s) (hstep : s.step cfg a = some s') : Announced cfg s' := by
  cases serviceStep_of_step hstep with
  | submit caller receiver submission instant =>
    rcases submit_cases cfg s caller receiver submission instant with ⟨writes, hs⟩ | ⟨writes, hs⟩
    · rw [hs]
      exact h.goOn (.of_eq rfl) (.inl rfl)
    · rw [hs]
      refine h.goOn (fun other task htask => ⟨task, ?_, rfl, le_rfl, fun _ h => h⟩) (.inl rfl)
      have hne : other ≠ s.operations.nextId + 1 := (Nat.lt_succ_of_le (hgated.task other task htask)).ne
      exact (Function.update_of_ne hne ..).trans htask
  | advance id world task next pc htask hadvance =>
    have hnext := h.advance htask hadvance
    split_ifs
    · exact hnext.goOn (.of_eq rfl) (.inl rfl)
    · exact hnext
  | panic id task freed htask => exact h.goOn (TasksGoOn.set rfl htask (phase_le _) fun _ _ => rfl) (.inl rfl)
  | cancelled | loadPolicy => exact h.goOn (.of_eq rfl) (.inr ⟨_, rfl, .inl rfl⟩)
  | noteElsewhere => exact h.goOn (.of_eq rfl) (.inr ⟨_, rfl, .inr rfl⟩)
  | uncancelled | chargeDryRun | shutdown | rebuildElsewhere | takenIn | unread => exact h.goOn (.of_eq rfl) (.inl rfl)

theorem announced_of_reachable (h : (gate cfg).Reachable s) : Announced cfg s := by
  refine Machine.Reachable.invariant (I := Announced cfg) (fun s hinit => ?_)
    (fun s a s' hs hi hstep => hi.step (gated_of_reachable hs) hstep) h
  obtain rfl : s = {} := hinit
  exact ⟨fun _ hmem => (by cases hmem), fun _ => Nat.zero_le _⟩

/-- A log that holds what the service appended gives that back: no announcement more than was made. -/
theorem GivesBack.of_written (h : (gate cfg).Reachable s)
    (hread : (records.filter fun record => decide (record.run = cfg.run) && record.event.isDispatching).Subperm
      s.written)
    (hnoted : ∀ record ∈ s.written, record.event.isDispatching = true → record.operation ≠ none) :
    GivesBack cfg s records := by
  have hannounced := announced_of_reachable h
  refine ⟨fun record hrecord hrun hdispatching => ?_, fun id => ?_⟩
  · have hwritten := hread.subset (List.mem_filter.mpr ⟨hrecord, by simp [hrun, hdispatching]⟩)
    obtain ⟨event, hevent, heq⟩ := List.mem_filterMap.mp hwritten
    obtain ⟨id, hid⟩ := Option.ne_none_iff_exists'.mp (hnoted record hwritten hdispatching)
    cases event with
    | appended other ok =>
      obtain rfl := Option.some.inj heq
      obtain ⟨task, htask, hphase, now, state, fields, ok', happended⟩ :=
        hannounced.own _ hevent hdispatching id hid
      exact ⟨id, task, now, state, fields, htask, by omega, (Event.appended.inj happended).1⟩
    | _ => cases heq
  · have hcount : records.countP (AuditRecord.announces ⟨cfg.run, id⟩) =
        (records.filter fun record => decide (record.run = cfg.run) && record.event.isDispatching).countP
          (AuditRecord.announces ⟨cfg.run, id⟩) := by
      rw [List.countP_filter]
      refine List.countP_congr fun record _ => ?_
      simp only [AuditRecord.announces, Bool.and_eq_true, decide_eq_true_eq]
      refine ⟨fun h => ⟨h, ?_, h.1⟩, fun h => h.1⟩
      obtain ⟨_, -, heq⟩ := Option.map_eq_some_iff.mp h.2
      exact (OpKey.mk.inj heq).1
    rw [hcount]
    refine (hread.countP_le _).trans (le_trans ?_ (hannounced.once id))
    rw [Service.written, List.countP_filterMap]
    refine List.countP_mono_left fun event _ hevent => ?_
    cases event with
    | appended record ok =>
      simp only [Option.map_some, Option.getD_some, AuditRecord.announces, Bool.and_eq_true, decide_eq_true_eq] at hevent
      obtain ⟨operation, hoperation, heq⟩ := Option.map_eq_some_iff.mp hevent.2
      obtain rfl := (OpKey.mk.inj heq).2
      simp [Event.announcesOf, Event.announces, hevent.1, Event.task?, hoperation]
    | _ => cases hevent

/-- What a step does to the books: a task's step does what that does, a merge takes in what was read, and nothing else
changes them. -/
theorem step_books (hstep : s.step cfg a = some s') :
    (∃ id task world next pc, advance cfg s id task world = some (next, pc) ∧ s'.books = next.books ∧
      s'.rebuilding = next.rebuilding) ∨
    (s'.books.ready = true ∧ s'.rebuilding = none) ∨
    (s'.books = s.books ∧ (s'.rebuilding.isSome = true → s.rebuilding.isSome = true ∨ s.books.ready = false)) := by
  cases serviceStep_of_step hstep with
  | submit caller receiver submission instant =>
    rcases submit_cases cfg s caller receiver submission instant with ⟨writes, hs⟩ | ⟨writes, hs⟩ <;>
      · rw [hs]
        exact .inr (.inr ⟨rfl, .inl⟩)
  | advance id world task next pc htask hadvance =>
    refine .inl ⟨id, task, world, next, pc, hadvance, ?_⟩
    split_ifs <;> exact ⟨rfl, rfl⟩
  | panic id task freed htask hlives hfreed =>
    refine .inr (.inr ⟨rfl, fun hheld => .inl ?_⟩)
    change freed.isSome = true at hheld
    rw [hfreed] at hheld
    split_ifs at hheld
    · cases hheld
    · exact hheld
  | cancelled | uncancelled | loadPolicy | noteElsewhere | chargeDryRun | shutdown => exact .inr (.inr ⟨rfl, .inl⟩)
  | rebuildElsewhere time hfree hready => exact .inr (.inr ⟨rfl, fun _ => .inr hready⟩)
  | takenIn => exact .inr (.inl ⟨rfl, rfl⟩)
  | unread => exact .inr (.inr ⟨rfl, fun hheld => by cases hheld⟩)

/-- A ledger that is ready stays so. -/
theorem step_ready (hready : s.books.ready = true) (hstep : s.step cfg a = some s') : s'.books.ready = true := by
  rcases step_books hstep with ⟨id, task, world, next, pc, hadvance, hbooks, -⟩ | ⟨hmerged, -⟩ | ⟨hbooks, -⟩
  · rw [hbooks]
    exact (advance_ledger hadvance).ready hready
  · exact hmerged
  · rw [hbooks]
    exact hready

/-- Who holds the lock finds the ledger not ready. -/
theorem unready_of_rebuilding (h : (gate cfg).Reachable s) (hheld : s.rebuilding.isSome = true) :
    s.books.ready = false := by
  refine Machine.Reachable.invariant (I := fun s : Service => s.rebuilding.isSome = true → s.books.ready = false)
    (fun s hinit => ?_) (fun s a s' _ hi hstep => ?_) h hheld
  · obtain rfl : s = {} := hinit
    exact fun hheld => by cases hheld
  · rcases step_books hstep with ⟨id, task, world, next, pc, hadvance, hbooks, hlock⟩ | ⟨-, hlock⟩ | ⟨hbooks, hlock⟩
    · rw [hbooks, hlock]
      exact (advance_ledger hadvance).lock hi
    · rw [hlock]
      exact fun hheld => by cases hheld
    · rw [hbooks]
      exact fun hheld => (hlock hheld).elim hi fun h => h

/-- Before the ledger is ready nothing has been merged, so that nothing depends on how a log is read. -/
theorem reachableBy_of_unready (h : (watched cfg).Reachable w) (hunready : w.service.books.ready = false) :
    (watched cfg).ReachableBy (ReadsEnds cfg) w := by
  induction h with
  | init hinit => exact .init hinit
  | @step w w' a _ _ hstep ih =>
    obtain ⟨hstep', -⟩ := step_watched hstep
    have hbefore : w.service.books.ready = false := by
      refine Bool.eq_false_iff.mpr fun hready => ?_
      rw [step_ready hready hstep'] at hunready
      cases hunready
    refine .step (ih hbefore) (fun records now hmerge => ?_) hstep
    rw [(step_merged hmerge hstep').2.2.1] at hunready
    cases hunready

/-- **A late rebuild counts every change once**, exactly if the log as read holds the end of each operation that was
settled as undispatched and whose announcement it holds. In a run whose merges all read that, no change of the run is
counted twice in any state, and none that was settled as undispatched is counted. -/
theorem mergedOnce_iff (cfg : Settings) :
    (∀ (w w' : Watched) (a : Action) (records : List AuditRecord) (now : WallTime), (watched cfg).Reachable w →
      mergedBy w.service a = some (records, now) → (watched cfg).step w a = some w' →
      GivesBack cfg w.service records →
        (MergedOnce cfg w.service.books.ledger w'.service.books.ledger (Ledger.rebuild records now) w.released ↔
          EndsRead w.released records now)) ∧
    ∀ w : Watched, (watched cfg).ReachableBy (ReadsEnds cfg) w →
      (∀ key, key.run = cfg.run → w.service.books.ledger.entries.countP (fun e => e.key == key) ≤ 1) ∧
        ∀ key ∈ w.released, ∀ entry ∈ w.service.books.ledger.entries, entry.key ≠ key := by
  refine ⟨fun w w' a records now hw hmerge hstep hread => ?_, fun w hw => ?_⟩
  · obtain ⟨hheld, -, hbooks, -⟩ := step_merged hmerge (step_watched hstep).1
    have hunready := unready_of_rebuilding (reachable_service hw) hheld
    have htracked := tracked_of_reachable (reachableBy_of_unready hw hunready)
    rw [hbooks]
    refine ⟨fun hmerged => (htracked.gone_merge_iff hread).mp hmerged.gone, fun hends => ⟨fun entry hmem => ?_,
      fun key hrun => ?_, (htracked.gone_merge_iff hread).mpr hends⟩⟩
    · exact htracked.countP_merge_live hunready hread hmem
    · exact htracked.filter_merge hunready hrun
  · have htracked := tracked_of_reachable hw
    exact ⟨htracked.once, htracked.gone⟩

end Watched

/-! ### A read between the settlement and the record of the end -/

/-- The Operator's rise, which the session refuses. -/
def refusedWorld : World :=
  { quietWorld with outcome := .rejectedBeforeDispatch 1 .commandRefused "the receiver refused the command" }

/-- The log is being read while the rise is made, and its place is settled. -/
def refusedRise : List Action :=
  [.rebuildElsewhere 3600000, .submit .operator den { intent := smallRise } 0] ++
    List.replicate 8 (.advance 1 refusedWorld)

def settledRise : Watched := ((watched gateSettings).exec {} refusedRise).get (by decide)

def announcedRise : AuditRecord :=
  { run := 3600000, time := 3600000, operation := some 1, principal := some .operator, receiver := some den
    event := dispatchingEvent smallRise (showing minus40) [] }

def mergedRise : Watched :=
  ((watched gateSettings).step settledRise (.readElsewhere (some [announcedRise]))).get (by decide)

/-- The record of the end is written as well, and the log that is read has it. -/
def endedActions : List Action := refusedRise ++ List.replicate 2 (.advance 1 refusedWorld)

def endedRise : Watched := ((watched gateSettings).exec {} endedActions).get (by decide)

def wholeMerge : Watched :=
  ((watched gateSettings).step endedRise (.readElsewhere (some endedRise.service.written))).get (by decide)

theorem mergedOnce_iff_endedRise : endedRise.released = [⟨3600000, 1⟩] ∧ endedRise.service.written.length = 3 ∧
    MergedOnce gateSettings endedRise.service.books.ledger wholeMerge.service.books.ledger
      (Ledger.rebuild endedRise.service.written 3600000) endedRise.released := by
  have hreached : (watched gateSettings).Reachable endedRise :=
    Machine.reachable_of_exec ({} : Watched) endedActions rfl (Option.some_get _).symm
  have hread : GivesBack gateSettings endedRise.service endedRise.service.written :=
    .of_written (reachable_service hreached) List.filter_sublist.subperm (by decide)
  have hends : EndsRead endedRise.released endedRise.service.written 3600000 := by
    unfold EndsRead
    decide
  exact ⟨by decide, by decide, ((mergedOnce_iff gateSettings).1 endedRise wholeMerge
    (.readElsewhere (some endedRise.service.written)) endedRise.service.written 3600000 hreached (by decide)
    (Option.some_get _).symm hread).mpr hends⟩

/-- What was settled as undispatched is counted again when its announcement is read before its end is written. -/
theorem not_mergedOnce :
    ∃ cfg w w' a records now, (watched cfg).Reachable w ∧ mergedBy w.service a = some (records, now) ∧
      (watched cfg).step w a = some w' ∧ GivesBack cfg w.service records ∧
        ¬ MergedOnce cfg w.service.books.ledger w'.service.books.ledger (Ledger.rebuild records now) w.released := by
  refine ⟨gateSettings, settledRise, mergedRise, .readElsewhere (some [announcedRise]), [announcedRise], 3600000,
    Machine.reachable_of_exec ({} : Watched) refusedRise rfl (Option.some_get _).symm, by decide, (Option.some_get _).symm,
    ⟨fun record hrecord _ _ => ?_, fun id => List.countP_le_length⟩, fun hmerged => ?_⟩
  · obtain rfl := List.mem_singleton.mp hrecord
    exact ⟨1, (settledRise.service.tasks 1).get (by decide), 3600000, showing minus40, [],
      (Option.some_get _).symm, by decide, by decide⟩
  · exact hmerged.gone ⟨3600000, 1⟩ (by decide) ⟨den, ⟨3600000, 1⟩, ⟨3600000, some ⟨-80, by decide⟩, ⟨-74, by decide⟩⟩⟩
      (by decide) rfl

end DenonAvr.Application
