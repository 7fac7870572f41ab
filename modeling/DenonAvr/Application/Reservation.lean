import DenonAvr.Application.WriteGate

/-!
# Reservations

The ledger and the outcome of an agent's volume change agree. From the judgement that allows it to its settlement
the change is in the ledger, and when its task has ended it is there exactly if the session reported that something
may have been written, in both cases unless it has been dropped for its age (`ledger_agrees`). What a step of a task
adds to the ledger is its own, and it takes nothing else out of it but what is older than the retention; the one
exception is the rebuild that the first agent's request waits for.

A panic ends a task without settling its place, so the runs here have none.
-/

namespace DenonAvr.Application

open Domain Library Policy Session

/-! ### What a step does to the ledger -/

/-- The judgement that allows a request. -/
def Event.allows : Event → Bool
  | .judged _ _ _ (.allowed _ _ _) => true
  | _ => false

/-- The places of an agent's task from which the ledger is ready. -/
def Pc.pastLedger : Pc → Bool
  | .leasing | .deciding | .judging _ => true
  | _ => false

/-- What a step of the operation's task, to `pc`, does to the ledger. -/
inductive LedgerStep (cfg : Settings) (id : OperationId) (task : Task) (w : World) (s s' : Service) (pc : Pc) : Prop
  /-- The place stays unsettled, or settled, and nothing about it is said. -/
  | same (books : s'.books = s.books) (aged : s'.aged = s.aged) (place : pc.unsettled? = task.pc.unsettled?)
      (trace : s'.trace = s.trace ∨ ∃ event, s'.trace = s.trace ++ [event] ∧ event.allows = false ∧
        (task.pc.unsettled? = none → event.ofSession = false))
      (lock : s'.rebuilding.isSome = true → s.rebuilding.isSome = true ∨ s.books.ready = false)
      (passed : pc.pastLedger = true → task.pc.pastLedger = true ∨ s.books.ready = true)
  | rebuilt (records : List AuditRecord) (now : WallTime) (before : task.pc = .readingLog)
      (held : s.rebuilding = some (some id, now)) (log : w.log = some records) (after : pc = .leasing)
      (state : s' = s.takeIn records now)
  | reserved (before : (∃ policy, task.pc = .judging policy) ∨ task.pc = .reserving)
      (after : pc.unsettled? = some (task.place cfg id))
      (books : s'.books = (s.books.reserve cfg.run w.now task.receiver task.intent w.state id).1)
      (aged : s'.aged = s.aged ++ s.outdated w.now) (lock : s'.rebuilding = s.rebuilding)
      (trace : s'.trace = s.trace ∨ ∃ policy input judged, s'.trace = s.trace ++ [.judged id policy input judged] ∧
        input.now = w.now ∧ input.state = w.state)
  | released (settlement : Settlement)
      (before : (∃ resolution, task.pc = .releasing settlement resolution) ∨ task.pc = .withdrawing settlement)
      (after : pc.unsettled? = none) (past : pc.pastLedger = false) (state : s' = s.settle settlement false)
  | settled (settlement : Settlement) (resolution : Resolution) (shown : Option String)
      (before : task.pc = .settling settlement resolution shown) (after : pc.unsettled? = none)
      (past : pc.pastLedger = false) (state : s' = s.settle settlement (resolution.dispatch ≠ .notDispatched))

section LedgerStep
variable {cfg : Settings} {s s' : Service} {id : OperationId} {task : Task} {w : World} {pc : Pc}

theorem LedgerStep.silent (hbooks : s'.books = s.books) (haged : s'.aged = s.aged)
    (hplace : pc.unsettled? = task.pc.unsettled?) (htrace : s'.trace = s.trace)
    (hlock : s'.rebuilding.isSome = true → s.rebuilding.isSome = true) (hpast : pc.pastLedger = false) :
    LedgerStep cfg id task w s s' pc :=
  .same hbooks haged hplace (.inl htrace) (fun h => .inl (hlock h)) fun h => by rw [hpast] at h; cases h

theorem LedgerStep.event {event : Event} (hbooks : s'.books = s.books) (haged : s'.aged = s.aged)
    (hplace : pc.unsettled? = task.pc.unsettled?) (htrace : s'.trace = s.trace ++ [event])
    (hallows : event.allows = false) (hlock : s'.rebuilding = s.rebuilding)
    (hpast : pc.pastLedger = true → task.pc.pastLedger = true)
    (hsession : task.pc.unsettled? = none → event.ofSession = false) : LedgerStep cfg id task w s s' pc :=
  .same hbooks haged hplace (.inr ⟨event, htrace, hallows, hsession⟩) (fun h => .inl (hlock ▸ h)) fun h =>
    .inl (hpast h)

theorem LedgerStep.judge {policy : ActivePolicy} (hpc : task.pc = .judging policy) (label : AgentLabel) :
    LedgerStep cfg id task w s (judgeStep cfg s id task.toJob label policy w).1
      (judgeStep cfg s id task.toJob label policy w).2 := by
  unfold judgeStep
  dsimp only
  split
  · rename_i hjudged
    exact .event rfl rfl (by rw [hpc]; rfl) rfl (by rw [hjudged]; rfl) rfl (by simp [Pc.pastLedger]) fun _ => rfl
  · rename_i hjudged
    exact .event rfl rfl (by rw [hpc]; rfl) rfl (by rw [hjudged]; rfl) rfl (by simp [Pc.pastLedger]) fun _ => rfl
  · rename_i decision precondition settlement hjudged
    obtain ⟨baseline, -, hallow, hcapture, hsettlement⟩ := judge_allowed_iff.mp hjudged
    refine .reserved (.inl ⟨policy, hpc⟩) (congrArg some ?_) ?_ rfl rfl (.inr ⟨_, _, _, rfl, rfl, rfl⟩)
    · exact hsettlement.trans (reserve_place s.books w.now w.state)
    · dsimp only [Books.judge, Books.evaluateIn]
      rw [hallow]
      dsimp only
      rw [hcapture]

theorem advance_ledger (h : advance cfg s id task w = some (s', pc)) : LedgerStep cfg id task w s s' pc := by
  cases advanceStep_of_advance h with
  | precheck hpc =>
    split_ifs <;> exact .silent rfl rfl (by rw [hpc]; rfl) rfl (fun h => h) rfl
  | ledger hpc =>
    split_ifs with hready
    · exact .same rfl rfl (by rw [hpc]; rfl) (.inl rfl) .inl fun _ => .inr hready
    · exact .silent rfl rfl (by rw [hpc]; rfl) rfl (fun h => h) rfl
  | caughtUp hpc hfree hready => exact .same rfl rfl (by rw [hpc]; rfl) (.inl rfl) .inl fun _ => .inr hready
  | rebuilding hpc hfree hready =>
    exact .same rfl rfl (by rw [hpc]; rfl) (.inl rfl) (fun _ => .inr hready) fun h => by cases h
  | takenIn records now hpc hheld hlog => exact .rebuilt records now hpc hheld hlog rfl rfl
  | unread now hpc => exact .silent rfl rfl (by rw [hpc]; rfl) rfl (fun h => by cases h) rfl
  | leased label hpc => exact .same rfl rfl (by rw [hpc]; rfl) (.inl rfl) .inl fun _ => .inl (by rw [hpc]; rfl)
  | due resolution hpc => exact .silent rfl rfl (by rw [hpc]; rfl) rfl (fun h => h) rfl
  | refusing resolution hpc | skipped resolution hpc | reviewing resolution hpc | closing resolution hpc =>
    exact .silent rfl rfl (by rw [hpc]; rfl) rfl (fun h => h) rfl
  | leasedOperator hpc => exact .silent rfl rfl (by rw [hpc]; rfl) rfl (fun h => h) rfl
  | unreached label error hpc => exact .silent rfl rfl (by rw [hpc]; rfl) rfl (fun h => h) rfl
  | unreachedOperator error hpc | undecided error hpc =>
    exact .silent rfl rfl (by rw [hpc]; rfl) rfl (fun h => h) rfl
  | allowed grant operations hpc => exact .silent rfl rfl (by rw [hpc]; rfl) rfl (fun h => h) rfl
  | overtaken grant hpc => exact .silent rfl rfl (by rw [hpc]; rfl) rfl (fun h => h) rfl
  | checking grant hpc => split_ifs <;> exact .silent rfl rfl (by rw [hpc]; rfl) rfl (fun h => h) rfl
  | unnoted state settlement hpc => exact .silent rfl rfl (by rw [hpc]; rfl) rfl (fun h => h) rfl
  | barred precondition settlement hpc => exact .silent rfl rfl (by rw [hpc]; rfl) rfl (fun h => h) rfl
  | finished resolution shown operations hpc => exact .silent rfl rfl (by rw [hpc]; rfl) rfl (fun h => h) rfl
  | late resolution shown hpc => exact .silent rfl rfl (by rw [hpc]; rfl) rfl (fun h => h) rfl
  | deciding policy hpc =>
    exact .event rfl rfl (by rw [hpc]; rfl) rfl rfl rfl (fun _ => by rw [hpc]; rfl) fun _ => rfl
  | judging policy label hpc => exact .judge hpc label
  | recordingRefusal decision digest resolution hpc =>
    exact .event rfl rfl (by rw [hpc]; rfl) rfl rfl rfl (fun h => by cases h) fun _ => rfl
  | recordingDecided grant hpc | recordingDispatching grant hpc =>
    split_ifs <;> exact .event rfl rfl (by rw [hpc]; rfl) rfl rfl rfl (fun h => by cases h) fun _ => rfl
  | notingDecided state settlement hpc =>
    split_ifs <;> exact .event rfl rfl (by rw [hpc]; rfl) rfl rfl rfl (fun h => by cases h) fun _ => rfl
  | notingDispatching state settlement hpc =>
    exact .event rfl rfl (by rw [hpc]; rfl) rfl rfl rfl (fun h => by cases h) fun _ => rfl
  | begun precondition settlement operations hpc =>
    exact .event rfl rfl (by rw [hpc]; rfl) rfl rfl rfl (fun h => by cases h) fun _ => rfl
  | recording resolution hpc =>
    exact .event rfl rfl (by rw [hpc]; rfl) rfl rfl rfl (fun h => by cases h) fun _ => rfl
  | calling precondition settlement hpc =>
    exact .event rfl rfl (by rw [hpc]; rfl) rfl rfl rfl (fun h => by cases h) fun hnone => by
      rw [hpc] at hnone
      cases hnone
  | inSession settlement shown hpc =>
    exact .event rfl rfl (by rw [hpc]; rfl) rfl rfl rfl (fun h => by cases h) fun hnone => by
      rw [hpc] at hnone
      cases hnone
  | reserving hpc =>
    exact .reserved (.inr hpc) (congrArg some (reserve_place s.books w.now w.state)) rfl rfl rfl (.inl rfl)
  | releasing settlement resolution hpc => exact .released settlement (.inl ⟨resolution, hpc⟩) rfl rfl rfl
  | withdrawing settlement hpc => exact .released settlement (.inr hpc) rfl rfl rfl
  | settling settlement resolution shown hpc => exact .settled settlement resolution shown hpc rfl rfl rfl

/-- What is in the books after a reservation. -/
theorem mem_reserved {books : Books} {now : WallTime} {receiver : ReceiverId} {intent : ReceiverIntent}
    {state : ReceiverState} {entry : LedgerEntry} :
    entry ∈ (books.reserve cfg.run now receiver intent state id).1.ledger.entries ↔
      entry ∈ (books.ledger.prune now).entries ∨
        ∃ change, Books.changeOf now intent state = some change ∧ entry = ⟨receiver, ⟨cfg.run, id⟩, change⟩ := by
  unfold Books.reserve
  cases hchange : Books.changeOf now intent state with
  | none => simp
  | some change =>
    dsimp only
    rw [Ledger.mem_reserve]
    simp

theorem ready_reserve (books : Books) (now : WallTime) (receiver : ReceiverId) (intent : ReceiverIntent)
    (state : ReceiverState) : (books.reserve cfg.run now receiver intent state id).1.ready = books.ready := by
  unfold Books.reserve
  cases Books.changeOf now intent state <;> rfl

theorem ready_settle (books : Books) (settlement : Settlement) (dispatched : Bool) :
    (books.settle settlement dispatched).ready = books.ready := by
  unfold Books.settle
  cases settlement.key <;> rfl

theorem mem_of_mem_settled {books : Books} {settlement : Settlement} {dispatched : Bool} {entry : LedgerEntry}
    (h : entry ∈ (books.settle settlement dispatched).ledger.entries) : entry ∈ books.ledger.entries := by
  unfold Books.settle at h
  cases hkey : settlement.key with
  | none => rwa [hkey] at h
  | some key =>
    rw [hkey] at h
    exact Ledger.mem_of_mem_settle h

/-- A settlement leaves the changes under the other keys. -/
theorem mem_settled_of_ne {books : Books} {settlement : Settlement} {dispatched : Bool} {entry : LedgerEntry}
    (h : entry ∈ books.ledger.entries) (hne : settlement.key ≠ some entry.key) :
    entry ∈ (books.settle settlement dispatched).ledger.entries := by
  unfold Books.settle
  cases hkey : settlement.key with
  | none => exact h
  | some key =>
    cases dispatched with
    | true => exact h
    | false =>
      refine Ledger.mem_settle_false.mpr ⟨h, fun heq => hne ?_⟩
      rw [hkey, heq.2]

/-- A place of a volume change that is settled as not dispatched is empty. -/
theorem not_mem_settled {books : Books} {receiver : ReceiverId} {key : OpKey} {entry : LedgerEntry}
    (h : entry ∈ (books.settle ⟨receiver, some key⟩ false).ledger.entries) :
    ¬ (entry.receiver = receiver ∧ entry.key = key) :=
  (Ledger.mem_settle_false.mp h).2

theorem retained_iff {now time : WallTime} : now.saturatingSub retention ≤ time ↔ ¬ time + retention < now := by
  unfold WallTime.saturatingSub
  rw [not_lt]
  exact Nat.sub_le_iff_le_add

/-- A reservation drops what is too old, -/
theorem not_mem_reserved {books : Books} {now : WallTime} {receiver : ReceiverId} {intent : ReceiverIntent}
    {state : ReceiverState} {entry : LedgerEntry} (hage : entry.change.time + retention < now) :
    entry ∉ (books.reserve cfg.run now receiver intent state id).1.ledger.entries := by
  intro hmem
  rcases mem_reserved.mp hmem with hyoung | ⟨change, hchange, rfl⟩
  · exact retained_iff.mp (Ledger.mem_prune.mp hyoung).2 hage
  · obtain ⟨target, -, rfl⟩ := Option.map_eq_some_iff.mp hchange
    exact absurd hage (Nat.not_lt.mpr (Nat.le_add_right _ _))

/-- and nothing else. -/
theorem mem_reserved_or_old {books : Books} {now : WallTime} {receiver : ReceiverId} {intent : ReceiverIntent}
    {state : ReceiverState} {entry : LedgerEntry} (hmem : entry ∈ books.ledger.entries) :
    entry ∈ (books.reserve cfg.run now receiver intent state id).1.ledger.entries ∨
      entry.change.time + retention < now := by
  by_cases hage : entry.change.time + retention < now
  · exact .inr hage
  · exact .inl (mem_reserved.mpr (.inl (Ledger.mem_prune.mpr ⟨hmem, retained_iff.mpr hage⟩)))

/-- A settlement of the task's own place leaves the changes under the other keys. -/
theorem Proper.place_key (h : Proper cfg id task.toJob task.pc) {entry : LedgerEntry} (hkey : entry.key ≠ ⟨cfg.run, id⟩)
    {settlement : Settlement} (hplace : task.pc.unsettled? = some settlement) : settlement.key ≠ some entry.key := by
  rw [h.place settlement hplace]
  unfold Job.place
  cases targetOf task.intent with
  | none => simp
  | some target => simpa using Ne.symm hkey

/-- **What a step takes out of the ledger** is its own change, and what a reservation finds too old. The rebuild takes no
key out. -/
theorem LedgerStep.removed (h : LedgerStep cfg id task w s s' pc) (hproper : Proper cfg id task.toJob task.pc)
    {entry : LedgerEntry} (hmem : entry ∈ s.books.ledger.entries) (hkey : entry.key ≠ ⟨cfg.run, id⟩)
    (hgone : entry ∉ s'.books.ledger.entries) :
    ((∃ policy, task.pc = .judging policy) ∨ task.pc = .reserving) ∧ entry.change.time + retention < w.now ∧
        entry ∈ s'.aged ∨
      task.pc = .readingLog ∧ s.rebuilding.isSome = true ∧
        ∃ e ∈ s'.books.ledger.entries, e.receiver = entry.receiver ∧ e.key = entry.key := by
  cases h with
  | same books _ _ _ _ _ => exact absurd (by rw [books]; exact hmem) hgone
  | rebuilt records now before held log after state =>
    subst state
    exact .inr ⟨before, by rw [held]; rfl, Ledger.key_mem_merge_right hmem⟩
  | reserved before _ books aged _ _ =>
    rw [books] at hgone
    have hold := (mem_reserved_or_old hmem).resolve_left hgone
    refine .inl ⟨before, hold, ?_⟩
    rw [aged]
    refine List.mem_append_right _ (List.mem_filter.mpr ⟨hmem, ?_⟩)
    rw [decide_eq_false fun hle => retained_iff.mp hle hold]
    rfl
  | released settlement before _ _ state =>
    subst state
    refine absurd (mem_settled_of_ne hmem (hproper.place_key hkey ?_)) hgone
    rcases before with ⟨resolution, hpc⟩ | hpc <;> rw [hpc] <;> rfl
  | settled settlement resolution shown before _ _ state =>
    subst state
    exact absurd (mem_settled_of_ne hmem (hproper.place_key hkey (by rw [before]; rfl))) hgone

/-- **What a step puts into the ledger** is its own change, and what the rebuild finds in the log. -/
theorem LedgerStep.added (h : LedgerStep cfg id task w s s' pc) {entry : LedgerEntry}
    (hmem : entry ∈ s'.books.ledger.entries) (hnew : entry ∉ s.books.ledger.entries) :
    entry.key = ⟨cfg.run, id⟩ ∨ ∃ records now, task.pc = .readingLog ∧ s.rebuilding = some (some id, now) ∧
      w.log = some records ∧ entry ∈ (Ledger.rebuild records now).entries := by
  cases h with
  | same books _ _ _ _ _ => exact absurd (by rw [← books]; exact hmem) hnew
  | rebuilt records now before held log after state =>
    subst state
    exact .inr ⟨records, now, before, held, log, (Ledger.mem_merge hmem).resolve_right hnew⟩
  | reserved _ _ books _ _ _ =>
    rw [books] at hmem
    rcases mem_reserved.mp hmem with hmem | ⟨change, -, rfl⟩
    · exact absurd (Ledger.mem_prune.mp hmem).1 hnew
    · exact .inl rfl
  | released settlement _ _ _ state | settled settlement _ _ _ _ _ state =>
    subst state
    exact absurd (mem_of_mem_settled hmem) hnew

/-- While the ledger is ready, another operation's change stays or is dropped for its age. -/
theorem LedgerStep.kept (h : LedgerStep cfg id task w s s' pc) (hproper : Proper cfg id task.toJob task.pc)
    (hlock : s.rebuilding = none) {entry : LedgerEntry} (hmem : entry ∈ s.books.ledger.entries)
    (hkey : entry.key ≠ ⟨cfg.run, id⟩) : entry ∈ s'.books.ledger.entries ∨ entry ∈ s'.aged := by
  by_cases hstays : entry ∈ s'.books.ledger.entries
  · exact .inl hstays
  · rcases h.removed hproper hmem hkey hstays with ⟨-, -, haged⟩ | ⟨-, hheld, -⟩
    · exact .inr haged
    · rw [hlock] at hheld
      cases hheld

theorem LedgerStep.aged (h : LedgerStep cfg id task w s s' pc) {entry : LedgerEntry} (hmem : entry ∈ s.aged) :
    entry ∈ s'.aged := by
  cases h with
  | same _ aged _ _ _ _ => rw [aged]; exact hmem
  | rebuilt _ _ _ _ _ _ state | released _ _ _ _ state | settled _ _ _ _ _ _ state => subst state; exact hmem
  | reserved _ _ _ aged _ _ => rw [aged]; exact List.mem_append_left _ hmem

theorem LedgerStep.ready (h : LedgerStep cfg id task w s s' pc) (hready : s.books.ready = true) :
    s'.books.ready = true := by
  cases h with
  | same books _ _ _ _ _ => rw [books]; exact hready
  | rebuilt _ _ _ _ _ _ state => subst state; rfl
  | reserved _ _ books _ _ _ => rw [books, ready_reserve]; exact hready
  | released _ _ _ _ state | settled _ _ _ _ _ _ state => subst state; exact (ready_settle _ _ _).trans hready

theorem unsettled?_of_pastLedger (h : pc.pastLedger = true) : pc.unsettled? = none := by
  cases pc with
  | leasing | deciding | judging _ => rfl
  | _ => cases h

theorem LedgerStep.passed (h : LedgerStep cfg id task w s s' pc) (hpast : pc.pastLedger = true) :
    task.pc.pastLedger = true ∨ s'.books.ready = true := by
  cases h with
  | same books _ _ _ _ passed => rw [books]; exact passed hpast
  | rebuilt _ _ _ _ _ _ state => subst state; exact .inr rfl
  | reserved _ after _ _ _ _ => rw [unsettled?_of_pastLedger hpast] at after; cases after
  | released _ _ _ past _ | settled _ _ _ _ _ past _ => rw [past] at hpast; cases hpast

/-- Who holds the lock finds the ledger not ready. -/
theorem LedgerStep.lock (h : LedgerStep cfg id task w s s' pc)
    (hlock : s.rebuilding.isSome = true → s.books.ready = false) :
    s'.rebuilding.isSome = true → s'.books.ready = false := by
  intro hheld
  cases h with
  | same books _ _ _ lock _ =>
    rw [books]
    exact (lock hheld).elim hlock fun h => h
  | rebuilt _ _ _ _ _ _ state => subst state; cases hheld
  | reserved _ _ books _ lock _ => rw [books, ready_reserve]; exact hlock (lock ▸ hheld)
  | released _ _ _ _ state | settled _ _ _ _ _ _ state => subst state; exact (ready_settle _ _ _).trans (hlock hheld)

end LedgerStep

/-! ### What the ledger holds for an operation -/

/-- The session has answered that something may have been written. -/
def Service.MayHaveWritten (s : Service) (id : OperationId) : Prop :=
  ∃ outcome, .answered id outcome ∈ s.trace ∧ (resolve outcome).dispatch ≠ .notDispatched

/-- The entry of a volume change, as of its judgement. -/
def Job.entry (job : Job) (cfg : Settings) (id : OperationId) (input : PolicyInput) (target : Level) : LedgerEntry :=
  ⟨job.receiver, ⟨cfg.run, id⟩, ⟨input.now, observedVolume input.state, target⟩⟩

/-- An allowed volume change, which is `entry`, is counted until it is settled, and after that exactly if it may have
been written. -/
structure Booked (cfg : Settings) (s : Service) (id : OperationId) (task : Task) (entry : LedgerEntry) : Prop where
  ready : s.books.ready = true
  unsettled : task.pc.unsettled? ≠ none → entry ∈ s.books.ledger.entries ∨ entry ∈ s.aged
  written : task.pc.unsettled? = none → s.MayHaveWritten id → entry ∈ s.books.ledger.entries ∨ entry ∈ s.aged
  released : task.pc.unsettled? = none → ¬ s.MayHaveWritten id →
    ∀ e ∈ s.books.ledger.entries, ¬ (e.receiver = task.receiver ∧ e.key = ⟨cfg.run, id⟩)

/-- The books in every run without a panic. -/
structure Reserved (cfg : Settings) (s : Service) : Prop where
  lock : s.rebuilding.isSome = true → s.books.ready = false
  passed : ∀ id task label, s.tasks id = some task → task.owner = .agent label → task.pc.pastLedger = true →
    s.books.ready = true
  booked : ∀ id task label, s.tasks id = some task → task.owner = .agent label →
    ∀ policy input decision precondition settlement target,
      .judged id policy input (.allowed decision precondition settlement) ∈ s.trace →
        targetOf task.intent = some target → Booked cfg s id task (task.entry cfg id input target)

section Reserved
variable {cfg : Settings} {s s' : Service} {id other : OperationId} {task task' : Task} {label : AgentLabel}
  {w : World} {pc : Pc} {entry : LedgerEntry}

/-- The books and the events of the operation are all that matters. -/
theorem Booked.transfer (h : Booked cfg s id task entry) (hbooks : s'.books = s.books) (haged : s'.aged = s.aged)
    (hplace : task'.pc.unsettled? = task.pc.unsettled?) (hreceiver : task'.receiver = task.receiver)
    (hwritten : task.pc.unsettled? = none → (s'.MayHaveWritten id ↔ s.MayHaveWritten id)) :
    Booked cfg s' id task' entry := by
  refine ⟨by rw [hbooks]; exact h.ready, fun hopen => ?_, fun hsettled hmay => ?_, fun hsettled hmay => ?_⟩
  · rw [hbooks, haged]
    exact h.unsettled (hplace ▸ hopen)
  · rw [hplace] at hsettled
    rw [hbooks, haged]
    exact h.written hsettled ((hwritten hsettled).mp hmay)
  · rw [hplace] at hsettled
    rw [hbooks, hreceiver]
    exact h.released hsettled fun hmay' => hmay ((hwritten hsettled).mpr hmay')

theorem Booked.step_of_ne (h : Booked cfg s other task' entry) (hkey : entry.key = ⟨cfg.run, other⟩) (hne : other ≠ id)
    (hlock : s.rebuilding.isSome = true → s.books.ready = false) (hproper : Proper cfg id task.toJob task.pc)
    (hledger : LedgerStep cfg id task w s s' pc) (hwritten : s'.MayHaveWritten other ↔ s.MayHaveWritten other) :
    Booked cfg s' other task' entry := by
  have hfree : s.rebuilding = none := by
    rw [← Option.not_isSome_iff_eq_none]
    intro hheld
    have hready := h.ready
    rw [hlock hheld] at hready
    cases hready
  have hkeep : entry ∈ s.books.ledger.entries ∨ entry ∈ s.aged →
      entry ∈ s'.books.ledger.entries ∨ entry ∈ s'.aged := by
    rintro (hmem | hmem)
    · refine hledger.kept hproper hfree hmem ?_
      rw [hkey]
      exact fun heq => hne (OpKey.mk.inj heq).2
    · exact .inr (hledger.aged hmem)
  refine ⟨hledger.ready h.ready, fun hopen => hkeep (h.unsettled hopen),
    fun hsettled hmay => hkeep (h.written hsettled (hwritten.mp hmay)), fun hsettled hmay e hmem hmine => ?_⟩
  by_cases hold : e ∈ s.books.ledger.entries
  · exact h.released hsettled (fun hmay' => hmay (hwritten.mpr hmay')) e hold hmine
  · rcases hledger.added hmem hold with hown | ⟨records, now, -, hheld, -⟩
    · exact hne (OpKey.mk.inj (hmine.2.symm.trans hown)).2
    · rw [hfree] at hheld
      cases hheld

/-- The one answer of a session. -/
theorem Resolved.answer {job : Job} {resolution : Resolution}
    (h : Resolved cfg id job label resolution (s.history id)) :
    s.MayHaveWritten id ↔ resolution.dispatch ≠ .notDispatched := by
  obtain ⟨outcome, rfl, precondition, cleared, hcleared, hhistory⟩ := h
  have hmem : .answered id outcome ∈ s.history id := by
    rw [hhistory]
    simp
  refine ⟨fun ⟨other, hother, hdispatch⟩ => ?_, fun hdispatch => ⟨outcome, (mem_history.mp hmem).1, hdispatch⟩⟩
  have hin : .answered id other ∈ s.history id := mem_history.mpr ⟨hother, rfl⟩
  rw [hhistory, List.mem_append] at hin
  rcases hin with hin | hin
  · exact absurd (hcleared.uncalled _ hin) (by simp [Event.ofSession])
  · simp only [List.mem_cons, reduceCtorEq, Event.answered.injEq, true_and, List.not_mem_nil, or_false,
      false_or] at hin
    exact hin ▸ hdispatch

theorem Uncalled.not_mayHaveWritten (h : Uncalled (s.history id)) : ¬ s.MayHaveWritten id := by
  rintro ⟨outcome, hmem, -⟩
  cases h _ (mem_history.mpr ⟨hmem, rfl⟩)

theorem Booked.settle (h : Booked cfg s id task entry) {target : Level} (htarget : targetOf task.intent = some target)
    (hopen : task.pc.unsettled? ≠ none) {settlement : Settlement} (hplace : settlement = task.place cfg id)
    {dispatched : Bool} (hdispatched : s.MayHaveWritten id ↔ dispatched = true)
    (hsettled : pc.unsettled? = none) :
    Booked cfg (s.settle settlement dispatched) id { task with pc } entry := by
  have hkey : settlement = ⟨task.receiver, some ⟨cfg.run, id⟩⟩ := by
    rw [hplace]
    unfold Job.place
    rw [htarget]
    rfl
  refine ⟨(ready_settle _ _ _).trans h.ready, fun hnot => absurd hsettled hnot, fun _ hmay => ?_,
    fun _ hmay e hmem => ?_⟩
  · obtain rfl : dispatched = true := hdispatched.mp hmay
    have hsame : (s.settle settlement true).books = s.books := by
      rw [hkey]
      rfl
    rw [hsame]
    exact h.unsettled hopen
  · obtain rfl : dispatched = false := Bool.eq_false_iff.mpr fun htrue => hmay (hdispatched.mpr htrue)
    rw [hkey] at hmem
    exact not_mem_settled hmem

theorem Booked.own (hfits : Fits cfg id task.toJob label (s.operations.statusOf id) (s.history id) task.pc)
    (hproper : Proper cfg id task.toJob task.pc)
    (hpassed : task.pc.pastLedger = true → s.books.ready = true) {target : Level}
    (htarget : targetOf task.intent = some target)
    (hbooked : ∀ policy input decision precondition settlement,
      .judged id policy input (.allowed decision precondition settlement) ∈ s.trace →
        Booked cfg s id task (task.entry cfg id input target))
    (hledger : LedgerStep cfg id task w s s' pc) {policy : ActivePolicy} {input : PolicyInput} {decision : Decision}
    {precondition : Precondition} {settlement : Settlement}
    (hjudged : .judged id policy input (.allowed decision precondition settlement) ∈ s'.trace) :
    Booked cfg s' id { task with pc } (task.entry cfg id input target) := by
  cases hledger with
  | same books aged place trace _ _ =>
    rcases trace with hsame | ⟨event, hevent, hallows, hsession⟩
    · rw [hsame] at hjudged
      refine (hbooked _ _ _ _ _ hjudged).transfer books aged place rfl fun _ => ?_
      unfold Service.MayHaveWritten
      rw [hsame]
    · rw [hevent, List.mem_append, List.mem_singleton] at hjudged
      have hold := hjudged.resolve_right fun heq => by rw [← heq] at hallows; cases hallows
      refine (hbooked _ _ _ _ _ hold).transfer books aged place rfl fun hnone => ?_
      refine exists_congr fun outcome => and_congr_left fun _ => ?_
      rw [hevent, List.mem_append, List.mem_singleton]
      refine or_iff_left fun heq => ?_
      have hfalse := hsession hnone
      rw [← heq] at hfalse
      cases hfalse
  | rebuilt records now before _ _ _ state =>
    subst state
    rw [before] at hfits
    have hin := mem_history.mpr ⟨hjudged, rfl⟩
    change _ ∈ s.history id at hin
    rw [show s.history id = [] from hfits] at hin
    cases hin
  | reserved before after books _ _ trace =>
    -- An agent's place is reserved by the judgement, and this is the only one.
    rcases before with ⟨active, hpc⟩ | hpc
    · have hnone : .judged id policy input (.allowed decision precondition settlement) ∉ s.trace := by
        intro hold
        have hin := mem_history.mpr ⟨hold, rfl⟩
        rw [hpc] at hfits
        rw [show s.history id = [.policyRead id active] from hfits] at hin
        simp at hin
      rcases trace with hsame | ⟨policy', input', judged', hevent, hnow, hstate⟩
      · exact absurd (hsame ▸ hjudged) hnone
      rw [hevent, List.mem_append, List.mem_singleton] at hjudged
      obtain ⟨-, rfl, rfl, -⟩ := Event.judged.inj (hjudged.resolve_left hnone)
      have hready : s'.books.ready = true := by
        rw [books, ready_reserve]
        exact hpassed (by rw [hpc]; rfl)
      refine ⟨hready, fun _ => .inl ?_, fun hsettled => ?_, fun hsettled => ?_⟩
      · rw [books]
        refine mem_reserved.mpr (.inr ⟨_, ?_, rfl⟩)
        unfold Books.changeOf
        rw [htarget, hnow, hstate]
        rfl
      · change pc.unsettled? = none at hsettled
        rw [after] at hsettled
        cases hsettled
      · change pc.unsettled? = none at hsettled
        rw [after] at hsettled
        cases hsettled
    · rw [hpc] at hfits
      exact hfits.elim
  | released place before after _ state =>
    subst state
    have hold := hbooked _ _ _ _ _ hjudged
    have huncalled : Uncalled (s.history id) := by
      rcases before with ⟨resolution, hpc⟩ | hpc <;> rw [hpc] at hfits <;> exact hfits
    have hopen : task.pc.unsettled? = some place := by
      rcases before with ⟨resolution, hpc⟩ | hpc <;> rw [hpc] <;> rfl
    refine hold.settle htarget (by rw [hopen]; simp) (hproper.place place hopen) ?_ after
    exact iff_of_false huncalled.not_mayHaveWritten (by simp)
  | settled place resolution shown before after _ state =>
    subst state
    have hold := hbooked _ _ _ _ _ hjudged
    have hopen : task.pc.unsettled? = some place := by
      rw [before]
      rfl
    rw [before] at hfits
    refine hold.settle htarget (by rw [hopen]; simp) (hproper.place place hopen) ?_ after
    rw [hfits.2.answer, decide_eq_true_iff]

/-- What the service's other work leaves alone. -/
theorem Reserved.elsewhere (h : Reserved cfg s) (htasks : s'.tasks = s.tasks) (hbooks : s'.books = s.books)
    (haged : s'.aged = s.aged) (hlock : s'.rebuilding.isSome = true → s'.books.ready = false)
    (htrace : s'.trace = s.trace ∨ ∃ event, s'.trace = s.trace ++ [event] ∧ event.task? = none) :
    Reserved cfg s' := by
  have hevent : ∀ event : Event, event.task? ≠ none → (event ∈ s'.trace ↔ event ∈ s.trace) := by
    intro event htask
    rcases htrace with hsame | ⟨added, hadded, hnone⟩
    · rw [hsame]
    · rw [hadded, List.mem_append, List.mem_singleton]
      exact or_iff_left fun heq => htask (heq ▸ hnone)
  refine ⟨hlock, fun id task label htask howner hpast => ?_,
    fun id task label htask howner policy input decision precondition settlement target hjudged htarget => ?_⟩
  · rw [hbooks]
    exact h.passed id task label (htasks ▸ htask) howner hpast
  · have hold := h.booked id task label (htasks ▸ htask) howner policy input decision precondition settlement target
      ((hevent _ (by simp [Event.task?])).mp hjudged) htarget
    refine hold.transfer hbooks haged rfl rfl fun _ => exists_congr fun outcome => and_congr_left fun _ => ?_
    exact hevent _ (by simp [Event.task?])

theorem Reserved.submit (h : Reserved cfg s) (hgated : Gated cfg s) (caller : Principal) (receiver : ReceiverId)
    (submission : OperationSubmission) (now : Instant) :
    Reserved cfg (s.submit cfg caller receiver submission now).1 := by
  rcases submit_cases cfg s caller receiver submission now with ⟨writes, hs⟩ | ⟨writes, hs⟩
  · rw [hs]
    exact h.elsewhere rfl rfl rfl h.lock (.inl rfl)
  rw [hs]
  refine ⟨h.lock, fun id task label htask howner hpast => ?_,
    fun id task label htask howner policy input decision precondition settlement target hjudged htarget => ?_⟩
  · dsimp only at htask
    by_cases heq : id = s.operations.nextId + 1
    · subst heq
      rw [Function.update_self] at htask
      obtain rfl := Option.some.inj htask
      change caller = .agent label at howner
      subst howner
      cases hpast
    · rw [Function.update_of_ne heq] at htask
      exact h.passed id task label htask howner hpast
  · dsimp only at htask
    obtain ⟨task', htask', -⟩ := hgated.maker _ hjudged id rfl
    have hne : id ≠ s.operations.nextId + 1 := (Nat.lt_succ_of_le (hgated.task id task' htask')).ne
    rw [Function.update_of_ne hne] at htask
    exact (h.booked id task label htask howner policy input decision precondition settlement target hjudged
      htarget).transfer rfl rfl rfl rfl fun _ => Iff.rfl

theorem Reserved.advance (h : Reserved cfg s) (hgated : Gated cfg s) (htask : s.tasks id = some task)
    (hstep : advance cfg s id task w = some (s', pc)) : Reserved cfg (s'.setTask id { task with pc }) := by
  have hframe := advance_frame hstep
  have hledger := advance_ledger hstep
  have hproper := hgated.proper id task htask
  have hevent : ∀ other ≠ id, ∀ event : Event, event.task? = some other → (event ∈ s'.trace ↔ event ∈ s.trace) := by
    intro other hne event hother
    rcases hframe.trace with hsame | ⟨added, hadded, hby⟩
    · rw [hsame]
    · rw [hadded, List.mem_append, List.mem_singleton]
      refine or_iff_left fun heq => hne ?_
      subst heq
      exact Option.some.inj (hother.symm.trans hby.task?)
  refine ⟨hledger.lock h.lock, fun other task' label htask' howner hpast => ?_,
    fun other task' label htask' howner policy input decision precondition settlement target hjudged htarget => ?_⟩
  · rcases setTask_cases hframe.tasks htask' with ⟨rfl, rfl⟩ | ⟨-, htask'⟩
    · rcases hledger.passed hpast with hbefore | hready
      · exact hledger.ready (h.passed other task label htask howner hbefore)
      · exact hready
    · exact hledger.ready (h.passed other task' label htask' howner hpast)
  · rcases setTask_cases hframe.tasks htask' with ⟨rfl, rfl⟩ | ⟨heq, htask'⟩
    · have hown := Booked.own (hgated.fits other task label htask howner) hproper
        (h.passed other task label htask howner) htarget (fun policy input decision precondition settlement hold =>
          h.booked other task label htask howner policy input decision precondition settlement target hold htarget)
        hledger hjudged
      exact hown.transfer rfl rfl rfl rfl fun _ => Iff.rfl
    · have hold := h.booked other task' label htask' howner policy input decision precondition settlement target
        ((hevent other heq _ rfl).mp hjudged) htarget
      have hother := hold.step_of_ne rfl heq h.lock hproper hledger
        (exists_congr fun outcome => and_congr_left fun _ => hevent other heq _ rfl)
      exact hother.transfer rfl rfl rfl rfl fun _ => Iff.rfl

/-- Whether the step is a panic. -/
def Action.isPanic : Action → Bool
  | .panic _ => true
  | _ => false

/-- A step that is not a panic. -/
def NoPanic (_ : Service) (a : Action) : Prop := a.isPanic = false

instance (s : Service) (a : Action) : Decidable (NoPanic s a) := inferInstanceAs (Decidable (_ = _))

theorem Reserved.step (h : Reserved cfg s) (hgated : Gated cfg s) {a : Action} (hpanic : NoPanic s a)
    (hstep : s.step cfg a = some s') : Reserved cfg s' := by
  cases serviceStep_of_step hstep with
  | submit caller receiver submission now => exact h.submit hgated caller receiver submission now
  | cancelled => exact h.elsewhere rfl rfl rfl h.lock (.inr ⟨_, rfl, rfl⟩)
  | uncancelled => exact h
  | advance id w task next pc htask hadvance =>
    have hnext := h.advance hgated htask hadvance
    split_ifs
    · exact hnext.elsewhere rfl rfl rfl hnext.lock (.inl rfl)
    · exact hnext
  | panic => cases hpanic
  | loadPolicy | noteElsewhere => exact h.elsewhere rfl rfl rfl h.lock (.inr ⟨_, rfl, rfl⟩)
  | rebuildElsewhere now hfree hready => exact h.elsewhere rfl rfl rfl (fun _ => hready) (.inl rfl)
  | takenIn records now hheld =>
    -- The ledger was not ready, so no agent's request has been judged.
    have hunready := h.lock (by rw [hheld]; rfl)
    refine ⟨fun hlock => (by cases hlock), fun id task label htask howner hpast => rfl,
      fun id task label htask howner policy input decision precondition settlement target hjudged htarget => ?_⟩
    have hready := (h.booked id task label htask howner policy input decision precondition settlement target
      hjudged htarget).ready
    rw [hunready] at hready
    cases hready
  | unread => exact h.elsewhere rfl rfl rfl (fun hlock => by cases hlock) (.inl rfl)
  | chargeDryRun | shutdown => exact h.elsewhere rfl rfl rfl h.lock (.inl rfl)

theorem reserved_of_reachable (h : (gate cfg).ReachableBy NoPanic s) : Reserved cfg s := by
  refine Machine.ReachableBy.invariant (I := Reserved cfg) (fun s hinit => ?_)
    (fun s a s' hs hpanic hi hstep => hi.step (gated_of_reachable hs.reachable) hpanic hstep) h
  obtain rfl : s = {} := hinit
  exact ⟨fun hlock => (by cases hlock), fun _ _ _ htask => (by cases htask), fun _ _ _ htask => by cases htask⟩

/-! ### What is dropped for its age -/

/-- A step of a task drops an entry that is older than the retention. -/
structure Prunes (cfg : Settings) (s : Service) (a : Action) (entry : LedgerEntry) : Prop where
  before : entry ∈ s.books.ledger.entries
  after : ∀ s', s.step cfg a = some s' → entry ∉ s'.books.ledger.entries
  old : ∃ id w, a = .advance id w ∧ entry.change.time + retention < w.now

/-- Some step of the run did. -/
def PrunedForAge (cfg : Settings) (acts : List Action) (entry : LedgerEntry) : Prop :=
  ∃ k s a, (gate cfg).Took {} acts k s a ∧ Prunes cfg s a entry

theorem aged_of_step {a : Action} (hstep : s.step cfg a = some s') (hmem : entry ∈ s'.aged) :
    entry ∈ s.aged ∨ Prunes cfg s a entry := by
  cases serviceStep_of_step hstep with
  | submit caller receiver submission now =>
    rcases submit_cases cfg s caller receiver submission now with ⟨writes, hs⟩ | ⟨writes, hs⟩ <;>
      · rw [hs] at hmem
        exact .inl hmem
  | advance id w task next pc htask hadvance =>
    have hafter : ∀ s', s.step cfg (.advance id w) = some s' → s'.books = next.books := by
      intro other hother
      obtain rfl := Option.some.inj (hstep.symm.trans hother)
      split_ifs <;> rfl
    replace hmem : entry ∈ next.aged := by
      split_ifs at hmem <;> exact hmem
    cases advance_ledger hadvance with
    | same _ aged _ _ _ _ => exact .inl (aged ▸ hmem)
    | rebuilt _ _ _ _ _ _ state | released _ _ _ _ state | settled _ _ _ _ _ _ state =>
      subst state
      exact .inl hmem
    | reserved _ _ books aged _ _ =>
      rw [aged] at hmem
      refine (List.mem_append.mp hmem).imp_right fun hout => ?_
      obtain ⟨hin, hold⟩ := List.mem_filter.mp hout
      have hage : entry.change.time + retention < w.now := by
        by_contra hyoung
        rw [decide_eq_true (retained_iff.mpr hyoung)] at hold
        cases hold
      refine ⟨hin, fun s' hs' => ?_, id, w, rfl, hage⟩
      rw [hafter s' hs', books]
      exact not_mem_reserved hage
  | cancelled | uncancelled | panic | loadPolicy | noteElsewhere | rebuildElsewhere | takenIn | unread | chargeDryRun |
    shutdown => exact .inl hmem

theorem prunedForAge_of_aged {acts : List Action} (h : (gate cfg).exec {} acts = some s) (hmem : entry ∈ s.aged) :
    PrunedForAge cfg acts entry := by
  have hrun := Machine.exec_induction (gate cfg)
    (P := fun acts reached => ∀ entry ∈ reached.aged, PrunedForAge cfg acts entry)
    (fun entry hnone => absurd hnone List.not_mem_nil)
    (fun acts m a m' hexec hacts hstep entry hmem => by
      rcases aged_of_step hstep hmem with hold | hnow
      · obtain ⟨k, before, action, htook, hprunes⟩ := hacts entry hold
        exact ⟨k, before, action, ((gate cfg).took_concat).mpr (.inl htook), hprunes⟩
      · exact ⟨acts.length, m, a, ((gate cfg).took_concat).mpr (.inr ⟨rfl, rfl, hexec⟩), hnow⟩) h
  exact hrun entry hmem

theorem reachableBy_of_noPanic {acts : List Action} (h : (gate cfg).exec {} acts = some s)
    (hpanic : ∀ a ∈ acts, a.isPanic = false) : (gate cfg).ReachableBy NoPanic s := by
  have hrun := Machine.exec_induction (gate cfg)
    (P := fun acts reached => (∀ a ∈ acts, a.isPanic = false) → (gate cfg).ReachableBy NoPanic reached)
    (fun _ => .init rfl)
    (fun acts m a m' _ hacts hstep hpanic =>
      .step (hacts fun b hb => hpanic b (List.mem_append_left _ hb)) (hpanic a (by simp)) hstep) h
  exact hrun hpanic

/-! ### The ledger and the outcome -/

/-- The record is of a volume change that was about to be dispatched, and the entry is that change. -/
def AuditRecord.Logs (record : AuditRecord) (entry : LedgerEntry) : Prop :=
  record.run = entry.key.run ∧ record.volumeChange? = some (entry.receiver, entry.change) ∧
    ∀ key, record.key? = some key → entry.key = key

/-- What a step of an agent's task does to the ledger beside its own change. -/
structure OthersKept (cfg : Settings) (id : OperationId) (task : Task) (w : World) (s s' : Service) : Prop where
  /-- The judgement drops what is older than the retention. The rebuild drops no key. -/
  removed : ∀ entry ∈ s.books.ledger.entries, entry.key ≠ ⟨cfg.run, id⟩ → entry ∉ s'.books.ledger.entries →
    (∃ policy, task.pc = .judging policy) ∧ entry.change.time + retention < w.now ∨
      task.pc = .readingLog ∧ ∃ e ∈ s'.books.ledger.entries, e.receiver = entry.receiver ∧ e.key = entry.key
  /-- Only the rebuild of a ledger that is not ready adds another operation's change: one that is in the log. -/
  added : ∀ entry ∈ s'.books.ledger.entries, entry ∉ s.books.ledger.entries → entry.key ≠ ⟨cfg.run, id⟩ →
    task.pc = .readingLog ∧ s.books.ready = false ∧ ∃ records, w.log = some records ∧ ∃ record ∈ records, record.Logs entry
  /-- The rebuild adds what the log has, unless it is older than the retention or the log says it was not dispatched. -/
  logged : task.pc = .readingLog → ∀ records, w.log = some records → ∃ holder now, s.rebuilding = some (holder, now) ∧
    ∀ record ∈ records, ∀ key receiver change, record.key? = some key →
      record.volumeChange? = some (receiver, change) → (∀ other ∈ records, other.notDispatched? ≠ some key) →
        ¬ change.time + retention < now → ⟨receiver, key, change⟩ ∈ s'.books.ledger.entries

theorem OthersKept.of_advance (hstep : advance cfg s id task w = some (s', pc)) (hproper : Proper cfg id task.toJob task.pc)
    (hlock : s.rebuilding.isSome = true → s.books.ready = false) (hagent : task.pc ≠ .reserving) :
    OthersKept cfg id task w s s' := by
  have hledger := advance_ledger hstep
  refine ⟨fun entry hmem hkey hgone => ?_, fun entry hmem hnew hkey => ?_, fun hread records hlog => ?_⟩
  · rcases hledger.removed hproper hmem hkey hgone with ⟨hplace, hold, -⟩ | ⟨hread, -, hkept⟩
    · exact .inl ⟨hplace.resolve_right hagent, hold⟩
    · exact .inr ⟨hread, hkept⟩
  · obtain ⟨records, now, hread, hheld, hlog, hrebuilt⟩ := (hledger.added hmem hnew).resolve_left hkey
    obtain ⟨⟨record, hrecord, hentry⟩, -⟩ := mem_rebuild.mp hrebuilt
    obtain ⟨hrun, hchange, hown⟩ := ledgerEntry_eq_some hentry
    exact ⟨hread, hlock (by rw [hheld]; rfl), records, hlog, record, hrecord, hrun.symm, hchange,
      fun key hkey => (hown key hkey).1⟩
  · cases advanceStep_of_advance hstep with
    | takenIn found now _ hheld hfound =>
      obtain rfl := Option.some.inj (hlog.symm.trans hfound)
      refine ⟨_, now, hheld, fun record hrecord key receiver change hkey hchange hnot hage => ?_⟩
      exact Ledger.mem_merge_of_mem_left
        (mem_rebuild_of_dispatching hrecord hkey hchange hnot (retained_iff.mpr hage))
    | unread now _ _ hnone => rw [hlog] at hnone; cases hnone
    | _ => simp_all

/-- **The ledger and the outcome agree.** In every run without a panic, an agent's volume change that was judged as
allowed is in the ledger as long as its place is not settled and, when its task has ended, its key is there exactly
if the session answered that something may have been written, both unless a reservation of the run found the change
older than the retention and dropped it. No step of an agent's task takes another operation's change out of the ledger
unless it is older than that, and none adds one, except that the rebuild takes in what the log holds, and takes no key
out. -/
theorem ledger_agrees (cfg : Settings) (acts : List Action) (s : Service) (hrun : (gate cfg).exec {} acts = some s)
    (hpanic : ∀ a ∈ acts, a.isPanic = false) (id : OperationId)
    (task : Task) (label : AgentLabel) (htask : s.tasks id = some task) (howner : task.owner = .agent label) :
    (∀ policy input decision precondition settlement target,
      .judged id policy input (.allowed decision precondition settlement) ∈ s.trace →
      targetOf task.intent = some target →
        (task.pc.unsettled? ≠ none → task.entry cfg id input target ∈ s.books.ledger.entries ∨
          PrunedForAge cfg acts (task.entry cfg id input target)) ∧
        (task.pc = .ended → ¬ PrunedForAge cfg acts (task.entry cfg id input target) →
          ((∃ entry ∈ s.books.ledger.entries, entry.receiver = task.receiver ∧ entry.key = ⟨cfg.run, id⟩) ↔
            s.MayHaveWritten id))) ∧
    ∀ w s' pc, advance cfg s id task w = some (s', pc) → OthersKept cfg id task w s s' := by
  have h := reachableBy_of_noPanic hrun hpanic
  have hreserved := reserved_of_reachable h
  have hgated := gated_of_reachable h.reachable
  refine ⟨fun policy input decision precondition settlement target hjudged htarget => ?_, fun w s' pc hstep => ?_⟩
  · have hbooked := hreserved.booked id task label htask howner policy input decision precondition settlement target
      hjudged htarget
    refine ⟨fun hopen => (hbooked.unsettled hopen).imp_right (prunedForAge_of_aged hrun),
      fun hended hyoung => ⟨fun ⟨entry, hmem, hmine⟩ => ?_, fun hmay => ?_⟩⟩
    · by_contra hnot
      exact hbooked.released (by rw [hended]; rfl) hnot entry hmem hmine
    · have hmem := (hbooked.written (by rw [hended]; rfl) hmay).resolve_right fun haged =>
        hyoung (prunedForAge_of_aged hrun haged)
      exact ⟨_, hmem, rfl, rfl⟩
  · refine .of_advance hstep (hgated.proper id task htask) hreserved.lock fun hpc => ?_
    have hfits := hgated.fits id task label htask howner
    rw [hpc] at hfits
    exact hfits.elim

end Reserved

/-! ### Runs -/

theorem exists_judged (trace : List Event) (id : OperationId)
    (h : (trace.any fun event => event.allows && decide (event.task? = some id)) = true) :
    ∃ policy input decision precondition settlement,
      .judged id policy input (.allowed decision precondition settlement) ∈ trace := by
  obtain ⟨event, hmem, hevent⟩ := List.any_eq_true.mp h
  rw [Bool.and_eq_true, decide_eq_true_iff] at hevent
  obtain ⟨hallows, htask⟩ := hevent
  cases event with
  | judged other policy input judged =>
    obtain rfl := Option.some.inj htask
    cases judged with
    | allowed decision precondition settlement => exact ⟨_, _, _, _, _, hmem⟩
    | _ => cases hallows
  | _ => cases hallows

def runWithoutPanic (acts : List Action) : Option Service := (gate gateSettings).execBy NoPanic {} acts

theorem reachable_runWithoutPanic {acts : List Action} {s : Service} (h : runWithoutPanic acts = some s) :
    (gate gateSettings).ReachableBy NoPanic s :=
  Machine.reachableBy_of_execBy ({} : Service) acts (gate_init _) h

/-- One write, to its end. -/
def wholeWrite : List Action := oneWrite [] ++ List.replicate 4 (.advance 1 quietWorld)

def finishedWrite : Service := ((gate gateSettings).exec {} wholeWrite).get (by decide)

def finishedTask : Task := (finishedWrite.tasks 1).get (by decide)

/-- Before the clock has gone as far as the retention nothing is older than that. -/
def Action.isEarly : Action → Bool
  | .advance _ w => decide (w.now ≤ retention)
  | _ => true

/-- The change of a write that was made is counted. -/
theorem ledger_agrees_finishedWrite :
    (∃ entry ∈ finishedWrite.books.ledger.entries, entry.receiver = den ∧ entry.key = ⟨3600000, 1⟩) ↔
      finishedWrite.MayHaveWritten 1 := by
  obtain ⟨policy, input, decision, precondition, settlement, hjudged⟩ :=
    exists_judged finishedWrite.trace 1 (by decide)
  have hyoung : ¬ PrunedForAge gateSettings wholeWrite
      (finishedTask.entry gateSettings 1 input ⟨-74, by decide⟩) := by
    rintro ⟨k, before, a, htook, hprunes⟩
    obtain ⟨id, w, rfl, hold⟩ := hprunes.old
    have hclock : ∀ a ∈ wholeWrite, a.isEarly = true := by decide
    have hearly := of_decide_eq_true (hclock _ (List.mem_of_getElem? htook.1))
    exact absurd (hold.trans_le hearly) (Nat.not_lt.mpr (Nat.le_add_left _ _))
  have hagrees := (ledger_agrees gateSettings wholeWrite finishedWrite (Option.some_get _).symm (by decide) 1
    finishedTask kitchen (Option.some_get _).symm (by decide)).1 policy input decision precondition settlement
    ⟨-74, by decide⟩ hjudged (by decide)
  exact hagrees.2 (by decide) hyoung

def otherRise : ReceiverIntent := .volume (.dbHalfSteps ⟨-75, by decide⟩)

/-- A write that is still on its way when another one is judged, 25 hours after it. -/
def overtakenWrite : Service :=
  (runWithoutPanic ([.loadPolicy (.ok (budgetedPolicy, zeroDigest)) 3600000, .rebuildElsewhere 3600000,
    .readElsewhere (some []), .submit (.agent kitchen) den { intent := smallRise } 0] ++
    List.replicate 5 (.advance 1 quietWorld) ++
    .submit (.agent kitchen) den { intent := otherRise } 0 ::
      List.replicate 5 (.advance 2 { quietWorld with now := 93600000 }))).get (by decide)

def overtakenTask : Task := (overtakenWrite.tasks 1).get (by decide)

/-- A request that waits for the log, in which there is a write of an earlier run. -/
def firstRequest : Service :=
  (runWithoutPanic ([.loadPolicy (.ok (budgetedPolicy, zeroDigest)) 3600000,
    .submit (.agent kitchen) den { intent := smallRise } 0] ++ List.replicate 3 (.advance 1 quietWorld))).get
      (by decide)

def firstTaskOfRun : Task := (firstRequest.tasks 1).get (by decide)

def earlierRecord : AuditRecord :=
  { run := 0, time := 3000000, operation := some 7, principal := some (.agent kitchen), receiver := some den
    event := .dispatching "volume -40.0" (some (-86)) (some (-80)) [.volume] }

def loggedWorld : World := { quietWorld with log := some [earlierRecord] }

def rebuiltRequest : Service × Pc :=
  (advance gateSettings firstRequest 1 firstTaskOfRun loggedWorld).get (by decide)

/-- The change of an operation that is not settled may have been dropped for its age, and the request that rebuilds
the ledger adds the changes of earlier runs. -/
theorem not_ledgerAgrees :
    (∃ cfg s id task label policy input decision precondition settlement target,
      (gate cfg).ReachableBy NoPanic s ∧ s.tasks id = some task ∧ task.owner = .agent label ∧
      .judged id policy input (.allowed decision precondition settlement) ∈ s.trace ∧
      targetOf task.intent = some target ∧ task.pc.unsettled? ≠ none ∧
        ∀ entry ∈ s.books.ledger.entries, entry.key ≠ ⟨cfg.run, id⟩) ∧
    ∃ cfg s id task label w s' pc entry, (gate cfg).ReachableBy NoPanic s ∧ s.tasks id = some task ∧
      task.owner = .agent label ∧ advance cfg s id task w = some (s', pc) ∧ entry.key ≠ ⟨cfg.run, id⟩ ∧
        entry ∈ s'.books.ledger.entries ∧ entry ∉ s.books.ledger.entries := by
  constructor
  · obtain ⟨policy, input, decision, precondition, settlement, hjudged⟩ :=
      exists_judged overtakenWrite.trace 1 (by decide)
    exact ⟨gateSettings, overtakenWrite, 1, overtakenTask, kitchen, policy, input, decision, precondition, settlement,
      ⟨-74, by decide⟩, reachable_runWithoutPanic (Option.some_get _).symm, (Option.some_get _).symm, by decide,
      hjudged, by decide, by decide, by decide⟩
  · have hstep : advance gateSettings firstRequest 1 firstTaskOfRun loggedWorld = some rebuiltRequest :=
      (Option.some_get _).symm
    exact ⟨gateSettings, firstRequest, 1, firstTaskOfRun, kitchen, loggedWorld, rebuiltRequest.1, rebuiltRequest.2,
      ⟨den, ⟨0, 7⟩, ⟨3000000, some ⟨-86, by decide⟩, ⟨-80, by decide⟩⟩⟩,
      reachable_runWithoutPanic (Option.some_get _).symm, (Option.some_get _).symm, by decide,
      hstep, by decide, by decide, by decide⟩

end DenonAvr.Application
