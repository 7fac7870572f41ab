import DenonAvr.Application.Ending
import DenonAvr.Application.Handles
import DenonAvr.Library.TwoRuns
import DenonAvr.Library.Values

/-!
# Free text and agents

The reason of a session's outcome and the messages of the connector, the repository and the policy source are free text:
they can say where a receiver is. `blank` is a thing without the free text it carries. The Operator's operations show
their reasons, the log keeps them, and nothing else does.

Two states are `Alike` when they differ in free text alone, where agents cannot see it. Two runs whose actions are the
same but for free text go through states that are alike, so that agents are told the same in both
(`agents_told_alike`).
-/

namespace DenonAvr.Domain

def OperationOutcome.blank : OperationOutcome → OperationOutcome
  | .rejectedBeforeDispatch operation cause _ => .rejectedBeforeDispatch operation cause ""
  | .indeterminate operation dispatch _ => .indeterminate operation dispatch ""
  | outcome => outcome

end DenonAvr.Domain

namespace DenonAvr.Application

open Domain Library Policy Session Infrastructure Connections

/-! ### Actions without free text -/

def OperationError.blank (error : OperationError) : OperationError := { error with message := "" }

def AuditEvent.blank : AuditEvent → AuditEvent
  | .finished status dispatch confirmed _ => .finished status dispatch confirmed none
  | .policyLoadFailed _ => .policyLoadFailed ""
  | event => event

def AuditRecord.blank (record : AuditRecord) : AuditRecord := { record with event := record.event.blank }

/-- What `since` returned. -/
def blankLog (log : Option (List AuditRecord)) : Option (List AuditRecord) := log.map (List.map AuditRecord.blank)

def World.blank (w : World) : World :=
  { w with lease := w.lease.mapError fun _ => "", log := blankLog w.log, outcome := w.outcome.blank }

def Action.blank : Action → Action
  | .advance id w => .advance id w.blank
  | .loadPolicy loaded now => .loadPolicy (loaded.mapError fun _ => "") now
  | .noteElsewhere principal event now ok => .noteElsewhere principal event.blank now ok
  | .readElsewhere log => .readElsewhere (blankLog log)
  | action => action

def Found.blank (found : Found) : Found := { found with loaded := found.loaded.mapError OperationError.blank }

def Leased.blank {α : Type} : Leased α → Leased α
  | unread error => unread error.blank
  | unconnected error => unconnected error.blank
  | leased => leased

/-- A lease of a session that was asked for something. -/
def Leased.blankRead {α : Type} : Leased (Except OperationError α) → Leased (Except OperationError α)
  | held read => held (read.mapError OperationError.blank)
  | leased => leased.blank

def CallWorld.blank (w : CallWorld) : CallWorld := { w with log := blankLog w.log, leased := w.leased.blank }

/-- The action without the free text of sessions' outcomes, of the connector, of the repository, of the policy source, and
of what the log keeps of them. Every request is as it was. -/
def HandleAction.blank {Catalog : Type} : HandleAction Catalog → HandleAction Catalog
  | .receivers caller loaded connection => .receivers caller (loaded.mapError OperationError.blank) connection
  | .state caller receiver leased => .state caller receiver leased.blank
  | .sourceCatalog caller receiver leased => .sourceCatalog caller receiver leased.blankRead
  | .submit caller receiver submission found now => .submit caller receiver submission found.blank now
  | .dryRun caller receiver intent found now => .dryRun caller receiver intent found.blank now
  | .resume call w => .resume call w.blank
  | .work action => .work action.blank
  | action => action

/-! ### Operations without free text -/

/-- The Operator is shown the session's own reasons. -/
def OperationSnapshot.blankFor (owner : Principal) (snapshot : OperationSnapshot) : OperationSnapshot :=
  match owner with
  | .operator => { snapshot with reason := none }
  | .agent _ => snapshot

def Resolution.quiet (resolution : Resolution) : Resolution := { resolution with reason := none }

def Resolution.blankFor (owner : Principal) (resolution : Resolution) : Resolution :=
  match owner with
  | .operator => resolution.quiet
  | .agent _ => resolution

/-- An end that an agent is told the text `shown` of in place of its reason. -/
def Resolution.blankShown (owner : Principal) (shown : Option String) (resolution : Resolution) : Resolution :=
  if shown.isSome then resolution.quiet else resolution.blankFor owner

def Entry.blank (entry : Entry) : Entry := { entry with snapshot := entry.snapshot.blankFor entry.owner }

def Operations.blank (operations : Operations) : Operations :=
  { operations with entries := mapValues Entry.blank operations.entries }

section Snapshot
variable {owner : Principal} {snapshot snapshot' : OperationSnapshot} {resolution resolution' : Resolution}
  {entry entry' : Entry}

theorem blankFor_eq_iff : snapshot.blankFor owner = snapshot'.blankFor owner ↔
    snapshot.id = snapshot'.id ∧ snapshot.receiver = snapshot'.receiver ∧ snapshot.intent = snapshot'.intent ∧
      snapshot.status = snapshot'.status ∧ snapshot.dispatch = snapshot'.dispatch ∧
        snapshot.confirmed = snapshot'.confirmed ∧ (owner ≠ .operator → snapshot.reason = snapshot'.reason) ∧
          snapshot.observation = snapshot'.observation := by
  cases owner <;> cases snapshot <;> cases snapshot' <;> simp [OperationSnapshot.blankFor]

theorem Resolution.blankFor_eq_iff : resolution.blankFor owner = resolution'.blankFor owner ↔
    resolution.status = resolution'.status ∧ resolution.dispatch = resolution'.dispatch ∧
      resolution.confirmed = resolution'.confirmed ∧ (owner ≠ .operator → resolution.reason = resolution'.reason) ∧
        resolution.observation = resolution'.observation := by
  cases owner <;> cases resolution <;> cases resolution' <;> simp [Resolution.blankFor, Resolution.quiet]

namespace Resolution

@[simp] theorem quiet_quiet : resolution.quiet.quiet = resolution.quiet := rfl

@[simp] theorem quiet_blankFor : (resolution.blankFor owner).quiet = resolution.quiet := by cases owner <;> rfl

@[simp] theorem blankFor_blankFor : (resolution.blankFor owner).blankFor owner = resolution.blankFor owner := by
  cases owner <;> rfl

@[simp] theorem quiet_blankShown {shown : Option String} : (resolution.blankShown owner shown).quiet = resolution.quiet := by
  unfold blankShown
  split_ifs
  · rfl
  · exact quiet_blankFor

@[simp] theorem dispatch_blankShown {shown : Option String} :
    (resolution.blankShown owner shown).dispatch = resolution.dispatch := by
  unfold blankShown
  split_ifs
  · rfl
  · cases owner <;> rfl

@[simp] theorem blankShown_blankShown {shown : Option String} :
    (resolution.blankShown owner shown).blankShown owner shown = resolution.blankShown owner shown := by
  unfold blankShown
  split_ifs
  · rfl
  · exact blankFor_blankFor

/-- What the operation is ended with. -/
theorem blankFor_shown (owner : Principal) (shown : Option String) (resolution : Resolution) :
    blankFor owner { resolution with reason := shown <|> resolution.reason } =
      blankFor owner { resolution.blankShown owner shown with
        reason := shown <|> (resolution.blankShown owner shown).reason } := by
  cases owner <;> cases shown <;> rfl

end Resolution

theorem Entry.blank_eq_iff : entry.blank = entry'.blank ↔
    entry.owner = entry'.owner ∧ entry.key = entry'.key ∧
      entry.snapshot.blankFor entry.owner = entry'.snapshot.blankFor entry.owner := by
  obtain ⟨owner, key, snapshot⟩ := entry
  obtain ⟨owner', key', snapshot'⟩ := entry'
  unfold Entry.blank
  rw [Entry.mk.injEq]
  constructor
  · rintro ⟨rfl, rfl, h⟩
    exact ⟨rfl, rfl, h⟩
  · rintro ⟨rfl, rfl, h⟩
    exact ⟨rfl, rfl, h⟩

/-- An agent is shown its operations whole. -/
theorem Entry.snapshot_eq_of_blank_eq (h : entry.blank = entry'.blank) (howner : entry.owner ≠ .operator) :
    entry.snapshot = entry'.snapshot := by
  obtain ⟨-, -, hsnapshot⟩ := Entry.blank_eq_iff.mp h
  cases hentry : entry.owner with
  | operator => exact absurd hentry howner
  | agent label =>
    rw [hentry] at hsnapshot
    exact hsnapshot

@[simp] theorem Entry.owner_blank : entry.blank.owner = entry.owner := rfl

@[simp] theorem Entry.key_blank : entry.blank.key = entry.key := rfl

@[simp] theorem Entry.status_blank : entry.blank.snapshot.status = entry.snapshot.status := by
  unfold Entry.blank OperationSnapshot.blankFor
  cases entry.owner <;> rfl

@[simp] theorem Entry.receiver_blank : entry.blank.snapshot.receiver = entry.snapshot.receiver := by
  unfold Entry.blank OperationSnapshot.blankFor
  cases entry.owner <;> rfl

@[simp] theorem Entry.intent_blank : entry.blank.snapshot.intent = entry.snapshot.intent := by
  unfold Entry.blank OperationSnapshot.blankFor
  cases entry.owner <;> rfl

end Snapshot

/-! ### The table -/

namespace Operations

section Blank
variable (operations : Operations) (id : OperationId)

theorem entryOf_blank : operations.blank.entryOf id = (operations.entryOf id).map Entry.blank :=
  lookup_mapValues _ _ _

theorem statusOf_blank : operations.blank.statusOf id = operations.statusOf id := by
  unfold statusOf
  rw [entryOf_blank, Option.map_map]
  exact congrFun (congrArg Option.map (funext fun _ => Entry.status_blank)) _

theorem finished_blank : operations.blank.finished id = operations.finished id := by
  unfold finished
  rw [entryOf_blank, Option.any_map]
  exact congrFun (congrArg Option.any (funext fun _ => congrArg _ Entry.status_blank)) _

theorem evict_blank : (operations.evict id).blank = operations.blank.evict id := by
  unfold evict
  rw [entryOf_blank]
  cases operations.entryOf id with
  | none => rfl
  | some entry =>
    show blank { operations with entries := _, keys := _ } = _
    unfold blank
    rw [mapValues_erase]
    rfl

theorem evictLoop_blank (excess : ℕ) (kept order : List OperationId) :
    (operations.evictLoop excess kept order).blank = operations.blank.evictLoop excess kept order := by
  induction order generalizing operations excess kept with
  | nil => rfl
  | cons first order ih =>
    unfold evictLoop
    rw [finished_blank]
    split_ifs
    · rw [ih, evict_blank]
    · exact ih operations excess _

theorem evictFinished_blank (retained : ℕ) :
    (operations.evictFinished retained).blank = operations.blank.evictFinished retained := by
  unfold evictFinished
  have hlength : operations.blank.entries.entries.length = operations.entries.entries.length := length_mapValues _ _
  rw [hlength]
  dsimp only
  split_ifs
  · rfl
  · exact evictLoop_blank _ _ _ _

theorem add_blank (owner : Principal) (receiver : ReceiverId) (submission : OperationSubmission) (status : OperationStatus) :
    (operations.add owner receiver submission status).1.blank =
      (operations.blank.add owner receiver submission status).1 := by
  have hnew : ∀ entry : Entry, entry.snapshot.reason = none → entry.blank = entry := by
    rintro ⟨owner, key, ⟨id, receiver, intent, status, dispatch, confirmed, reason, observation⟩⟩ hreason
    obtain rfl : reason = none := hreason
    cases owner <;> rfl
  unfold add blank
  dsimp only
  rw [mapValues_insert, hnew _ rfl]

theorem unfinishedOf_blank (owner : Principal) : unfinishedOf operations.blank owner = unfinishedOf operations owner := by
  unfold unfinishedOf
  refine (countP_mapValues _ _ _).trans (congrArg (fun p => List.countP p _) (funext fun item => ?_))
  dsimp only
  rw [Entry.owner_blank, Entry.status_blank]

theorem keyed?_blank {operations : Operations} (h : operations.Keyed) (owner : Principal) (key : Option IdempotencyKey) :
    operations.blank.keyed? owner key = (operations.keyed? owner key).map (OperationSnapshot.blankFor owner) := by
  cases key with
  | none => rfl
  | some key =>
    have hkeys : operations.blank.keys.lookup (owner, key) = operations.keys.lookup (owner, key) := rfl
    cases hlookup : operations.keys.lookup (owner, key) with
    | none => simp [keyed?, hkeys, hlookup]
    | some id =>
      obtain ⟨entry, hentry, rfl, -⟩ := (h owner key id).mp hlookup
      have hblank := operations.entryOf_blank id
      rw [hentry] at hblank
      simp [keyed?, hkeys, hlookup, hentry, hblank, Entry.blank]

theorem identical?_blank (owner : Principal) (receiver : ReceiverId) (intent : ReceiverIntent) :
    operations.blank.identical? owner receiver intent =
      (operations.identical? owner receiver intent).map (OperationSnapshot.blankFor owner) := by
  unfold identical?
  rw [show operations.blank.entries = mapValues Entry.blank operations.entries from rfl, find?_mapValues, Option.map_map,
    Option.map_map]
  simp only [Entry.owner_blank, Entry.status_blank, Entry.receiver_blank, Entry.intent_blank]
  refine Option.map_congr fun item hitem => ?_
  have hfound := List.find?_some hitem
  simp only [Bool.and_eq_true, beq_iff_eq] at hfound
  rw [← hfound.1.1.1]
  rfl

theorem retried_blank {operations : Operations} (h : operations.Keyed) (owner : Principal) (receiver : ReceiverId)
    (submission : OperationSubmission) :
    operations.blank.retried owner receiver submission =
      (operations.retried owner receiver submission).map (Option.map (OperationSnapshot.blankFor owner)) := by
  unfold retried
  rw [keyed?_blank h, identical?_blank]
  have hclosed : operations.blank.closed = operations.closed := rfl
  rw [hclosed]
  split_ifs
  · rfl
  · cases operations.keyed? owner submission.idempotencyKey with
    | none => rfl
    | some existing =>
      have hreceiver : (existing.blankFor owner).receiver = existing.receiver := by cases owner <;> rfl
      have hintent : (existing.blankFor owner).intent = existing.intent := by cases owner <;> rfl
      dsimp only [Option.map_some]
      rw [hreceiver, hintent]
      split_ifs <;> rfl

end Blank

/-! ### Two tables that differ in free text -/

section Alike
variable {operations operations' : Operations} {id : OperationId} {owner : Principal}

theorem entryOf_alike (h : operations.blank = operations'.blank) (id : OperationId) :
    (operations.entryOf id).map Entry.blank = (operations'.entryOf id).map Entry.blank := by
  rw [← entryOf_blank, h, entryOf_blank]

theorem statusOf_alike (h : operations.blank = operations'.blank) (id : OperationId) :
    operations.statusOf id = operations'.statusOf id := by
  rw [← statusOf_blank, h, statusOf_blank]

/-- The two have an entry for the same operations. -/
theorem entryOf_cases (h : operations.blank = operations'.blank) (id : OperationId) :
    operations.entryOf id = none ∧ operations'.entryOf id = none ∨
      ∃ entry entry', operations.entryOf id = some entry ∧ operations'.entryOf id = some entry' ∧
        entry.blank = entry'.blank := by
  have hentry := entryOf_alike h id
  cases hfirst : operations.entryOf id with
  | none =>
    rw [hfirst] at hentry
    exact .inl ⟨rfl, Option.map_eq_none_iff.mp hentry.symm⟩
  | some entry =>
    rw [hfirst] at hentry
    obtain ⟨entry', hsecond, hblank⟩ := Option.map_eq_some_iff.mp hentry.symm
    exact .inr ⟨entry, entry', rfl, hsecond, hblank.symm⟩

theorem blank_eq_iff : operations.blank = operations'.blank ↔
    operations.nextId = operations'.nextId ∧ operations.closed = operations'.closed ∧
      mapValues Entry.blank operations.entries = mapValues Entry.blank operations'.entries ∧
        operations.order = operations'.order ∧ operations.keys = operations'.keys := by
  cases operations
  cases operations'
  exact Operations.mk.injEq .. ▸ Iff.rfl

theorem insert_alike (h : operations.blank = operations'.blank) (id : OperationId) {entry entry' : Entry}
    (hentry : entry.blank = entry'.blank) :
    blank { operations with entries := AList.insert id entry operations.entries } =
      blank { operations' with entries := AList.insert id entry' operations'.entries } := by
  obtain ⟨hnextId, hclosed, hentries, horder, hkeys⟩ := blank_eq_iff.mp h
  refine blank_eq_iff.mpr ⟨hnextId, hclosed, ?_, horder, hkeys⟩
  rw [mapValues_insert, mapValues_insert, hentries, hentry]

theorem map_blank_cases {moved moved' : Option Operations} (h : moved.map blank = moved'.map blank) :
    moved = none ∧ moved' = none ∨
      ∃ next next', moved = some next ∧ moved' = some next' ∧ next.blank = next'.blank := by
  cases moved with
  | none => exact .inl ⟨rfl, Option.map_eq_none_iff.mp h.symm⟩
  | some next =>
    obtain ⟨next', rfl, hnext⟩ := Option.map_eq_some_iff.mp h.symm
    exact .inr ⟨next, next', rfl, rfl, hnext.symm⟩

/-- A change that is the same but for free text. -/
theorem transition_alike (h : operations.blank = operations'.blank) {change change' : OperationSnapshot → Option OperationSnapshot}
    (hchange : ∀ entry entry' : Entry, operations.entryOf id = some entry → entry.blank = entry'.blank →
      (change entry.snapshot).map (OperationSnapshot.blankFor entry.owner) =
        (change' entry'.snapshot).map (OperationSnapshot.blankFor entry.owner)) :
    (operations.transition id change).map blank = (operations'.transition id change').map blank := by
  unfold transition
  rcases entryOf_cases h id with ⟨hnone, hnone'⟩ | ⟨entry, entry', hentry, hentry', hblank⟩
  · rw [hnone, hnone']
    rfl
  · have hchanged := hchange entry entry' hentry hblank
    obtain ⟨howner, hkey, -⟩ := Entry.blank_eq_iff.mp hblank
    rw [hentry, hentry']
    dsimp only [bind, Option.bind_some]
    cases hnext : change entry.snapshot with
    | none =>
      rw [hnext] at hchanged
      rw [Option.map_eq_none_iff.mp hchanged.symm]
      rfl
    | some snapshot =>
      rw [hnext] at hchanged
      obtain ⟨snapshot', hnext', hsnapshot⟩ := Option.map_eq_some_iff.mp hchanged.symm
      rw [hnext']
      exact congrArg some (insert_alike h id (Entry.blank_eq_iff.mpr ⟨howner, hkey, hsnapshot.symm⟩))

theorem moveFrom_alike (h : operations.blank = operations'.blank) (id : OperationId) (start next : OperationStatus) :
    (operations.moveFrom id start next).map blank = (operations'.moveFrom id start next).map blank := by
  refine transition_alike h fun entry entry' _ hblank => ?_
  obtain ⟨-, -, hsnapshot⟩ := Entry.blank_eq_iff.mp hblank
  obtain ⟨hid, hreceiver, hintent, hstatus, hdispatch, hconfirmed, hreason, hobservation⟩ := blankFor_eq_iff.mp hsnapshot
  rw [hstatus]
  split_ifs
  · exact congrArg some (blankFor_eq_iff.mpr ⟨hid, hreceiver, hintent, rfl, hdispatch, hconfirmed, hreason, hobservation⟩)
  · rfl

theorem finish_alike (h : operations.blank = operations'.blank) {resolution resolution' : Resolution}
    (hresolution : resolution.blankFor owner = resolution'.blankFor owner)
    (howner : ∀ entry, operations.entryOf id = some entry → entry.owner = owner) :
    (operations.finish id resolution).map blank = (operations'.finish id resolution').map blank := by
  refine transition_alike h fun entry entry' hentry hblank => ?_
  obtain ⟨-, -, hsnapshot⟩ := Entry.blank_eq_iff.mp hblank
  obtain ⟨hid, hreceiver, hintent, hstatus, -⟩ := blankFor_eq_iff.mp hsnapshot
  obtain ⟨hended, hdispatch, hconfirmed, hreason, hobservation⟩ := Resolution.blankFor_eq_iff.mp hresolution
  rw [hstatus]
  split_ifs
  · rfl
  · rw [howner entry hentry]
    exact congrArg some
      (blankFor_eq_iff.mpr ⟨hid, hreceiver, hintent, hended, hdispatch, hconfirmed, hreason, hobservation⟩)

theorem dropTask_alike (h : operations.blank = operations'.blank) (id : OperationId) :
    (operations.dropTask id).map blank = (operations'.dropTask id).map blank := by
  refine transition_alike h fun entry entry' _ hblank => ?_
  obtain ⟨-, -, hsnapshot⟩ := Entry.blank_eq_iff.mp hblank
  obtain ⟨hid, hreceiver, hintent, hstatus, -, -, -, hobservation⟩ := blankFor_eq_iff.mp hsnapshot
  rw [hstatus]
  split_ifs
  · rfl
  · exact congrArg some (blankFor_eq_iff.mpr ⟨hid, hreceiver, hintent, rfl, rfl, rfl, fun _ => rfl, hobservation⟩)

/-- What is tried leaves the table alike, whether it succeeds or not. -/
theorem getD_alike (h : operations.blank = operations'.blank) {moved moved' : Option Operations}
    (hmoved : moved.map blank = moved'.map blank) : (moved.getD operations).blank = (moved'.getD operations').blank := by
  rw [← Option.getD_map blank, ← Option.getD_map blank, hmoved, h]

theorem endedAs_alike (h : operations.blank = operations'.blank) (id : OperationId) :
    (operations.endedAs id).map Resolution.quiet = (operations'.endedAs id).map Resolution.quiet := by
  unfold endedAs
  rcases entryOf_cases h id with ⟨hnone, hnone'⟩ | ⟨entry, entry', hentry, hentry', hblank⟩
  · rw [hnone, hnone']
  · obtain ⟨-, -, hsnapshot⟩ := Entry.blank_eq_iff.mp hblank
    obtain ⟨-, -, -, hstatus, hdispatch, hconfirmed, -, hobservation⟩ := blankFor_eq_iff.mp hsnapshot
    rw [hentry, hentry', Option.bind_some, Option.bind_some]
    dsimp only
    rw [hstatus, hdispatch, hconfirmed, hobservation]
    split_ifs <;> rfl

/-- What a viewer may see: in both tables or in neither. -/
theorem watchOperation_cases (h : operations.blank = operations'.blank) (viewer : Principal) (id : OperationId) :
    (∃ error, operations.watchOperation viewer id = .error error ∧ operations'.watchOperation viewer id = .error error) ∨
      ∃ entry entry', operations.entryOf id = some entry ∧ operations'.entryOf id = some entry' ∧
        entry.blank = entry'.blank ∧ (viewer = .operator ∨ entry.owner = viewer) ∧
          operations.watchOperation viewer id = .ok entry.snapshot ∧
            operations'.watchOperation viewer id = .ok entry'.snapshot := by
  unfold watchOperation
  rcases entryOf_cases h id with ⟨hnone, hnone'⟩ | ⟨entry, entry', hentry, hentry', hblank⟩
  · rw [hnone, hnone']
    exact .inl ⟨_, rfl, rfl⟩
  · obtain ⟨howner, -⟩ := Entry.blank_eq_iff.mp hblank
    rw [hentry, hentry']
    dsimp only
    rw [← howner]
    split_ifs with hvisible
    · exact .inr ⟨entry, entry', rfl, rfl, hblank, hvisible, rfl, rfl⟩
    · exact .inl ⟨_, rfl, rfl⟩

theorem withdraw_alike (h : operations.blank = operations'.blank) (id : OperationId) :
    (operations.transition id fun snapshot =>
        if snapshot.status.isCancellable then some { snapshot with status := .cancelled } else none).map blank =
      (operations'.transition id fun snapshot =>
        if snapshot.status.isCancellable then some { snapshot with status := .cancelled } else none).map blank := by
  refine transition_alike h fun entry entry' _ hblank => ?_
  obtain ⟨-, -, hsnapshot⟩ := Entry.blank_eq_iff.mp hblank
  obtain ⟨hid, hreceiver, hintent, hstatus, hrest⟩ := blankFor_eq_iff.mp hsnapshot
  rw [hstatus]
  split_ifs
  · exact congrArg some (blankFor_eq_iff.mpr ⟨hid, hreceiver, hintent, rfl, hrest⟩)
  · rfl

/-- A cancellation wins in both tables or in neither. -/
theorem cancel_cases (h : operations.blank = operations'.blank) (viewer : Principal) (id : OperationId) :
    (∃ error error', operations.cancel viewer id = .error error ∧ operations'.cancel viewer id = .error error') ∨
      ∃ next next' snapshot snapshot', operations.cancel viewer id = .ok (next, snapshot) ∧
        operations'.cancel viewer id = .ok (next', snapshot') ∧ next.blank = next'.blank ∧
          (viewer ≠ .operator → snapshot = snapshot') := by
  unfold cancel
  rcases watchOperation_cases h viewer id with
    ⟨error, hwatch, hwatch'⟩ | ⟨entry, entry', hentry, hentry', hblank, hvisible, hwatch, hwatch'⟩
  · rw [hwatch, hwatch']
    exact .inl ⟨_, _, rfl, rfl⟩
  · obtain ⟨-, -, hsnapshot⟩ := Entry.blank_eq_iff.mp hblank
    obtain ⟨-, -, -, hstatus, -⟩ := blankFor_eq_iff.mp hsnapshot
    rw [hwatch, hwatch']
    dsimp only [bind, Except.bind]
    rw [← hstatus]
    split_ifs with hcancellable
    · have hmoved := withdraw_alike h id
      generalize operations.transition id _ = moved, operations'.transition id _ = moved' at hmoved
      rcases map_blank_cases hmoved with ⟨rfl, rfl⟩ | ⟨next, next', rfl, rfl, hnext⟩
      · exact .inl ⟨_, _, rfl, rfl⟩
      · refine .inr ⟨next, next', _, _, rfl, rfl, hnext, fun hviewer => ?_⟩
        rw [Entry.snapshot_eq_of_blank_eq hblank fun howner =>
          hvisible.elim hviewer fun hmine => hviewer (hmine.symm.trans howner)]
    · exact .inl ⟨_, _, rfl, rfl⟩

end Alike

end Operations

/-! ### Admission -/

/-- The caller is given the operation. -/
def Admission.blankFor (owner : Principal) : Admission → Admission
  | .new snapshot => .new snapshot
  | .existing snapshot => .existing (snapshot.blankFor owner)

theorem countNew_blank (limits : AgentLimits) (operations : Operations) (writes : Writes) (owner : Principal) (now : Instant) :
    countNew limits operations.blank writes owner now = countNew limits operations writes owner now := by
  unfold countNew admitWrite
  cases owner with
  | operator => rfl
  | agent label =>
    dsimp only
    rw [Operations.unfinishedOf_blank]

theorem admitRequest_blank {operations : Operations} (h : operations.Keyed) (limits : AgentLimits) (retained : ℕ)
    (writes : Writes) (owner : Principal) (receiver : ReceiverId) (submission : OperationSubmission) (now : Instant) :
    admitRequest limits retained operations.blank writes owner receiver submission now =
      let admitted := admitRequest limits retained operations writes owner receiver submission now
      (admitted.1.blank, admitted.2.1, admitted.2.2.map (Admission.blankFor owner)) := by
  unfold admitRequest
  rw [Operations.retried_blank h, countNew_blank]
  rcases operations.retried owner receiver submission with error | existing
  · rfl
  · cases existing with
    | some existing => rfl
    | none =>
      dsimp only [Except.map, Option.map_none]
      rcases countNew limits operations writes owner now with ⟨writes, error | ⟨⟩⟩
      · rfl
      · dsimp only
        rw [← Operations.evictFinished_blank, ← Operations.add_blank]
        rfl

/-- The two ways a request is answered in two tables. -/
inductive AdmissionAlike (owner : Principal) : Except ControlError Admission → Except ControlError Admission → Prop
  | refused (error : ControlError) : AdmissionAlike owner (.error error) (.error error)
  | existing {snapshot snapshot' : OperationSnapshot} (h : owner ≠ .operator → snapshot = snapshot') :
      AdmissionAlike owner (.ok (.existing snapshot)) (.ok (.existing snapshot'))
  | new (snapshot : OperationSnapshot) : AdmissionAlike owner (.ok (.new snapshot)) (.ok (.new snapshot))

theorem admissionAlike_of_map_eq {owner : Principal} {admission admission' : Except ControlError Admission}
    (h : admission.map (Admission.blankFor owner) = admission'.map (Admission.blankFor owner)) :
    AdmissionAlike owner admission admission' := by
  rcases admission with error | snapshot | snapshot <;> rcases admission' with error' | snapshot' | snapshot'
  · obtain rfl := Except.error.inj h
    exact .refused error
  · cases h
  · cases h
  · cases h
  · obtain rfl := Admission.new.inj (Except.ok.inj h)
    exact .new snapshot
  · cases Except.ok.inj h
  · cases h
  · cases Except.ok.inj h
  · refine .existing fun howner => ?_
    cases owner with
    | operator => exact absurd rfl howner
    | agent label => exact Admission.existing.inj (Except.ok.inj h)

/-- A request, in two tables that differ in free text. -/
theorem admitRequest_alike {operations operations' : Operations} (h : operations.blank = operations'.blank)
    (hkeyed : operations.Keyed) (hkeyed' : operations'.Keyed) (limits : AgentLimits) (retained : ℕ) (writes : Writes)
    (owner : Principal) (receiver : ReceiverId) (submission : OperationSubmission) (now : Instant) :
    let admitted := admitRequest limits retained operations writes owner receiver submission now
    let admitted' := admitRequest limits retained operations' writes owner receiver submission now
    admitted.1.blank = admitted'.1.blank ∧ admitted.2.1 = admitted'.2.1 ∧
      AdmissionAlike owner admitted.2.2 admitted'.2.2 := by
  have hadmitted := admitRequest_blank hkeyed limits retained writes owner receiver submission now
  rw [h, admitRequest_blank hkeyed' limits retained writes owner receiver submission now] at hadmitted
  obtain ⟨hnext, hrest⟩ := Prod.mk.inj hadmitted
  obtain ⟨hwrites, hanswer⟩ := Prod.mk.inj hrest
  exact ⟨hnext.symm, hwrites.symm, admissionAlike_of_map_eq hanswer.symm⟩

/-! ### Tasks and the service -/

/-- An end that an agent may be shown keeps its reason. -/
def Pc.blank (owner : Principal) : Pc → Pc
  | .refusing resolution => .refusing (resolution.blankFor owner)
  | .recordingRefused resolution => .recordingRefused resolution.quiet
  | .recordingRefusal decision digest resolution => .recordingRefusal decision digest (resolution.blankFor owner)
  | .releasing settlement resolution => .releasing settlement (resolution.blankFor owner)
  | .settling settlement resolution shown =>
    .settling settlement (resolution.blankShown owner shown) shown
  | .finishing resolution shown => .finishing (resolution.blankShown owner shown) shown
  | .reviewing resolution => .reviewing resolution.quiet
  | .recording resolution => .recording resolution.quiet
  | .closing resolution => .closing (resolution.blankFor owner)
  | pc => pc

def Task.blank (task : Task) : Task := { task with pc := task.pc.blank task.owner }

/-- The two differ in free text that agents are not shown. -/
structure Service.Alike (s t : Service) : Prop where
  operations : s.operations.blank = t.operations.blank
  policy : s.policy.toOption = t.policy.toOption
  books : s.books = t.books
  auditOk : s.auditOk = t.auditOk
  rebuilding : s.rebuilding = t.rebuilding
  refusals : s.refusals = t.refusals
  writes : s.writes = t.writes
  tasks : ∀ id, (s.tasks id).map Task.blank = (t.tasks id).map Task.blank
  inFlight : s.inFlight = t.inFlight

/-- A task's next place, and what it made of the service. -/
def StepAlike (owner : Principal) (next next' : Service × Pc) : Prop :=
  next.1.Alike next'.1 ∧ next.2.blank owner = next'.2.blank owner

section Step
variable {cfg : Settings} {s t : Service} {id : OperationId} {task : Task} {w w' : World} {owner : Principal} {pc pc' : Pc}

theorem Service.Alike.refl (s : Service) : s.Alike s :=
  ⟨rfl, rfl, rfl, rfl, rfl, rfl, rfl, fun _ => rfl, rfl⟩

theorem Service.Alike.note (h : s.Alike t) (event event' : Event) : (s.note event).Alike (t.note event') :=
  { h with }

theorem Service.Alike.append (h : s.Alike t) (record record' : AuditRecord) (ok : Bool) :
    (s.append record ok).Alike (t.append record' ok) :=
  { h with auditOk := rfl }

theorem Service.Alike.settle (h : s.Alike t) (settlement : Settlement) (dispatched : Bool) :
    (s.settle settlement dispatched).Alike (t.settle settlement dispatched) :=
  { h with books := congrArg (fun books => books.settle settlement dispatched) h.books }

theorem rebuild_blank (records : List AuditRecord) (now : WallTime) :
    Ledger.rebuild (records.map AuditRecord.blank) now = Ledger.rebuild records now := by
  have hnot : AuditRecord.notDispatched? ∘ AuditRecord.blank = AuditRecord.notDispatched? := by
    funext record
    rcases record with ⟨_, _, _, _, _, _, event⟩
    cases event with
    | finished status dispatch confirmed reason => cases dispatch <;> rfl
    | _ => rfl
  have hentry : ∀ keys, AuditRecord.ledgerEntry keys ∘ AuditRecord.blank = AuditRecord.ledgerEntry keys := by
    intro keys
    funext record
    rcases record with ⟨_, _, _, _, _, _, event⟩
    cases event with
    | finished status dispatch confirmed reason => cases dispatch <;> rfl
    | _ => rfl
  simp only [Ledger.rebuild, List.filterMap_map, hnot, hentry]

theorem Service.Alike.takeIn (h : s.Alike t) {records records' : List AuditRecord}
    (hrecords : records.map AuditRecord.blank = records'.map AuditRecord.blank) (now : WallTime) :
    (s.takeIn records now).Alike (t.takeIn records' now) := by
  refine { h with books := ?_, rebuilding := rfl }
  show Books.mk _ _ = Books.mk _ _
  rw [← rebuild_blank records, hrecords, rebuild_blank, h.books]

theorem except_cases {ε α : Type} {result result' : Except ε α} (h : result.toOption = result'.toOption) :
    (∃ error error', result = .error error ∧ result' = .error error') ∨
      ∃ value, result = .ok value ∧ result' = .ok value := by
  rcases result with error | value <;> rcases result' with error' | value'
  · exact .inl ⟨error, error', rfl, rfl⟩
  · cases h
  · cases h
  · obtain rfl := Option.some.inj h
    exact .inr ⟨value, rfl, rfl⟩

theorem toOption_mapError {ε ε' α : Type} (f : ε → ε') (result : Except ε α) :
    (result.mapError f).toOption = result.toOption := by
  cases result <;> rfl

theorem fixedReason_blank (outcome : OperationOutcome) : fixedReason outcome.blank = fixedReason outcome := by
  cases outcome <;> rfl

theorem quiet_resolve_blank (outcome : OperationOutcome) : (resolve outcome.blank).quiet = (resolve outcome).quiet := by
  cases outcome <;> rfl

/-- What the session's text is replaced by for an agent. -/
theorem blankShown_resolve_blank (label : AgentLabel) (outcome : OperationOutcome) :
    (resolve outcome.blank).blankShown (.agent label) (fixedReason outcome) =
      (resolve outcome).blankShown (.agent label) (fixedReason outcome) := by
  cases outcome <;> rfl

theorem judgeStep_alike (h : s.Alike t) (job : Job) (label : AgentLabel) (policy : ActivePolicy) (hw : w.now = w'.now)
    (hstate : w.state = w'.state) :
    StepAlike (.agent label) (judgeStep cfg s id job label policy w) (judgeStep cfg t id job label policy w') := by
  unfold judgeStep
  rw [← h.books, hw, hstate]
  rcases s.books.judge cfg.run w'.now policy.config label.value job.receiver job.intent w'.state id with
    ⟨books, decision | decision | ⟨decision, precondition, settlement⟩⟩
  · exact ⟨h.note _ _, rfl⟩
  · exact ⟨h.note _ _, rfl⟩
  · exact ⟨{ h with books := rfl }, rfl⟩

/-- **A step of a task.** Where it leads, and what it does to the service, does not depend on free text. -/
theorem advance_alike (h : s.Alike t) (hw : w.blank = w'.blank)
    (howner : ∀ entry, s.operations.entryOf id = some entry → entry.owner = task.owner) :
    Option.Rel (StepAlike task.owner) (advance cfg s id task w) (advance cfg t id task.blank w') := by
  obtain ⟨⟨owner, receiver, intent⟩, pc⟩ := task
  obtain ⟨now, instant, state, lease, appended, log, outcome⟩ := w
  obtain ⟨now', instant', state', lease', appended', log', outcome'⟩ := w'
  obtain ⟨rfl, rfl, rfl, hlease, rfl, hlog, houtcome⟩ := World.mk.inj hw
  dsimp only at hlease hlog houtcome howner
  unfold advance
  cases pc with
  | precheck =>
    refine .some ⟨h, ?_⟩
    rcases except_cases h.policy with ⟨error, error', hpolicy, hpolicy'⟩ | ⟨policy, hpolicy, hpolicy'⟩
    · rw [hpolicy, hpolicy']
      cases owner <;> rfl
    · rw [hpolicy, hpolicy']
  | ledger =>
    refine .some ⟨h, ?_⟩
    dsimp only
    rw [h.books]
  | rebuilding =>
    dsimp only [Task.blank, Pc.blank]
    rw [← h.rebuilding, ← h.books]
    split_ifs
    · exact .none
    · exact .some ⟨h, rfl⟩
    · exact .some ⟨{ h with books := rfl, rebuilding := rfl }, rfl⟩
  | readingLog =>
    dsimp only [Task.blank, Pc.blank]
    rw [← h.rebuilding]
    rcases s.rebuilding with _ | ⟨holder, since⟩
    · exact .none
    dsimp only
    split_ifs
    · cases log with
      | none =>
        obtain rfl := Option.map_eq_none_iff.mp hlog.symm
        exact .some ⟨{ h with rebuilding := rfl }, by cases owner <;> rfl⟩
      | some records =>
        obtain ⟨records', rfl, hrecords⟩ := Option.map_eq_some_iff.mp hlog.symm
        exact .some ⟨h.takeIn hrecords.symm since, rfl⟩
    · exact .none
  | refusing resolution =>
    refine .some ⟨{ h with operations := ?_ }, congrArg Pc.recordingRefused Resolution.quiet_blankFor.symm⟩
    exact Operations.getD_alike h.operations
      (Operations.finish_alike h.operations Resolution.blankFor_blankFor.symm howner)
  | recordingRefused resolution =>
    dsimp only [Task.blank, Pc.blank]
    rw [← h.refusals]
    split_ifs
    · refine .some ⟨{ h with refusals := rfl }, congrArg Pc.recording ?_⟩
      unfold Resolution.withSkipped
      split_ifs <;> rfl
    · exact .some ⟨{ h with refusals := rfl }, rfl⟩
  | leasing =>
    dsimp only [Task.blank, Pc.blank]
    have hleased : lease.toOption = lease'.toOption := by
      rw [← toOption_mapError (fun _ => ""), hlease, toOption_mapError]
    rcases except_cases hleased with ⟨error, error', rfl, rfl⟩ | ⟨⟨⟩, rfl, rfl⟩ <;> cases owner <;> exact .some ⟨h, rfl⟩
  | deciding =>
    dsimp only [Task.blank, Pc.blank]
    rcases except_cases h.policy with ⟨error, error', hpolicy, hpolicy'⟩ | ⟨policy, hpolicy, hpolicy'⟩ <;>
      rw [hpolicy, hpolicy']
    · exact .some ⟨h, by cases owner <;> rfl⟩
    · exact .some ⟨h.note _ _, rfl⟩
  | judging policy =>
    cases owner with
    | operator => exact .none
    | agent label => exact .some (judgeStep_alike h _ label policy rfl rfl)
  | recordingRefusal decision digest resolution =>
    exact .some ⟨h.append _ _ _, congrArg (Pc.finishing · none) Resolution.blankFor_blankFor.symm⟩
  | allowing grant =>
    dsimp only [Task.blank, Pc.blank]
    rcases Operations.map_blank_cases (Operations.moveFrom_alike h.operations id .submitted .allowed) with
      ⟨hmoved, hmoved'⟩ | ⟨next, next', hmoved, hmoved', hnext⟩ <;> rw [hmoved, hmoved']
    · exact .some ⟨h, rfl⟩
    · exact .some ⟨{ h with operations := hnext }, rfl⟩
  | recordingDecided grant | recordingDispatching grant => exact .some ⟨h.append _ _ _, rfl⟩
  | checking grant =>
    refine .some ⟨h, ?_⟩
    dsimp only
    rw [Operations.statusOf_alike h.operations]
  | releasing settlement resolution =>
    exact .some ⟨h.settle _ _, congrArg (Pc.finishing · none) Resolution.blankFor_blankFor.symm⟩
  | reserving =>
    dsimp only [Task.blank, Pc.blank]
    rw [← h.books]
    exact .some ⟨{ h with books := rfl }, rfl⟩
  | notingDecided place settlement =>
    dsimp only [Task.blank, Pc.blank]
    rw [← h.auditOk]
    split_ifs
    · exact .some ⟨h.append _ _ _, rfl⟩
    · exact .some ⟨h.append _ _ _, rfl⟩
    · exact .some ⟨h, rfl⟩
  | notingDispatching place settlement => exact .some ⟨h.append _ _ _, rfl⟩
  | beginning precondition settlement =>
    dsimp only [Task.blank, Pc.blank]
    rcases Operations.map_blank_cases (Operations.moveFrom_alike h.operations id .allowed .inSession) with
      ⟨hmoved, hmoved'⟩ | ⟨next, next', hmoved, hmoved', hnext⟩ <;> unfold Operations.beginSession <;> rw [hmoved, hmoved']
    · exact .some ⟨h, rfl⟩
    · exact .some ⟨{ h with operations := hnext }, rfl⟩
  | withdrawing settlement => exact .some ⟨h.settle _ _, rfl⟩
  | calling precondition settlement => exact .some ⟨h.note _ _, rfl⟩
  | inSession settlement =>
    refine .some ⟨h.note _ _, ?_⟩
    cases owner with
    | operator =>
      have hquiet : (resolve outcome).quiet = (resolve outcome').quiet := by
        rw [← quiet_resolve_blank, houtcome, quiet_resolve_blank]
      exact congrArg (Pc.settling settlement · none) hquiet
    | agent label =>
      dsimp only [Task.blank, Pc.blank]
      have hshown : fixedReason outcome = fixedReason outcome' := by
        rw [← fixedReason_blank, houtcome, fixedReason_blank]
      have hresolved := blankShown_resolve_blank label outcome
      rw [houtcome, hshown, blankShown_resolve_blank label outcome'] at hresolved
      rw [hshown, hresolved]
  | settling settlement resolution shown =>
    dsimp only [Task.blank, Pc.blank]
    rw [Resolution.dispatch_blankShown]
    exact .some ⟨h.settle _ _, congrArg (Pc.finishing · shown) Resolution.blankShown_blankShown.symm⟩
  | finishing resolution shown =>
    dsimp only [Task.blank, Pc.blank]
    have hquiet : resolution.quiet = (resolution.blankShown owner shown).quiet := Resolution.quiet_blankShown.symm
    rcases Operations.map_blank_cases (Operations.finish_alike h.operations
      (Resolution.blankFor_shown owner shown resolution) howner) with
      ⟨hmoved, hmoved'⟩ | ⟨next, next', hmoved, hmoved', hnext⟩ <;> rw [hmoved, hmoved']
    · exact .some ⟨h, congrArg Pc.reviewing hquiet⟩
    · exact .some ⟨{ h with operations := hnext }, congrArg Pc.recording hquiet⟩
  | reviewing resolution =>
    refine .some ⟨h, congrArg Pc.recording ?_⟩
    rw [← Option.getD_map Resolution.quiet, ← Option.getD_map Resolution.quiet, Operations.endedAs_alike h.operations]
    rfl
  | recording resolution => exact .some ⟨h.append _ _ _, rfl⟩
  | closing resolution =>
    refine .some ⟨{ h with operations := ?_ }, rfl⟩
    exact Operations.getD_alike h.operations
      (Operations.finish_alike h.operations Resolution.blankFor_blankFor.symm howner)
  | ended => exact .none

theorem Service.Alike.symm (h : s.Alike t) : t.Alike s :=
  ⟨h.operations.symm, h.policy.symm, h.books.symm, h.auditOk.symm, h.rebuilding.symm, h.refusals.symm, h.writes.symm,
    fun id => (h.tasks id).symm, h.inFlight.symm⟩

theorem Service.Alike.trans {u : Service} (h : s.Alike t) (h' : t.Alike u) : s.Alike u :=
  ⟨h.operations.trans h'.operations, h.policy.trans h'.policy, h.books.trans h'.books, h.auditOk.trans h'.auditOk,
    h.rebuilding.trans h'.rebuilding, h.refusals.trans h'.refusals, h.writes.trans h'.writes,
    fun id => (h.tasks id).trans (h'.tasks id), h.inFlight.trans h'.inFlight⟩

theorem tasks_alike_cases (h : s.Alike t) (id : OperationId) :
    s.tasks id = none ∧ t.tasks id = none ∨
      ∃ task task', s.tasks id = some task ∧ t.tasks id = some task' ∧ task.blank = task'.blank := by
  have htasks := h.tasks id
  cases htask : s.tasks id with
  | none =>
    rw [htask] at htasks
    exact .inl ⟨rfl, Option.map_eq_none_iff.mp htasks.symm⟩
  | some task =>
    rw [htask] at htasks
    obtain ⟨task', htask', hblank⟩ := Option.map_eq_some_iff.mp htasks.symm
    exact .inr ⟨task, task', rfl, htask', hblank.symm⟩

/-- Steps of two tasks that are alike. -/
theorem advance_alike_of_blank_eq (h : s.Alike t) (hw : w.blank = w'.blank) {task' : Task} (htask : task.blank = task'.blank)
    (howner : ∀ entry, s.operations.entryOf id = some entry → entry.owner = task.owner)
    (howner' : ∀ entry, t.operations.entryOf id = some entry → entry.owner = task'.owner) :
    Option.Rel (StepAlike task.owner) (advance cfg s id task w) (advance cfg t id task' w') := by
  have hsame : task.owner = task'.owner := congrArg (fun task => task.owner) htask
  have hfirst : Option.Rel (StepAlike task.owner) (advance cfg s id task w) (advance cfg t id task.blank w') :=
    advance_alike h hw howner
  have hsecond : Option.Rel (StepAlike task'.owner) (advance cfg t id task' w') (advance cfg t id task'.blank w') :=
    advance_alike (.refl t) rfl howner'
  rw [← htask, ← hsame] at hsecond
  exact rel_join (fun _ _ _ hfirst hsecond => ⟨hfirst.1.trans hsecond.1.symm, hfirst.2.trans hsecond.2.symm⟩) hfirst hsecond

end Step

/-! ### Steps of the service -/

section Service
variable {cfg : Settings} {s s' t : Service} {id : OperationId} {caller : Principal}

theorem keyed_of_gate (h : (gate cfg).Reachable s) : s.operations.Keyed := keyed_of_reachable (table_of_gate h)

/-! ### Two services -/

theorem submit_alike (h : s.Alike t) (hkeyed : s.operations.Keyed) (hkeyed' : t.operations.Keyed) (caller : Principal)
    (receiver : ReceiverId) (submission : OperationSubmission) (now : Instant) :
    (s.submit cfg caller receiver submission now).1.Alike (t.submit cfg caller receiver submission now).1 ∧
      (caller ≠ .operator →
        (s.submit cfg caller receiver submission now).2 = (t.submit cfg caller receiver submission now).2) := by
  unfold Service.submit
  split_ifs
  · exact ⟨h, fun _ => rfl⟩
  have hadmitted := admitRequest_alike h.operations hkeyed hkeyed' cfg.limits cfg.retained s.writes caller receiver
    submission now
  rw [← h.writes]
  generalize admitRequest cfg.limits cfg.retained s.operations s.writes caller receiver submission now = admitted,
    admitRequest cfg.limits cfg.retained t.operations s.writes caller receiver submission now = admitted' at hadmitted
  obtain ⟨operations, writes, answer⟩ := admitted
  obtain ⟨operations', writes', answer'⟩ := admitted'
  obtain ⟨hoperations, rfl, hanswer⟩ := hadmitted
  cases hanswer with
  | refused error => exact ⟨{ h with operations := hoperations, writes := rfl }, fun _ => rfl⟩
  | existing hsnapshot =>
    exact ⟨{ h with operations := hoperations, writes := rfl }, fun hagent => congrArg Except.ok (hsnapshot hagent)⟩
  | new snapshot =>
    refine ⟨{ h with operations := hoperations, writes := rfl, tasks := fun id => ?_
                     inFlight := congrArg (· + 1) h.inFlight }, fun _ => rfl⟩
    dsimp only
    by_cases heq : id = snapshot.id
    · rw [heq, Function.update_self, Function.update_self]
    · rw [Function.update_of_ne heq, Function.update_of_ne heq]
      exact h.tasks id

theorem Pc.blank_eq_ended {owner : Principal} {pc : Pc} : pc.blank owner = .ended ↔ pc = .ended := by
  cases pc <;> simp [Pc.blank]

theorem Service.Alike.setTask (h : s.Alike t) (id : OperationId) {task task' : Task} (htask : task.blank = task'.blank) :
    (s.setTask id task).Alike (t.setTask id task') := by
  refine { h with tasks := fun other => ?_ }
  show (Function.update s.tasks id (some task) other).map _ = (Function.update t.tasks id (some task') other).map _
  by_cases heq : other = id
  · rw [heq, Function.update_self, Function.update_self]
    exact congrArg some htask
  · rw [Function.update_of_ne heq, Function.update_of_ne heq]
    exact h.tasks other

theorem Service.Alike.endTask (h : s.Alike t) (id : OperationId) : (s.endTask id).Alike (t.endTask id) :=
  { h with
    operations := Operations.getD_alike h.operations (Operations.dropTask_alike h.operations id)
    inFlight := congrArg (· - 1) h.inFlight }

theorem Task.blank_eq_iff {task task' : Task} :
    task.blank = task'.blank ↔ task.toJob = task'.toJob ∧ task.pc.blank task.owner = task'.pc.blank task.owner := by
  obtain ⟨job, pc⟩ := task
  obtain ⟨job', pc'⟩ := task'
  unfold Task.blank
  rw [Task.mk.injEq]
  constructor
  · rintro ⟨rfl, hpc⟩
    exact ⟨rfl, hpc⟩
  · rintro ⟨rfl, hpc⟩
    exact ⟨rfl, hpc⟩

theorem Task.blank_eq_move {task task' : Task} {pc pc' : Pc} (h : task.blank = task'.blank)
    (hpc : pc.blank task.owner = pc'.blank task.owner) : ({ task with pc } : Task).blank = ({ task' with pc := pc' } : Task).blank :=
  Task.blank_eq_iff.mpr ⟨(Task.blank_eq_iff.mp h).1, hpc⟩

@[simp] theorem blankLog_blankLog (log : Option (List AuditRecord)) : blankLog (blankLog log) = blankLog log := by
  have hblank : AuditRecord.blank ∘ AuditRecord.blank = AuditRecord.blank := by
    funext record
    rcases record with ⟨_, _, _, _, _, _, event⟩
    cases event <;> rfl
  cases log with
  | none => rfl
  | some records => exact congrArg some (by rw [List.map_map, hblank])

theorem World.blank_blank (w : World) : w.blank.blank = w.blank := by
  obtain ⟨now, instant, state, lease, appended, log, outcome⟩ := w
  unfold World.blank
  rw [blankLog_blankLog]
  cases lease <;> cases outcome <;> rfl

/-- A step and the step without its free text. -/
theorem step_blank (h : s.Alike t) (hs : (gate cfg).Reachable s) (ht : (gate cfg).Reachable t) (a : Action) :
    Option.Rel Service.Alike (s.step cfg a) (t.step cfg a.blank) := by
  cases a with
  | submit caller receiver submission now =>
    exact .some (submit_alike h (keyed_of_gate hs) (keyed_of_gate ht) caller receiver submission now).1
  | cancel viewer id =>
    simp only [Service.step, Action.blank]
    rcases Operations.cancel_cases h.operations viewer id with
      ⟨error, error', hcancel, hcancel'⟩ | ⟨next, next', snapshot, snapshot', hcancel, hcancel', hnext, -⟩ <;>
      rw [hcancel, hcancel']
    · exact .some h
    · exact .some { h with operations := hnext }
  | advance id w =>
    show Option.Rel _ ((s.tasks id).bind _) ((t.tasks id).bind _)
    rcases tasks_alike_cases h id with ⟨hnone, hnone'⟩ | ⟨task, task', htask, htask', hblank⟩
    · rw [hnone, hnone']
      exact .none
    · rw [htask, htask', Option.bind_some, Option.bind_some]
      refine rel_bind (advance_alike_of_blank_eq h w.blank_blank.symm hblank
        (fun entry hentry => congrArg Job.owner (assigned_of_reachable hs id task entry htask hentry))
        fun entry hentry => congrArg Job.owner (assigned_of_reachable ht id task' entry htask' hentry)) ?_
      rintro ⟨next, pc⟩ ⟨next', pc'⟩ ⟨hnext, hpc⟩
      have hended : pc = .ended ↔ pc' = .ended := by
        rw [← Pc.blank_eq_ended, hpc, Pc.blank_eq_ended]
      have hmoved := hnext.setTask id (Task.blank_eq_move hblank hpc)
      refine .some ?_
      by_cases hover : pc = .ended
      · rw [if_pos hover, if_pos (hended.mp hover)]
        exact hmoved.endTask id
      · rw [if_neg hover, if_neg (hover ∘ hended.mpr)]
        exact hmoved
  | panic id =>
    show Option.Rel _ ((s.tasks id).bind _) ((t.tasks id).bind _)
    rcases tasks_alike_cases h id with ⟨hnone, hnone'⟩ | ⟨task, task', htask, htask', hblank⟩
    · rw [hnone, hnone']
      exact .none
    · rw [htask, htask', Option.bind_some, Option.bind_some]
      have hended : task.pc = .ended ↔ task'.pc = .ended := by
        rw [← Pc.blank_eq_ended, (Task.blank_eq_iff.mp hblank).2, Pc.blank_eq_ended]
      by_cases hover : task.pc = .ended
      · rw [if_pos hover, if_pos (hended.mp hover)]
        exact .none
      · rw [if_neg hover, if_neg (hover ∘ hended.mpr)]
        have hheld : Service.Alike
            { s with rebuilding := if s.rebuilding.any fun rebuilding => rebuilding.1 == some id then none else s.rebuilding }
            { t with rebuilding := if t.rebuilding.any fun rebuilding => rebuilding.1 == some id then none else t.rebuilding } :=
          { h with rebuilding := by rw [h.rebuilding] }
        exact .some ((hheld.setTask id (Task.blank_eq_move hblank rfl)).endTask id)
  | loadPolicy loaded now =>
    refine .some { h with policy := ?_ }
    cases loaded <;> rfl
  | noteElsewhere principal event now ok => exact .some (h.append _ _ _)
  | rebuildElsewhere now =>
    simp only [Service.step, Action.blank]
    rw [← h.rebuilding, ← h.books]
    split_ifs
    · exact .none
    · exact .some { h with books := rfl, rebuilding := rfl }
  | readElsewhere log =>
    simp only [Service.step, Action.blank]
    rw [← h.rebuilding]
    rcases s.rebuilding with _ | ⟨_ | holder, since⟩
    · exact .none
    · cases log with
      | none => exact .some { h with rebuilding := rfl }
      | some records => exact .some (h.takeIn (Option.some.inj (blankLog_blankLog (some records))).symm since)
    · exact .none
  | chargeDryRun label now =>
    refine .some { h with writes := ?_ }
    exact congrArg (fun writes => (chargeWrite cfg.limits writes label now).1) h.writes
  | shutdown =>
    refine .some { h with operations := ?_ }
    obtain ⟨hnextId, -, hrest⟩ := Operations.blank_eq_iff.mp h.operations
    exact Operations.blank_eq_iff.mpr ⟨hnextId, rfl, hrest⟩

end Service

/-! ### What an agent is told -/

section Replies
variable {label : AgentLabel} {receiver : ReceiverId} {caller : Principal}

/-- No error of the connector reads as the service being shut down. -/
theorem text_ne_shutDown (error : OperationError) : error.text ≠ Operations.shutDownText := by
  intro heq
  have hcolon : ':' ∈ error.text.toList := by simp [OperationError.text]
  rw [heq] at hcolon
  revert hcolon
  decide

theorem sanitized_unconnected (error : OperationError) :
    sanitized (.agent label) (.unavailable error.text) = .unavailable receiverUnreachable := by
  unfold sanitized
  rw [if_neg nofun]
  exact if_neg (text_ne_shutDown error)

theorem result_blank {α : Type} (leased : Leased α) :
    leased.blank.result.mapError (sanitized (.agent label)) = leased.result.mapError (sanitized (.agent label)) := by
  cases leased with
  | unread error => rfl
  | unconnected error =>
    show Except.error (sanitized _ (.unavailable error.blank.text)) = Except.error (sanitized _ (.unavailable error.text))
    rw [sanitized_unconnected, sanitized_unconnected]
  | closed | unknown | held session => rfl

theorem receiversReply_blank {Catalog : Type} (hcaller : caller ≠ .operator)
    (loaded : Except OperationError ConfiguredReceivers) (connection : ReceiverId → ConnectionStatus) :
    (receiversReply caller (loaded.mapError OperationError.blank) connection : Reply Catalog) =
      receiversReply caller loaded connection := by
  cases caller with
  | operator => exact absurd rfl hcaller
  | agent label => cases loaded <;> rfl

theorem stateReply_blank {Catalog : Type} (hcaller : caller ≠ .operator) (leased : Leased ReceiverState) :
    (stateReply caller receiver leased.blank : Except ControlError (Answer Catalog)) = stateReply caller receiver leased := by
  cases caller with
  | operator => exact absurd rfl hcaller
  | agent label =>
    unfold stateReply
    rw [result_blank]

theorem isOk_stateReply_blank {Catalog : Type} (caller : Principal) (leased : Leased ReceiverState) :
    (stateReply caller receiver leased.blank : Except ControlError (Answer Catalog)).isOk =
      (stateReply caller receiver leased : Except ControlError (Answer Catalog)).isOk := by
  unfold stateReply
  cases visibleReceiver caller receiver <;> cases leased <;> rfl

theorem sourceCatalogReply_blank {Catalog : Type} (hcaller : caller ≠ .operator)
    (leased : Leased (Except OperationError Catalog)) :
    sourceCatalogReply caller receiver leased.blankRead = sourceCatalogReply caller receiver leased := by
  cases caller with
  | operator => exact absurd rfl hcaller
  | agent label =>
    unfold sourceCatalogReply
    cases visibleReceiver (.agent label) receiver with
    | error error => rfl
    | ok visible =>
      cases leased with
      | held read => cases read <;> rfl
      | unconnected error =>
        show Except.error (sanitized _ (.unavailable error.blank.text)) = Except.error (sanitized _ (.unavailable error.text))
        rw [sanitized_unconnected, sanitized_unconnected]
      | closed | unknown | unread error => rfl

theorem identity_blank (found : Found) (receiver : ReceiverId) :
    found.blank.identity receiver = found.identity receiver ∨
      ∃ error, found.identity receiver = .error (.receiver error) ∧
        found.blank.identity receiver = .error (.receiver error.blank) := by
  obtain ⟨registered, loaded⟩ := found
  unfold Found.identity
  by_cases hadHoc : receiver.isAdHoc = true
  · rw [if_pos hadHoc, if_pos hadHoc]
    exact .inl rfl
  · rw [if_neg hadHoc, if_neg hadHoc]
    cases loaded with
    | error error => exact .inr ⟨error, rfl, rfl⟩
    | ok configuration => exact .inl rfl

/-- The receiver is found, or the caller is told the same. -/
theorem findReceiver_blank (caller : Principal) (receiver : ReceiverId) (found : Found) :
    findReceiver caller receiver found.blank = findReceiver caller receiver found ∨
      ∃ error error', findReceiver caller receiver found = .error error ∧
        findReceiver caller receiver found.blank = .error error' ∧ (caller ≠ .operator → error = error') := by
  unfold findReceiver
  rcases identity_blank found receiver with hsame | ⟨error, hfound, hblank⟩
  · rw [hsame]
    exact .inl rfl
  · rw [hfound, hblank]
    cases visibleReceiver caller receiver with
    | error hidden => exact .inl rfl
    | ok visible =>
      refine .inr ⟨_, _, rfl, rfl, fun hcaller => ?_⟩
      cases caller with
      | operator => exact absurd rfl hcaller
      | agent label => rfl

end Replies

/-! ### Runs of the handles -/

def blankItem (item : Item) : Item := (item.1, item.2.blankFor item.1)

namespace Handles

variable {Catalog : Type} {cfg : Settings} {s s' t : Handles Catalog}

/-- What agents were told. -/
def toldAgents (s : Handles Catalog) : List (Principal × Reply Catalog) := s.told.filter fun told => told.1 ≠ .operator

/-- What holds of the handles in every run: who waits for an operation may see it. -/
structure Sound (cfg : Settings) (s : Handles Catalog) : Prop where
  reached : (gate cfg).Reachable s.service
  current : ∀ id entry, s.service.operations.entryOf id = some entry → s.watched id = some entry
  known : ∀ id entry, s.watched id = some entry → id ≤ s.service.operations.nextId
  waiting : ∀ call ∈ s.calls, ∀ id, call.pc = .waiting id →
    ∃ entry, s.watched id = some entry ∧ (call.caller = .operator ∨ entry.owner = call.caller)

/-- The two differ in free text that agents are not shown. -/
structure Alike (s t : Handles Catalog) : Prop where
  service : s.service.Alike t.service
  watched : ∀ id, (s.watched id).map Entry.blank = (t.watched id).map Entry.blank
  pending : s.pending.map blankItem = t.pending.map blankItem
  opened : s.opened = t.opened
  sent : s.sent.map blankItem = t.sent.map blankItem
  streams : s.streams = t.streams
  subscriptions : s.subscriptions = t.subscriptions
  calls : s.calls = t.calls
  told : s.toldAgents = t.toldAgents

theorem Sound.same (h : s.Sound cfg) (hservice : s'.service = s.service) (hwatched : s'.watched = s.watched)
    (hcalls : ∀ call ∈ s'.calls, call ∈ s.calls ∨ ∀ id, call.pc = .waiting id →
      ∃ entry, s.watched id = some entry ∧ (call.caller = .operator ∨ entry.owner = call.caller)) : s'.Sound cfg := by
  refine ⟨hservice ▸ h.reached, ?_, ?_, fun call hcall id hpc => ?_⟩
  · rw [hservice, hwatched]
    exact h.current
  · rw [hservice, hwatched]
    exact h.known
  · rw [hwatched]
    rcases hcalls call hcall with hold | hnew
    · exact h.waiting call hold id hpc
    · exact hnew id hpc

theorem Sound.follow (h : s.Sound cfg) {action : Action} {service : Service}
    (hstep : s.service.step cfg action = some service) (target : Option OperationId) :
    (s.follow service target).Sound cfg := by
  have hreached := h.reached.step trivial hstep
  have hordered := (tidy_of_reachable (table_of_gate hreached)).ordered
  obtain ⟨acts, hexec⟩ := exec_of_step h.reached hstep
  refine ⟨hreached, fun id entry hentry => ?_, fun id entry hentry => ?_, fun call hcall id hpc => ?_⟩
  · change service.operations.entryOf id = some entry at hentry
    show (service.operations.entryOf id <|> s.watched id) = some entry
    rw [hentry]
    rfl
  · change (service.operations.entryOf id <|> s.watched id) = some entry at hentry
    cases hnow : service.operations.entryOf id with
    | none =>
      rw [hnow] at hentry
      exact (h.known id entry hentry).trans (nextId_le_of_exec hexec)
    | some current => exact (hordered id current hnow).1
  · obtain ⟨entry, hentry, hvisible⟩ := h.waiting call hcall id hpc
    show ∃ entry, (service.operations.entryOf id <|> s.watched id) = some entry ∧ _
    cases hnow : service.operations.entryOf id with
    | none => exact ⟨entry, hentry, hvisible⟩
    | some current =>
      obtain ⟨before, hbefore, hsame, -⟩ := remains_of_exec (tidy_of_reachable (table_of_gate h.reached))
        (h.known id entry hentry) hexec current hnow
      obtain rfl := Option.some.inj ((h.current id before hbefore).symm.trans hentry)
      exact ⟨current, rfl, hvisible.imp_right fun hmine => hsame.owner.trans hmine⟩

theorem Sound.serve (h : s.Sound cfg) {action : Action} (hserve : s.serve cfg action = some s') : s'.Sound cfg := by
  obtain ⟨service, hstep, rfl⟩ := Option.map_eq_some_iff.mp hserve
  exact h.follow hstep _

/-- A call leads nowhere that it waits for an operation at. -/
theorem resume_ne_waiting {call : Call} {w : CallWorld} {action : Option Action} {pc : CallPc}
    (h : s.resume call w = some (action, .inl pc)) (id : OperationId) : pc ≠ .waiting id := by
  obtain ⟨caller, first⟩ := call
  rintro rfl
  cases first with
  | waiting other =>
    obtain ⟨entry, -, hnext⟩ := Option.map_eq_some_iff.mp h
    cases (Prod.mk.inj hnext).2
  | withdrawing other =>
    simp only [resume] at h
    split at h <;> cases (Prod.mk.inj (Option.some.inj h)).2
  | late other => cases (Prod.mk.inj (Option.some.inj h)).2
  | dryRun label receiver intent pc =>
    obtain ⟨⟨made, next⟩, -, hnext⟩ := Option.map_eq_some_iff.mp h
    cases next <;> cases (Prod.mk.inj hnext).2
  | returned => cases h

theorem Sound.step (h : s.Sound cfg) {a : HandleAction Catalog} (hstep : s.step cfg a = some s') : s'.Sound cfg := by
  have hsame : ∀ {s'' : Handles Catalog}, s''.service = s.service → s''.watched = s.watched → s''.calls = s.calls →
      s''.Sound cfg := fun hservice hwatched hcalls => h.same hservice hwatched fun call hcall => .inl (hcalls ▸ hcall)
  cases a with
  | receivers | state | sourceCatalog | health =>
    obtain rfl := Option.some.inj hstep
    exact hsame rfl rfl rfl
  | changed subscription next =>
    obtain ⟨caller, -, rfl⟩ := Option.map_eq_some_iff.mp hstep
    exact hsame rfl rfl rfl
  | submit caller receiver submission found now =>
    simp only [Handles.step] at hstep
    split at hstep
    · obtain rfl := Option.some.inj hstep
      exact hsame rfl rfl rfl
    · obtain ⟨served, hserve, rfl⟩ := Option.map_eq_some_iff.mp hstep
      exact (h.serve hserve).same rfl rfl fun call => .inl
  | operation caller id wait =>
    simp only [Handles.step] at hstep
    split at hstep
    · obtain rfl := Option.some.inj hstep
      exact hsame rfl rfl rfl
    · rename_i current hwatch
      obtain rfl := Option.some.inj hstep
      split_ifs
      · refine h.same rfl rfl fun call hcall => ?_
        rcases List.mem_append.mp hcall with hold | hnew
        · exact .inl hold
        · obtain rfl := List.mem_singleton.mp hnew
          refine .inr fun other hpc => ?_
          obtain rfl := CallPc.waiting.inj hpc
          unfold Operations.watchOperation at hwatch
          split at hwatch
          · rename_i entry hentry
            split_ifs at hwatch with hvisible
            exact ⟨entry, h.current _ entry hentry, hvisible⟩
          · cases hwatch
      · exact hsame rfl rfl rfl
  | cancel caller id =>
    simp only [Handles.step] at hstep
    split at hstep <;> obtain rfl := Option.some.inj hstep
    · exact hsame rfl rfl rfl
    · split_ifs
      · refine h.same rfl rfl fun call hcall => ?_
        rcases List.mem_append.mp hcall with hold | hnew
        · exact .inl hold
        · obtain rfl := List.mem_singleton.mp hnew
          exact .inr nofun
      · exact hsame rfl rfl rfl
  | operationEvents caller =>
    obtain rfl := Option.some.inj hstep
    split_ifs <;> exact hsame rfl rfl rfl
  | next k =>
    obtain ⟨stream, -, hstep⟩ := Option.bind_eq_some_iff.mp hstep
    split at hstep
    · obtain rfl := Option.some.inj hstep
      split_ifs <;> exact hsame rfl rfl rfl
    · split_ifs at hstep
      obtain rfl := Option.some.inj hstep
      exact hsame rfl rfl rfl
  | lag k count =>
    obtain ⟨stream, -, hstep⟩ := Option.bind_eq_some_iff.mp hstep
    split_ifs at hstep
    obtain rfl := Option.some.inj hstep
    exact hsame rfl rfl rfl
  | dryRun caller receiver intent found now =>
    simp only [Handles.step] at hstep
    split at hstep
    · obtain rfl := Option.some.inj hstep
      exact hsame rfl rfl rfl
    · split at hstep
      · obtain rfl := Option.some.inj hstep
        exact hsame rfl rfl rfl
      · obtain ⟨served, hserve, rfl⟩ := Option.map_eq_some_iff.mp hstep
        split
        · refine (h.serve hserve).same rfl rfl fun call hcall => ?_
          rcases List.mem_append.mp hcall with hold | hnew
          · exact .inl hold
          · obtain rfl := List.mem_singleton.mp hnew
            exact .inr nofun
        · exact (h.serve hserve).same rfl rfl fun call => .inl
  | administer caller =>
    obtain rfl := Option.some.inj hstep
    split_ifs
    · exact h
    · exact hsame rfl rfl rfl
  | resume k w =>
    obtain ⟨call, hcall, hstep⟩ := Option.bind_eq_some_iff.mp hstep
    obtain ⟨⟨action, next⟩, hresume, hstep⟩ := Option.bind_eq_some_iff.mp hstep
    obtain ⟨served, hserved, rfl⟩ := Option.map_eq_some_iff.mp hstep
    have hsound : served.Sound cfg := by
      cases action with
      | none =>
        obtain rfl := Option.some.inj hserved
        exact h
      | some action => exact h.serve hserved
    have hmoved : ∀ pc, (∀ id, pc ≠ .waiting id) → ∀ {s'' : Handles Catalog}, s''.service = served.service →
        s''.watched = served.watched → s''.calls = served.calls.set k { call with pc } → s''.Sound cfg := by
      intro pc hpc s'' hservice hwatched hcalls
      refine hsound.same hservice hwatched fun other hother => ?_
      rw [hcalls] at hother
      rcases List.mem_or_eq_of_mem_set hother with hold | rfl
      · exact .inl hold
      · exact .inr fun id heq => absurd heq (hpc id)
    cases next with
    | inl pc => exact hmoved pc (resume_ne_waiting hresume) rfl rfl rfl
    | inr reply => exact hmoved .returned nofun rfl rfl rfl
  | publish k =>
    obtain ⟨item, -, rfl⟩ := Option.map_eq_some_iff.mp hstep
    exact hsame rfl rfl rfl
  | take =>
    simp only [Handles.step] at hstep
    split_ifs at hstep
    obtain rfl := Option.some.inj hstep
    exact hsame rfl rfl rfl
  | work action =>
    simp only [Handles.step] at hstep
    split_ifs at hstep
    exact h.serve hstep

theorem sound_of_reachable (h : (handles cfg Catalog).Reachable s) : s.Sound cfg := by
  refine Machine.Reachable.invariant (I := Sound cfg) ?_ (fun _ _ _ _ hi hstep => hi.step hstep) h
  rintro _ rfl
  exact ⟨.init rfl, fun id entry hentry => (by cases hentry), fun id entry hentry => (by cases hentry),
    fun call hcall => (by cases hcall)⟩

/-! ### Two runs of the handles -/

theorem Alike.tell (h : s.Alike t) {caller : Principal} {reply reply' : Reply Catalog}
    (hreply : caller ≠ .operator → reply = reply') : (s.tell caller reply).Alike (t.tell caller reply') := by
  refine { h with told := ?_ }
  unfold toldAgents Handles.tell
  rw [List.filter_append, List.filter_append]
  refine congrArg₂ _ h.told ?_
  by_cases hcaller : caller = .operator
  · rw [List.filter_cons_of_neg (by simp [hcaller]), List.filter_cons_of_neg (by simp [hcaller])]
  · rw [hreply hcaller]

theorem Alike.await (h : s.Alike t) (caller : Principal) (pc : CallPc) : (s.await caller pc).Alike (t.await caller pc) :=
  { h with calls := congrArg (· ++ [_]) h.calls }

theorem Alike.move (h : s.Alike t) (k : ℕ) (call : Call) :
    Alike { s with calls := s.calls.set k call } { t with calls := t.calls.set k call } :=
  { h with calls := congrArg (List.set · k call) h.calls }

theorem Alike.withStreams (h : s.Alike t) (streams : List EventStream) : Alike { s with streams } { t with streams } :=
  { h with streams := rfl }

theorem Alike.withSubscriptions (h : s.Alike t) (subscriptions : List Principal) :
    Alike { s with subscriptions } { t with subscriptions } :=
  { h with subscriptions := rfl }

/-- An event is there for both, of the same owner, and the same to an agent that may see it. -/
theorem item_cases {sent sent' : List Item} (h : sent.map blankItem = sent'.map blankItem) (n : ℕ) :
    sent[n]? = none ∧ sent'[n]? = none ∨ ∃ item item', sent[n]? = some item ∧ sent'[n]? = some item' ∧
      item.1 = item'.1 ∧ (item.1 ≠ .operator → item.2 = item'.2) := by
  have hitem : sent[n]?.map blankItem = sent'[n]?.map blankItem := by
    rw [← List.getElem?_map, ← List.getElem?_map, h]
  cases hfirst : sent[n]? with
  | none =>
    rw [hfirst] at hitem
    exact .inl ⟨rfl, Option.map_eq_none_iff.mp hitem.symm⟩
  | some item =>
    rw [hfirst] at hitem
    obtain ⟨item', hsecond, hblank⟩ := Option.map_eq_some_iff.mp hitem.symm
    obtain ⟨howner, hsnapshot⟩ := Prod.mk.inj hblank
    refine .inr ⟨item, item', rfl, hsecond, howner.symm, fun hagent => ?_⟩
    rw [howner] at hsnapshot
    cases hown : item.1 with
    | operator => exact absurd hown hagent
    | agent label =>
      rw [hown] at hsnapshot
      exact hsnapshot.symm

theorem changedItem_alike {before before' after after' : Operations} (h : before.blank = before'.blank)
    (hafter : after.blank = after'.blank) (id : OperationId) :
    (changedItem before after id).map blankItem = (changedItem before' after' id).map blankItem := by
  unfold changedItem
  rw [Operations.statusOf_alike h]
  rcases Operations.entryOf_cases hafter id with ⟨hnone, hnone'⟩ | ⟨entry, entry', hentry, hentry', hblank⟩
  · rw [hnone, hnone']
  · obtain ⟨howner, -, hsnapshot⟩ := Entry.blank_eq_iff.mp hblank
    obtain ⟨-, -, -, hstatus, -⟩ := blankFor_eq_iff.mp hsnapshot
    rw [hentry, hentry', Option.bind_some, Option.bind_some, hstatus]
    split_ifs
    · rfl
    · exact congrArg some (Prod.ext howner (by rw [howner] at hsnapshot; exact howner ▸ hsnapshot))

theorem Alike.follow (h : s.Alike t) {service service' : Service} (hservice : service.Alike service')
    (target : Option OperationId) : (s.follow service target).Alike (t.follow service' target) := by
  refine { h with service := hservice, watched := fun id => ?_, pending := ?_ }
  · show (service.operations.entryOf id <|> s.watched id).map _ = (service'.operations.entryOf id <|> t.watched id).map _
    rcases Operations.entryOf_cases hservice.operations id with ⟨hnone, hnone'⟩ | ⟨entry, entry', hentry, hentry', hblank⟩
    · rw [hnone, hnone']
      exact h.watched id
    · rw [hentry, hentry']
      exact congrArg some hblank
  · show List.map _ (_ ++ _) = List.map _ (_ ++ _)
    rw [List.map_append, List.map_append, h.pending]
    refine congrArg _ ?_
    cases target with
    | none => rfl
    | some id =>
      rw [Option.bind_some, Option.bind_some, ← Option.toList_map, ← Option.toList_map,
        changedItem_alike h.service.operations hservice.operations]

theorem target_blank (h : s.service.Alike t.service) (a : Action) : a.target s.service = a.blank.target t.service := by
  cases a with
  | submit caller receiver submission now =>
    exact congrArg (fun n => some (n + 1)) (Operations.blank_eq_iff.mp h.operations).1
  | _ => rfl

theorem Alike.serve (h : s.Alike t) (hs : s.Sound cfg) (ht : t.Sound cfg) (a : Action) :
    Option.Rel Alike (s.serve cfg a) (t.serve cfg a.blank) := by
  unfold Handles.serve
  rw [← target_blank h.service]
  exact rel_map (step_blank h.service hs.reached ht.reached a) fun _ _ hservice => h.follow hservice _

/-- Where two calls lead, or how they end for who is not the Operator. -/
inductive NextAlike (caller : Principal) {Pc Answer : Type} : Pc ⊕ Except ControlError Answer →
    Pc ⊕ Except ControlError Answer → Prop
  | inl (pc : Pc) : NextAlike caller (.inl pc) (.inl pc)
  | inr {reply reply' : Except ControlError Answer}
      (h : caller ≠ .operator → reply.mapError (sanitized caller) = reply'.mapError (sanitized caller)) :
      NextAlike caller (.inr reply) (.inr reply')

/-- A step of a call, and the same step without free text. -/
def TurnAlike {Pc Answer : Type} (R : Pc ⊕ Except ControlError Answer → Pc ⊕ Except ControlError Answer → Prop)
    (turn turn' : Option Action × (Pc ⊕ Except ControlError Answer)) : Prop :=
  turn'.1 = turn.1.map Action.blank ∧ R turn.2 turn'.2

theorem health_alike {s t : Service} (h : s.Alike t) : s.health = t.health := by
  unfold Service.health
  rw [h.auditOk, h.books]
  rcases except_cases h.policy with ⟨error, error', hpolicy, hpolicy'⟩ | ⟨policy, hpolicy, hpolicy'⟩
  · rw [hpolicy, hpolicy']
    rfl
  · rw [hpolicy, hpolicy']

theorem digest_alike {s t : Service} (h : s.Alike t) : s.digest = t.digest := by
  unfold Service.digest
  rw [h.policy]

theorem dryRun_blank {s t : Service} (h : s.Alike t) (caller : Principal) (label : AgentLabel) (receiver : ReceiverId)
    (intent : ReceiverIntent) (pc : DryRunPc) (w : CallWorld) :
    Option.Rel (TurnAlike (NextAlike caller)) (s.dryRun label receiver intent pc w)
      (t.dryRun label receiver intent pc w.blank) := by
  have hunavailable : ∀ reason, s.dryRunUnavailable reason = t.dryRunUnavailable reason := by
    intro reason
    unfold Service.dryRunUnavailable
    rw [digest_alike h]
  unfold Service.dryRun
  cases pc with
  | precheck =>
    rcases except_cases h.policy with ⟨error, error', hpolicy, hpolicy'⟩ | ⟨policy, hpolicy, hpolicy'⟩
    · dsimp only
      rw [hpolicy, hpolicy', hunavailable]
      exact .some ⟨rfl, .inr fun _ => rfl⟩
    · dsimp only
      rw [hpolicy, hpolicy']
      exact .some ⟨rfl, .inl _⟩
  | ledger =>
    dsimp only
    rw [h.books]
    exact .some ⟨rfl, .inl _⟩
  | rebuilding =>
    dsimp only
    rw [h.rebuilding, h.books]
    split_ifs
    · exact .none
    · exact .some ⟨rfl, .inl _⟩
    · exact .some ⟨rfl, .inl _⟩
  | readingLog =>
    dsimp only
    rw [hunavailable, show w.blank.log.isSome = w.log.isSome from Option.isSome_map]
    split_ifs
    · exact .some ⟨rfl, .inl _⟩
    · exact .some ⟨rfl, .inr fun _ => rfl⟩
  | leasing =>
    obtain ⟨now, log, leased, state⟩ := w
    cases leased with
    | unread error =>
      refine .some ⟨rfl, .inr fun hcaller => ?_⟩
      cases caller with
      | operator => exact absurd rfl hcaller
      | agent label => rfl
    | unconnected error =>
      refine .some ⟨rfl, .inr fun hcaller => ?_⟩
      cases caller with
      | operator => exact absurd rfl hcaller
      | agent label =>
        show Except.error (sanitized _ (.unavailable error.text)) = Except.error (sanitized _ (.unavailable error.blank.text))
        rw [sanitized_unconnected, sanitized_unconnected]
    | closed | unknown => exact .some ⟨rfl, .inr fun _ => rfl⟩
    | held session => exact .some ⟨rfl, .inl _⟩
  | deciding =>
    rcases except_cases h.policy with ⟨error, error', hpolicy, hpolicy'⟩ | ⟨policy, hpolicy, hpolicy'⟩
    · dsimp only
      rw [hpolicy, hpolicy']
      dsimp only
      rw [hunavailable]
      exact .some ⟨rfl, .inr fun _ => rfl⟩
    · dsimp only
      rw [hpolicy, hpolicy']
      exact .some ⟨rfl, .inl _⟩
  | evaluating policy =>
    dsimp only
    rw [h.books]
    exact .some ⟨rfl, .inr fun _ => rfl⟩

/-- Where two calls of one caller lead, or what it is told. -/
inductive ReplyAlike (caller : Principal) : CallPc ⊕ Reply Catalog → CallPc ⊕ Reply Catalog → Prop
  | inl (pc : CallPc) : ReplyAlike caller (.inl pc) (.inl pc)
  | inr {reply reply' : Reply Catalog} (h : caller ≠ .operator → reply = reply') :
      ReplyAlike caller (.inr reply) (.inr reply')

theorem resume_blank (h : s.Alike t) (hs : s.Sound cfg) {call : Call} (hcall : call ∈ s.calls) (w : CallWorld) :
    Option.Rel (TurnAlike (ReplyAlike call.caller)) (s.resume call w) (t.resume call w.blank) := by
  obtain ⟨caller, pc⟩ := call
  unfold resume
  cases pc with
  | waiting id =>
    obtain ⟨entry, hentry, hvisible⟩ := hs.waiting _ hcall id rfl
    have hwatched := h.watched id
    rw [hentry] at hwatched
    obtain ⟨entry', hentry', hblank⟩ := Option.map_eq_some_iff.mp hwatched.symm
    dsimp only
    rw [hentry, hentry']
    refine .some ⟨rfl, .inr fun hcaller => ?_⟩
    rw [Entry.snapshot_eq_of_blank_eq hblank.symm fun howner =>
      hvisible.elim hcaller fun hmine => hcaller (hmine.symm.trans howner)]
  | withdrawing id =>
    dsimp only
    rcases Operations.cancel_cases h.service.operations caller id with
      ⟨error, error', hcancel, hcancel'⟩ | ⟨next, next', snapshot, snapshot', hcancel, hcancel', -, hsnapshot⟩ <;>
      rw [hcancel, hcancel']
    · exact .some ⟨rfl, .inl _⟩
    · exact .some ⟨rfl, .inr fun hcaller => by rw [hsnapshot hcaller]⟩
  | late id =>
    dsimp only
    rcases Operations.watchOperation_cases h.service.operations caller id with
      ⟨error, hwatch, hwatch'⟩ | ⟨entry, entry', -, -, hblank, hvisible, hwatch, hwatch'⟩ <;> rw [hwatch, hwatch']
    · exact .some ⟨rfl, .inr fun _ => rfl⟩
    · refine .some ⟨rfl, .inr fun hcaller => ?_⟩
      dsimp only
      rw [Entry.snapshot_eq_of_blank_eq hblank fun howner =>
        hvisible.elim hcaller fun hmine => hcaller (hmine.symm.trans howner)]
  | dryRun label receiver intent pc =>
    refine rel_map (dryRun_blank h.service caller label receiver intent pc w) ?_
    rintro ⟨action, next⟩ ⟨action', next'⟩ ⟨haction, hnext⟩
    refine ⟨haction, ?_⟩
    cases hnext with
    | inl pc => exact .inl _
    | inr hreply => exact .inr fun hcaller => congrArg (Except.map Answer.dryRun) (hreply hcaller)
  | returned => exact .none

/-- A step and the step without its free text. -/
theorem step_blank (h : s.Alike t) (hs : s.Sound cfg) (ht : t.Sound cfg) (a : HandleAction Catalog) :
    Option.Rel Alike (s.step cfg a) (t.step cfg a.blank) := by
  cases a with
  | receivers caller loaded connection => exact .some (h.tell fun hcaller => (receiversReply_blank hcaller _ _).symm)
  | state caller receiver leased =>
    simp only [Handles.step, HandleAction.blank]
    rw [isOk_stateReply_blank, h.subscriptions]
    exact .some ((h.withSubscriptions _).tell fun hcaller => (stateReply_blank hcaller leased).symm)
  | changed subscription next =>
    simp only [Handles.step, HandleAction.blank]
    rw [h.subscriptions]
    cases t.subscriptions[subscription]? with
    | none => exact .none
    | some caller => exact .some (h.tell fun _ => rfl)
  | sourceCatalog caller receiver leased =>
    exact .some (h.tell fun hcaller => (sourceCatalogReply_blank hcaller leased).symm)
  | health caller => exact .some (h.tell fun _ => by rw [health_alike h.service])
  | submit caller receiver submission found now =>
    simp only [Handles.step, HandleAction.blank]
    rcases findReceiver_blank caller receiver found with hsame | ⟨error, error', hfound, hfound', htold⟩
    · rw [hsame]
      cases findReceiver caller receiver found with
      | error error => exact .some (h.tell fun _ => rfl)
      | ok visible =>
        refine rel_map (h.serve hs ht (.submit caller receiver submission now)) fun s' t' h' => h'.tell fun hcaller => ?_
        rw [(submit_alike h.service (keyed_of_gate hs.reached) (keyed_of_gate ht.reached) caller receiver submission now).2
          hcaller]
    · rw [hfound, hfound']
      exact .some (h.tell fun hcaller => congrArg Except.error (htold hcaller))
  | operation caller id wait =>
    simp only [Handles.step, HandleAction.blank]
    rcases Operations.watchOperation_cases h.service.operations caller id with
      ⟨error, hwatch, hwatch'⟩ | ⟨entry, entry', -, -, hblank, hvisible, hwatch, hwatch'⟩ <;> rw [hwatch, hwatch']
    · exact .some (h.tell fun _ => rfl)
    · obtain ⟨-, -, hsnapshot⟩ := Entry.blank_eq_iff.mp hblank
      obtain ⟨-, -, -, hstatus, -⟩ := blankFor_eq_iff.mp hsnapshot
      dsimp only
      rw [hstatus]
      split_ifs
      · exact .some (h.await caller _)
      · refine .some (h.tell fun hcaller => ?_)
        rw [Entry.snapshot_eq_of_blank_eq hblank fun howner =>
          hvisible.elim hcaller fun hmine => hcaller (hmine.symm.trans howner)]
  | cancel caller id =>
    simp only [Handles.step, HandleAction.blank]
    rcases Operations.watchOperation_cases h.service.operations caller id with
      ⟨error, hwatch, hwatch'⟩ | ⟨entry, entry', -, -, hblank, hvisible, hwatch, hwatch'⟩ <;> rw [hwatch, hwatch']
    · exact .some (h.tell fun _ => rfl)
    · obtain ⟨-, -, hsnapshot⟩ := Entry.blank_eq_iff.mp hblank
      obtain ⟨-, -, -, hstatus, -⟩ := blankFor_eq_iff.mp hsnapshot
      dsimp only
      rw [hstatus]
      split_ifs
      · exact .some (h.await caller _)
      · refine .some (h.tell fun hcaller => ?_)
        rw [Entry.snapshot_eq_of_blank_eq hblank fun howner =>
          hvisible.elim hcaller fun hmine => hcaller (hmine.symm.trans howner)]
  | operationEvents caller =>
    simp only [Handles.step, HandleAction.blank]
    rw [h.opened]
    split_ifs
    · have hlength : s.sent.length = t.sent.length := by
        rw [← List.length_map blankItem, h.sent, List.length_map]
      unfold openStream
      rw [h.streams, hlength]
      exact .some ((h.withStreams _).tell fun _ => rfl)
    · exact .some (h.tell fun _ => rfl)
  | next k =>
    simp only [Handles.step, HandleAction.blank]
    rw [h.streams]
    cases t.streams[k]? with
    | none => exact .none
    | some stream =>
      rw [Option.bind_some, Option.bind_some]
      rcases item_cases h.sent stream.position with ⟨hnone, hnone'⟩ | ⟨item, item', hitem, hitem', howner, hsnapshot⟩
      · rw [hnone, hnone', h.opened]
        dsimp only
        split_ifs
        · exact .none
        · exact .some (h.tell fun _ => rfl)
      · rw [hitem, hitem']
        have hvisible : visible stream.viewer item' = visible stream.viewer item := by
          unfold visible
          rw [howner]
        dsimp only
        rw [hvisible]
        split_ifs with hshown
        · refine .some ((h.withStreams _).tell fun hcaller => ?_)
          have hmine : item.1 = stream.viewer := by
            simpa [visible, hcaller] using hshown
          rw [hsnapshot (hmine ▸ hcaller)]
        · exact .some (h.withStreams _)
  | lag k count =>
    simp only [Handles.step, HandleAction.blank]
    have hlength : s.sent.length = t.sent.length := by
      rw [← List.length_map blankItem, h.sent, List.length_map]
    rw [h.streams, hlength]
    cases t.streams[k]? with
    | none => exact .none
    | some stream =>
      dsimp only [Option.bind_some]
      split_ifs
      · exact .some ((h.withStreams _).tell fun _ => rfl)
      · exact .none
  | dryRun caller receiver intent found now =>
    simp only [Handles.step, HandleAction.blank]
    rcases findReceiver_blank caller receiver found with hsame | ⟨error, error', hfound, hfound', htold⟩
    · rw [hsame]
      cases findReceiver caller receiver found with
      | error error => exact .some (h.tell fun _ => rfl)
      | ok visible =>
        cases caller with
        | operator => exact .some (h.tell fun hcaller => absurd rfl hcaller)
        | agent label =>
          refine rel_map (h.serve hs ht (.chargeDryRun label now)) fun s' t' h' => ?_
          rw [h.service.writes]
          split
          · exact h'.await _ _
          · exact h'.tell fun _ => rfl
    · rw [hfound, hfound']
      exact .some (h.tell fun hcaller => congrArg Except.error (htold hcaller))
  | administer caller =>
    simp only [Handles.step, HandleAction.blank]
    split_ifs
    · exact .some h
    · exact .some (h.tell fun _ => rfl)
  | resume k w =>
    simp only [Handles.step, HandleAction.blank]
    rw [← h.calls]
    cases hcall : s.calls[k]? with
    | none => exact .none
    | some call =>
      rw [Option.bind_some, Option.bind_some]
      refine rel_bind (resume_blank h hs (List.mem_of_getElem? hcall) w) ?_
      rintro ⟨action, next⟩ ⟨action', next'⟩ ⟨haction, hnext⟩
      dsimp only at haction hnext
      subst haction
      have hserved : Option.Rel Alike (action.elim (some s) (s.serve cfg))
          ((action.map Action.blank).elim (some t) (t.serve cfg)) := by
        cases action with
        | none => exact .some h
        | some action => exact h.serve hs ht action
      refine rel_map hserved fun s' t' h' => ?_
      cases hnext with
      | inl pc => exact h'.move k _
      | inr hreply => exact (h'.move k _).tell hreply
  | publish k =>
    simp only [Handles.step, HandleAction.blank]
    have hitem : s.pending[k]?.map blankItem = t.pending[k]?.map blankItem := by
      rw [← List.getElem?_map, ← List.getElem?_map, h.pending]
    have hpending : (s.pending.eraseIdx k).map blankItem = (t.pending.eraseIdx k).map blankItem := by
      rw [← List.eraseIdx_map, ← List.eraseIdx_map, h.pending]
    cases hfirst : s.pending[k]? with
    | none =>
      rw [hfirst] at hitem
      rw [Option.map_eq_none_iff.mp hitem.symm]
      exact .none
    | some item =>
      rw [hfirst] at hitem
      obtain ⟨item', hsecond, hblank⟩ := Option.map_eq_some_iff.mp hitem.symm
      rw [hsecond]
      refine .some { h with pending := hpending, sent := ?_ }
      dsimp only
      rw [← h.opened]
      split_ifs
      · rw [List.map_append, List.map_append, h.sent]
        exact congrArg (_ ++ [·]) hblank.symm
      · exact h.sent
  | take =>
    simp only [Handles.step, HandleAction.blank]
    rw [← (Operations.blank_eq_iff.mp h.service.operations).2.1, ← h.service.inFlight]
    split_ifs
    · exact .some { h with opened := rfl }
    · exact .none
  | work action =>
    simp only [Handles.step, HandleAction.blank]
    have hwork : action.blank.isWork = action.isWork := by cases action <;> rfl
    rw [hwork]
    split_ifs
    · exact h.serve hs ht action
    · exact .none

/-- States that are alike, both of runs. -/
def Paired (cfg : Settings) (s t : Handles Catalog) : Prop := s.Alike t ∧ s.Sound cfg ∧ t.Sound cfg

theorem Alike.symm (h : s.Alike t) : t.Alike s :=
  ⟨h.service.symm, fun id => (h.watched id).symm, h.pending.symm, h.opened.symm, h.sent.symm, h.streams.symm,
    h.subscriptions.symm, h.calls.symm, h.told.symm⟩

theorem Alike.trans {u : Handles Catalog} (h : s.Alike t) (h' : t.Alike u) : s.Alike u :=
  ⟨h.service.trans h'.service, fun id => (h.watched id).trans (h'.watched id), h.pending.trans h'.pending,
    h.opened.trans h'.opened, h.sent.trans h'.sent, h.streams.trans h'.streams, h.subscriptions.trans h'.subscriptions,
    h.calls.trans h'.calls, h.told.trans h'.told⟩

theorem Alike.refl (s : Handles Catalog) : s.Alike s :=
  ⟨.refl _, fun _ => rfl, rfl, rfl, rfl, rfl, rfl, rfl, rfl⟩

/-- **Steps of two runs.** Actions that are the same but for free text are possible in both or in neither. -/
theorem step_paired (h : Paired cfg s t) {a b : HandleAction Catalog} (hkept : a.blank = b.blank) :
    Option.Rel (Paired cfg) (s.step cfg a) (t.step cfg b) := by
  obtain ⟨halike, hs, ht⟩ := h
  have hfirst := step_blank halike hs ht a
  rw [hkept] at hfirst
  have hrel := rel_join (fun _ _ _ h h' => h.trans h'.symm) hfirst (step_blank (.refl t) ht ht b)
  cases hnext : s.step cfg a with
  | none =>
    rw [hnext] at hrel
    cases hnext' : t.step cfg b with
    | none => exact .none
    | some t' =>
      rw [hnext'] at hrel
      cases hrel
  | some s' =>
    rw [hnext] at hrel
    cases hnext' : t.step cfg b with
    | none =>
      rw [hnext'] at hrel
      cases hrel
    | some t' =>
      rw [hnext'] at hrel
      cases hrel with
      | some h' => exact .some ⟨h', hs.step hnext, ht.step hnext'⟩

end Handles

/-- **Agents learn nothing from free text.** Two runs of the service whose requests are the same, and which are the same in
all else but free text, tell agents the same: every snapshot, state, list, dry run, event and error. -/
theorem agents_told_alike (cfg : Settings) {Catalog : Type} (acts acts' : List (HandleAction Catalog))
    (h : acts.map HandleAction.blank = acts'.map HandleAction.blank) :
    ((handles cfg Catalog).exec {} acts).map Handles.toldAgents =
      ((handles cfg Catalog).exec {} acts').map Handles.toldAgents := by
  have hstart : Handles.Paired cfg ({} : Handles Catalog) {} :=
    ⟨.refl _, Handles.sound_of_reachable (.init rfl), Handles.sound_of_reachable (.init rfl)⟩
  exact Machine.exec_map_eq (M := handles cfg Catalog) (R := Handles.Paired cfg)
    (fun s t a b (hpaired : Handles.Paired cfg s t) hkept => Handles.step_paired hpaired hkept) hstart h
    Handles.toldAgents fun s t (hpaired : Handles.Paired cfg s t) => hpaired.1.told

/-- An agent's write whose outcome could not be established, for this reason, and what is read of it then. -/
def readAfterWrite (reason : String) : List (HandleAction Unit) :=
  [.work (.loadPolicy (.ok (budgetedPolicy, zeroDigest)) 3600000), .work (.rebuildElsewhere 3600000),
    .work (.readElsewhere (some [])),
    .submit (.agent kitchen) den { intent := smallRise } ⟨false, .ok ⟨none, [(den.value, ⟨"192.0.2.7", none, none⟩)], []⟩⟩ 0] ++
    List.replicate 15 (.work (.advance 1 { quietWorld with outcome := .indeterminate 1 .unknown reason })) ++
    [.operation (.agent kitchen) 1 false]

theorem agents_told_alike_readAfterWrite :
    (((handles gateSettings Unit).exec {} (readAfterWrite "192.0.2.7: connection reset")).map fun s =>
        s.toldAgents.length) = some 2 ∧
      ((handles gateSettings Unit).exec {} (readAfterWrite "192.0.2.7: connection reset")).map Handles.toldAgents =
        ((handles gateSettings Unit).exec {} (readAfterWrite "timed out")).map Handles.toldAgents :=
  ⟨by decide, agents_told_alike gateSettings _ _ rfl⟩

end DenonAvr.Application
