import DenonAvr.Infrastructure.TokenStore

/-!
# Token calls whose callers go away

The token store under calls that run concurrently and may be dropped while they wait. A call holds the store's lock from
its look at the memory until the memory has changed, but the file is written by a task of its own: when the call is
dropped, the lock is free and the task still runs to its end.

Revoked tokens stay revoked, and issued ones stay, in every run in which no call starts a write while the task of an
earlier one is still under way (`revoked_stay_revoked`). Without that condition a revoked token is accepted again
(`not_revoked_stay_revoked`).
-/

namespace DenonAvr.Infrastructure

open Domain Application Library Policy

/-! ### A write -/

/-- Where `write_atomically` is. -/
inductive WriteStage
  | removing
  | creating
  /-- So much of the text is in the file. -/
  | writing (file landed : ℕ)
  | placing
  | ended (ok : Bool)
deriving DecidableEq

structure WriteTask where
  text : List Char
  stage : WriteStage
deriving DecidableEq

/-- How a file operation goes. -/
inductive WriteMove
  | succeed
  /-- A write takes so much, and another one follows. -/
  | part (length : ℕ)
  | fail
deriving DecidableEq

namespace WriteTask

def isEnded (task : WriteTask) : Bool :=
  match task.stage with
  | .ended _ => true
  | _ => false

/-- The next file operation. -/
def advance (task : WriteTask) (move : WriteMove) (disk : Disk) : Option (WriteTask × Disk) :=
  match task.stage, move with
  | .removing, .succeed => some ({ task with stage := .creating }, disk.removeTemporary)
  -- the error is ignored
  | .removing, .fail => some ({ task with stage := .creating }, disk)
  | .creating, .succeed =>
    match disk.createTemporary with
    | some (file, disk) => some ({ task with stage := .writing file 0 }, disk)
    | none => some ({ task with stage := .ended false }, disk)
  | .writing file landed, .part length =>
    let piece := (task.text.drop landed).take length
    some ({ task with stage := .writing file (landed + piece.length) }, disk.writeTo file piece)
  | .writing file landed, .succeed => some ({ task with stage := .placing }, disk.writeTo file (task.text.drop landed))
  | .placing, .succeed =>
    match disk.renameTemporary with
    | some disk => some ({ task with stage := .ended true }, disk)
    | none => some ({ task with stage := .ended false }, disk)
  | .ended _, _ => none
  | _, .part _ => none
  | _, .fail => some ({ task with stage := .ended false }, disk)

end WriteTask

/-! ### Calls -/

inductive TokenCall
  | issue (label : AgentLabel) (now : WallTime) (random : Option (List UInt8)) (draws : List (Option (List UInt8)))
  | revoke (id : TokenId) (now : WallTime)
deriving DecidableEq

/-- What a call does to the memory after its write. -/
inductive TokenChange
  | add (entry : TokenEntry)
  | revoke (id : TokenId) (now : WallTime)
deriving DecidableEq

inductive Prepared
  /-- The token is revoked already. -/
  | nothing (id : TokenId)
  | write (next : List Stored) (change : TokenChange)
deriving DecidableEq

/-- What a call works out under the lock. An `issue` looks at its label and both at the store's fault before that; neither
changes. -/
def prepareCall (env : TokenEnv) (store : TokenStore) : TokenCall → Except TokenError Prepared
  | .issue label now random draws =>
    (prepareIssue env store label now random draws).map fun (next, entry, _) => .write next (.add entry)
  | .revoke id now => (prepareRevoke store id now).map fun
    | .inl record => .nothing record.id
    | .inr next => .write next (.revoke id now)

/-- The memory after the change, and the tokens whose issue and whose revocation is a success. -/
def TokenChange.finish (store : TokenStore) : TokenChange → TokenStore × List TokenId × List TokenId
  | .add entry => (store.add entry, [entry.record.id], [])
  | .revoke id now =>
    match finishRevoke store id now with
    | (store, .ok record) => (store, [], [record.id])
    | (store, .error _) => (store, [], [])

inductive CallPhase
  /-- For the lock. -/
  | waiting
  /-- For the task that writes, with the lock held. -/
  | saving (task : ℕ) (change : TokenChange)
  /-- It returned or was dropped. -/
  | ended
deriving DecidableEq

structure TokenWrites where
  disk : Disk
  store : TokenStore
  calls : List (TokenCall × CallPhase)
  tasks : List WriteTask
  /-- Who holds `writing`. -/
  holder : Option ℕ
  /-- The tokens whose `issue` returned success. -/
  issued : List TokenId
  revoked : List TokenId
  /-- The tokens `revoke` was called for. -/
  called : List TokenId
deriving DecidableEq

inductive WritesAction
  | call (call : TokenCall)
  /-- The call gets the lock. -/
  | lock (call : ℕ)
  | advance (task : ℕ) (move : WriteMove)
  /-- The call goes on after its write. -/
  | finish (call : ℕ)
  /-- The caller goes away. -/
  | drop (call : ℕ)
  /-- The process ends, with whatever was under way, and the store is opened again. -/
  | restart
deriving DecidableEq

def TokenCall.revokes : TokenCall → List TokenId
  | .issue .. => []
  | .revoke id _ => [id]

/-- The store on a file that may hold anything when it is opened. -/
def tokenWrites (env : TokenEnv) : Machine TokenWrites WritesAction where
  init := fun run => ∃ disk : Disk, disk.Valid ∧ run = ⟨disk, openStore env disk, [], [], none, [], [], []⟩
  step := fun run action =>
    match action with
    | .call call => some { run with calls := run.calls ++ [(call, .waiting)], called := run.called ++ call.revokes }
    | .lock i =>
      match run.calls[i]?, run.holder with
      | some (call, .waiting), none =>
        match prepareCall env run.store call with
        | .error _ => some { run with calls := run.calls.set i (call, .ended) }
        | .ok (.nothing id) =>
          some { run with calls := run.calls.set i (call, .ended), revoked := run.revoked ++ [id] }
        | .ok (.write next change) =>
          some { run with
            calls := run.calls.set i (call, .saving run.tasks.length change),
            tasks := run.tasks ++ [⟨fileText env.json next, .removing⟩],
            holder := some i }
      | _, _ => none
    | .advance t move =>
      run.tasks[t]?.bind fun task =>
        (task.advance move run.disk).map fun (task, disk) => { run with tasks := run.tasks.set t task, disk }
    | .finish i =>
      match run.calls[i]? with
      | some (call, .saving t change) =>
        match run.tasks[t]?.map WriteTask.stage with
        | some (.ended true) =>
          let (store, issued, revoked) := change.finish run.store
          some { run with
            store,
            calls := run.calls.set i (call, .ended),
            holder := none,
            issued := run.issued ++ issued,
            revoked := run.revoked ++ revoked }
        | some (.ended false) => some { run with calls := run.calls.set i (call, .ended), holder := none }
        | _ => none
      | _ => none
    | .drop i =>
      match run.calls[i]? with
      | some (call, .waiting) => some { run with calls := run.calls.set i (call, .ended) }
      | some (call, .saving _ _) => some { run with calls := run.calls.set i (call, .ended), holder := none }
      | _ => none
    | .restart => some { run with store := openStore env run.disk, calls := [], tasks := [], holder := none }

/-- The call starts a write while the task of an earlier one is still under way. -/
def overlaps (env : TokenEnv) (run : TokenWrites) : WritesAction → Bool
  | .lock i =>
    match run.calls[i]?.map fun call => prepareCall env run.store call.1 with
    | some (.ok (.write _ _)) => run.tasks.any fun task => !task.isEnded
    | _ => false
  | _ => false

/-! ### One file operation -/

/-- What has been done of a write that nothing else gets in the way of. -/
def WriteTask.Working (disk : Disk) (task : WriteTask) : Prop :=
  match task.stage with
  | .writing file landed =>
    disk.temporary = some file ∧ disk.contents[file]? = some (task.text.take landed) ∧ disk.file ≠ some file
  | .placing => ∃ file, disk.temporary = some file ∧ disk.contents[file]? = some task.text
  | _ => True

section Task
variable {disk disk' : Disk} {task task' : WriteTask} {move : WriteMove}

/-- **A file operation** leaves what is in the file, but for the rename, which puts the whole text there. -/
theorem advance_spec (hvalid : disk.Valid) (hworking : task.Working disk)
    (h : task.advance move disk = some (task', disk')) :
    task'.text = task.text ∧ disk'.Valid ∧ task'.Working disk' ∧
      if task'.stage = .ended true then disk'.text? = some task.text else disk'.text? = disk.text? := by
  obtain ⟨text, stage⟩ := task
  unfold WriteTask.advance at h
  cases stage with
  | removing =>
    cases move with
    | succeed | fail =>
      obtain ⟨rfl, rfl⟩ := Prod.mk.inj (Option.some.inj h)
      exact ⟨rfl, hvalid, trivial, rfl⟩
    | part length => cases h
  | creating =>
    cases move with
    | succeed =>
      dsimp only at h
      cases hcreate : disk.createTemporary with
      | none =>
        rw [hcreate] at h
        obtain ⟨rfl, rfl⟩ := Prod.mk.inj (Option.some.inj h)
        exact ⟨rfl, hvalid, trivial, rfl⟩
      | some created =>
        obtain ⟨file, created⟩ := created
        rw [hcreate] at h
        obtain ⟨rfl, rfl⟩ := Prod.mk.inj (Option.some.inj h)
        obtain ⟨hcreated, htext, hother, htemporary, hempty⟩ := createTemporary_spec hvalid hcreate
        exact ⟨rfl, hcreated, ⟨htemporary, hempty, hother⟩, htext⟩
    | part length => cases h
    | fail =>
      obtain ⟨rfl, rfl⟩ := Prod.mk.inj (Option.some.inj h)
      exact ⟨rfl, hvalid, trivial, rfl⟩
  | writing file landed =>
    obtain ⟨htemporary, hlanded, hother⟩ := hworking
    -- what is in the temporary file after another piece
    have hcontents : ∀ piece, (disk.writeTo file piece).contents[file]? = some (text.take landed ++ piece) := by
      intro piece
      show (disk.contents.modify file _)[file]? = _
      rw [List.getElem?_modify_eq, hlanded]
      rfl
    cases move with
    | succeed =>
      obtain ⟨rfl, rfl⟩ := Prod.mk.inj (Option.some.inj h)
      refine ⟨rfl, valid_writeTo hvalid, ⟨file, htemporary, ?_⟩, text?_writeTo hother⟩
      rw [hcontents, List.take_append_drop]
    | part length =>
      obtain ⟨rfl, rfl⟩ := Prod.mk.inj (Option.some.inj h)
      refine ⟨rfl, valid_writeTo hvalid, ⟨htemporary, ?_, hother⟩, text?_writeTo hother⟩
      rw [hcontents]
      dsimp only
      rw [List.take_add, List.length_take, ← List.take_eq_take_min]
    | fail =>
      obtain ⟨rfl, rfl⟩ := Prod.mk.inj (Option.some.inj h)
      exact ⟨rfl, hvalid, trivial, rfl⟩
  | placing =>
    obtain ⟨file, htemporary, hcontents⟩ := hworking
    cases move with
    | succeed =>
      obtain ⟨renamed, hrename, hrenamed, htext⟩ := renameTemporary_spec htemporary hcontents
      dsimp only at h
      rw [hrename] at h
      obtain ⟨rfl, rfl⟩ := Prod.mk.inj (Option.some.inj h)
      exact ⟨rfl, hrenamed, trivial, htext⟩
    | part length => cases h
    | fail =>
      obtain ⟨rfl, rfl⟩ := Prod.mk.inj (Option.some.inj h)
      exact ⟨rfl, hvalid, trivial, rfl⟩
  | ended ok => cases move <;> cases h

theorem isEnded_of_advance_none (h : task.isEnded = true) : task.advance move disk = none := by
  obtain ⟨text, stage⟩ := task
  cases stage with
  | ended ok => cases move <;> rfl
  | _ => cases h

end Task

/-! ### What a change does to the tokens -/

namespace TokenChange

def entries (held : List TokenEntry) : TokenChange → List TokenEntry
  | .add entry => held ++ [entry]
  | .revoke id now => held.map (revokedAt id now)

def issues : TokenChange → List TokenId
  | .add entry => [entry.record.id]
  | .revoke .. => []

def revokes : TokenChange → List TokenId
  | .add _ => []
  | .revoke id _ => [id]

/-- The change is one that a call works out from these tokens. -/
def Admitted (called : List TokenId) (held : List TokenEntry) : TokenChange → Prop
  | .add entry => Sound (held ++ [entry]) ∧ entry.record.isActive = true
  | .revoke id _ => id ∈ called ∧ ∃ entry ∈ held, entry.record.id = id

end TokenChange

section Change
variable {env : TokenEnv} {store : TokenStore} {held : List TokenEntry} {called called' : List TokenId}
  {change : TokenChange} {call : TokenCall} {id : TokenId} {next : List Stored}

theorem sound_entries (hsound : Sound held) (h : change.Admitted called held) : Sound (change.entries held) := by
  cases change with
  | add entry => exact h.1
  | revoke id now => exact sound_revokedAt hsound

/-- A change revokes tokens and never makes one active. -/
theorem inactive_entries (h : ∃ entry ∈ held, entry.record.id = id ∧ entry.record.isActive = false) :
    ∃ entry ∈ change.entries held, entry.record.id = id ∧ entry.record.isActive = false := by
  obtain ⟨entry, hentry, hid, hactive⟩ := h
  cases change with
  | add other => exact ⟨entry, List.mem_append_left _ hentry, hid, hactive⟩
  | revoke other now =>
    refine ⟨_, List.mem_map_of_mem hentry, (revokedAt_id entry).trans hid, ?_⟩
    rw [isActive_revokedAt, hactive, Bool.false_and]

theorem active_entries (hadmitted : change.Admitted called held) (hid : id ∉ called)
    (h : ∃ entry ∈ held, entry.record.id = id ∧ entry.record.isActive = true) :
    ∃ entry ∈ change.entries held, entry.record.id = id ∧ entry.record.isActive = true := by
  obtain ⟨entry, hentry, rfl, hactive⟩ := h
  cases change with
  | add other => exact ⟨entry, List.mem_append_left _ hentry, rfl, hactive⟩
  | revoke other now =>
    have hne : entry.record.id ≠ other := fun heq => hid (heq ▸ hadmitted.1)
    refine ⟨_, List.mem_map_of_mem hentry, revokedAt_id entry, ?_⟩
    rw [isActive_revokedAt, hactive, decide_eq_false hne]
    rfl

theorem active_of_issues (hadmitted : change.Admitted called held) (hid : id ∈ change.issues) :
    ∃ entry ∈ change.entries held, entry.record.id = id ∧ entry.record.isActive = true := by
  cases change with
  | add entry =>
    obtain rfl := List.mem_singleton.mp hid
    exact ⟨entry, List.mem_append_right _ (List.mem_singleton_self _), rfl, hadmitted.2⟩
  | revoke other now => cases hid

theorem inactive_of_revokes (hadmitted : change.Admitted called held) (hid : id ∈ change.revokes) :
    ∃ entry ∈ change.entries held, entry.record.id = id ∧ entry.record.isActive = false := by
  cases change with
  | add entry => cases hid
  | revoke other now =>
    obtain rfl := List.mem_singleton.mp hid
    obtain ⟨-, entry, hentry, hsame⟩ := hadmitted
    refine ⟨_, List.mem_map_of_mem hentry, (revokedAt_id entry).trans hsame, ?_⟩
    rw [isActive_revokedAt, decide_eq_true hsame, Bool.not_true, Bool.and_false]

theorem TokenChange.Admitted.mono (hcalled : called ⊆ called') (h : change.Admitted called held) :
    change.Admitted called' held := by
  cases change with
  | add entry => exact h
  | revoke id now => exact ⟨hcalled h.1, h.2⟩

theorem finish_spec (hsound : Sound store.entries) (h : change.Admitted called store.entries) :
    change.finish store = ({ store with entries := change.entries store.entries }, change.issues, change.revokes) := by
  cases change with
  | add entry => rfl
  | revoke id now =>
    obtain ⟨-, entry, hentry, hid⟩ := h
    cases hfind : store.entries.find? fun entry => entry.record.id = id with
    | none =>
      have hnone := List.find?_eq_none.mp hfind entry hentry
      exact absurd hid (by simpa using hnone)
    | some found =>
      have hfound : found.record.id = id := by simpa using List.find?_some hfind
      unfold TokenChange.finish finishRevoke
      dsimp only
      rw [markRevoked_spec hsound.ids hfind]
      dsimp only
      rw [hfound]
      rfl

theorem map_eq_ok {ε α β : Type} {x : Except ε α} {f : α → β} {b : β} :
    x.map f = .ok b ↔ ∃ a, x = .ok a ∧ f a = b := by
  cases x <;> simp [Except.map]

/-- What a call works out. -/
theorem prepareCall_write (hsound : Sound store.entries) (hcalled : call.revokes ⊆ called)
    (h : prepareCall env store call = .ok (.write next change)) :
    store.fault = none ∧ change.Admitted called store.entries ∧
      next = (change.entries store.entries).map TokenEntry.stored := by
  cases call with
  | issue label now random draws =>
    obtain ⟨⟨tokens, entry, secret⟩, hprepare, heq⟩ := map_eq_ok.mp h
    obtain ⟨rfl, rfl⟩ := Prepared.write.inj heq
    obtain ⟨hfault, hnext, htokens, -, -, hactive⟩ := prepareIssue_spec hsound hprepare
    exact ⟨hfault, ⟨hnext, hactive⟩, htokens⟩
  | revoke id now =>
    obtain ⟨prepared, hprepare, heq⟩ := map_eq_ok.mp h
    cases prepared with
    | inl record => cases heq
    | inr tokens =>
      obtain ⟨rfl, rfl⟩ := Prepared.write.inj heq
      obtain ⟨hfault, htokens, hmem, -⟩ := prepareRevoke_spec hsound hprepare
      exact ⟨hfault, ⟨hcalled (List.mem_singleton_self _), hmem⟩, htokens⟩

theorem prepareCall_nothing (h : prepareCall env store call = .ok (.nothing id)) :
    store.fault = none ∧ ∃ entry ∈ store.entries, entry.record.id = id ∧ entry.record.isActive = false := by
  cases call with
  | issue label now random draws =>
    obtain ⟨prepared, -, heq⟩ := map_eq_ok.mp h
    cases heq
  | revoke other now =>
    obtain ⟨prepared, hprepare, heq⟩ := map_eq_ok.mp h
    cases prepared with
    | inl record =>
      obtain rfl := Prepared.nothing.inj heq
      obtain ⟨hfault, entry, hentry, -, hactive, rfl⟩ := prepareRevoke_done hprepare
      exact ⟨hfault, entry, hentry, rfl, hactive⟩
    | inr tokens => cases heq

end Change

/-! ### Runs -/

/-- The tokens of the file after the change. -/
def TokenChange.text (env : TokenEnv) (held : List TokenEntry) (change : TokenChange) : List Char :=
  fileText env.json ((change.entries held).map TokenEntry.stored)

/-- What holds while the writes come one after the other. -/
structure Orderly (env : TokenEnv) (run : TokenWrites) : Prop where
  valid : run.disk.Valid
  sound : Sound run.store.entries
  revoked : ∀ id ∈ run.revoked, ∃ entry ∈ run.store.entries, entry.record.id = id ∧ entry.record.isActive = false
  issued : ∀ id ∈ run.issued, id ∉ run.called →
    ∃ entry ∈ run.store.entries, entry.record.id = id ∧ entry.record.isActive = true
  /-- A store whose file cannot be read does nothing. -/
  faulty : run.store.fault ≠ none → run.issued = [] ∧ run.revoked = []
  /-- The file has what is in memory, or that and the change of a call that was dropped. -/
  file : run.store.fault = none → ∃ held, readEntriesOf env.json run.disk.text? = .ok held ∧
    (held = run.store.entries ∨
      ∃ change : TokenChange, change.Admitted run.called run.store.entries ∧ held = change.entries run.store.entries)
  underWay : ∀ (t : ℕ) (task : WriteTask), run.tasks[t]? = some task → task.isEnded = false →
    t + 1 = run.tasks.length ∧ run.store.fault = none ∧ task.Working run.disk ∧
      ∃ change : TokenChange, change.Admitted run.called run.store.entries ∧ task.text = change.text env run.store.entries
  calls : ∀ (i : ℕ) (call : TokenCall) (phase : CallPhase), run.calls[i]? = some (call, phase) → call.revokes ⊆ run.called
  saving : ∀ (i : ℕ) (call : TokenCall) (t : ℕ) (change : TokenChange), run.calls[i]? = some (call, .saving t change) →
    run.holder = some i ∧ t + 1 = run.tasks.length ∧ run.store.fault = none ∧
      change.Admitted run.called run.store.entries ∧
      ∃ task, run.tasks[t]? = some task ∧ task.text = change.text env run.store.entries ∧
        (task.stage = .ended true → readEntriesOf env.json run.disk.text? = .ok (change.entries run.store.entries))

section Runs
variable {env : TokenEnv} {run run' : TokenWrites} {call : TokenCall} {phase : CallPhase} {i t : ℕ} {id : TokenId}
  {change : TokenChange} {holder : Option ℕ}

theorem getElem?_set_ended {calls : List (TokenCall × CallPhase)} {other : TokenCall × CallPhase} {j : ℕ}
    (h : (calls.set i (call, .ended))[j]? = some other) : other = (call, .ended) ∨ j ≠ i ∧ calls[j]? = some other := by
  by_cases hji : j = i
  · subst hji
    rw [List.getElem?_set_self'] at h
    obtain ⟨_, -, heq⟩ := Option.map_eq_some_iff.mp h
    exact .inl heq.symm
  · rw [List.getElem?_set_ne (Ne.symm hji)] at h
    exact .inr ⟨hji, h⟩

variable (holder) in
theorem Orderly.endCall (h : Orderly env run) (hcall : run.calls[i]? = some (call, phase))
    (hholder : ∀ j, j ≠ i → run.holder = some j → holder = some j) :
    Orderly env { run with calls := run.calls.set i (call, .ended), holder } := by
  refine { h with calls := fun j other phase' hj => ?_, saving := fun j other t change hj => ?_ }
  · obtain heq | ⟨-, hj⟩ := getElem?_set_ended hj
    · obtain ⟨rfl, -⟩ := Prod.mk.inj heq
      exact h.calls i other phase hcall
    · exact h.calls j other phase' hj
  · obtain heq | ⟨hji, hj⟩ := getElem?_set_ended hj
    · cases congrArg Prod.snd heq
    · obtain ⟨hheld, hrest⟩ := h.saving j other t change hj
      exact ⟨hholder j hji hheld, hrest⟩

theorem Orderly.arrive (h : Orderly env run) (call : TokenCall) :
    Orderly env { run with calls := run.calls ++ [(call, .waiting)], called := run.called ++ call.revokes } := by
  have hcalled : run.called ⊆ run.called ++ call.revokes := List.subset_append_left _ _
  -- a call that was there, or the new one
  have hold : ∀ {j : ℕ} {other : TokenCall × CallPhase}, (run.calls ++ [(call, CallPhase.waiting)])[j]? = some other →
      run.calls[j]? = some other ∨ other = (call, .waiting) := by
    intro j other hj
    rw [List.getElem?_append] at hj
    split_ifs at hj
    · exact .inl hj
    · exact .inr (List.mem_singleton.mp (List.mem_of_getElem? hj))
  refine { h with
    issued := fun id hid hnew => h.issued id hid fun hmem => hnew (hcalled hmem)
    file := fun hfault => ?_
    underWay := fun t task htask hended => ?_
    calls := fun j other phase hj => ?_
    saving := fun j other t change hj => ?_ }
  · obtain ⟨held, hread, rfl | ⟨change, hadmitted, rfl⟩⟩ := h.file hfault
    · exact ⟨_, hread, .inl rfl⟩
    · exact ⟨_, hread, .inr ⟨change, hadmitted.mono hcalled, rfl⟩⟩
  · obtain ⟨hlast, hfault, hworking, change, hadmitted, htext⟩ := h.underWay t task htask hended
    exact ⟨hlast, hfault, hworking, change, hadmitted.mono hcalled, htext⟩
  · obtain hj | heq := hold hj
    · exact fun id hid => hcalled (h.calls j other phase hj hid)
    · obtain ⟨rfl, -⟩ := Prod.mk.inj heq
      exact List.subset_append_right _ _
  · obtain hj | heq := hold hj
    · obtain ⟨hheld, hlast, hfault, hadmitted, hrest⟩ := h.saving j other t change hj
      exact ⟨hheld, hlast, hfault, hadmitted.mono hcalled, hrest⟩
    · cases congrArg Prod.snd heq

theorem Orderly.nothing (h : Orderly env run) (hcall : run.calls[i]? = some (call, phase)) (hfree : run.holder = none)
    (hprepare : prepareCall env run.store call = .ok (.nothing id)) :
    Orderly env { run with calls := run.calls.set i (call, .ended), revoked := run.revoked ++ [id] } := by
  obtain ⟨hfault, hrevoked⟩ := prepareCall_nothing hprepare
  have hended := h.endCall none hcall fun j _ hj => by rw [hfree] at hj; cases hj
  rw [← hfree] at hended
  refine { hended with revoked := fun other hother => ?_, faulty := fun hne => absurd hfault hne }
  obtain hother | hother := List.mem_append.mp hother
  · exact h.revoked other hother
  · obtain rfl := List.mem_singleton.mp hother
    exact hrevoked

theorem Orderly.start (h : Orderly env run) (hcall : run.calls[i]? = some (call, phase)) (hfree : run.holder = none)
    {next : List Stored} (hprepare : prepareCall env run.store call = .ok (.write next change))
    (hidle : ∀ task ∈ run.tasks, task.isEnded = true) :
    Orderly env { run with
      calls := run.calls.set i (call, .saving run.tasks.length change)
      tasks := run.tasks ++ [⟨fileText env.json next, .removing⟩]
      holder := some i } := by
  obtain ⟨hfault, hadmitted, rfl⟩ := prepareCall_write h.sound (h.calls i call phase hcall) hprepare
  have hlength : run.tasks.length + 1 =
      (run.tasks ++ [(⟨change.text env run.store.entries, .removing⟩ : WriteTask)]).length := by
    rw [List.length_append, List.length_singleton]
  refine { h with
    underWay := fun t task htask hended => ?_
    calls := fun j other phase' hj => ?_
    saving := fun j other t other' hj => ?_ }
  · rw [List.getElem?_append] at htask
    split_ifs at htask with hlt
    · cases hended.symm.trans (hidle task (List.mem_of_getElem? htask))
    · rw [List.getElem?_singleton] at htask
      split_ifs at htask with ht
      obtain rfl := Option.some.inj htask
      obtain rfl : t = run.tasks.length := by omega
      exact ⟨hlength, hfault, trivial, change, hadmitted, rfl⟩
  · rw [List.getElem?_set] at hj
    split_ifs at hj with hij
    · obtain ⟨rfl, -⟩ := Prod.mk.inj (Option.some.inj hj)
      exact h.calls i _ phase hcall
    · exact h.calls j other phase' hj
  · rw [List.getElem?_set] at hj
    split_ifs at hj with hij
    · obtain ⟨-, heq⟩ := Prod.mk.inj (Option.some.inj hj)
      obtain ⟨rfl, rfl⟩ := CallPhase.saving.inj heq
      exact ⟨hij ▸ rfl, hlength, hfault, hadmitted, _, List.getElem?_concat_length, rfl, fun hstage => nomatch hstage⟩
    · obtain ⟨hheld, -⟩ := h.saving j other t other' hj
      cases hfree.symm.trans hheld

section Advance
variable {task task' : WriteTask} {move : WriteMove} {disk : Disk}

theorem Orderly.advance (hjson : ReadsBack env.json) (h : Orderly env run) (htask : run.tasks[t]? = some task)
    (hadvance : task.advance move run.disk = some (task', disk)) :
    Orderly env { run with tasks := run.tasks.set t task', disk } := by
  have hgoing : task.isEnded = false := by
    by_contra hended
    rw [isEnded_of_advance_none (eq_true_of_ne_false hended)] at hadvance
    cases hadvance
  obtain ⟨hlast, hfault, hworking, change, hadmitted, htext⟩ := h.underWay t task htask hgoing
  obtain ⟨hsame, hvalid, hworking', hdisk⟩ := advance_spec h.valid hworking hadvance
  have hset : (run.tasks.set t task')[t]? = some task' := by
    rw [List.getElem?_set_self (List.getElem?_eq_some_iff.mp htask).1]
  -- what the file has once the text is in place
  have hplaced : ∀ {change : TokenChange}, change.Admitted run.called run.store.entries →
      task.text = change.text env run.store.entries → task'.stage = .ended true →
      readEntriesOf env.json disk.text? = .ok (change.entries run.store.entries) := by
    intro change hadmitted htext hstage
    rw [if_pos hstage] at hdisk
    rw [hdisk, htext]
    exact readEntriesOf_fileText hjson (sound_entries h.sound hadmitted)
  refine { h with
    valid := hvalid
    file := fun _ => ?_
    underWay := fun s other hother hended => ?_
    saving := fun i call s other hcall => ?_ }
  · by_cases hstage : task'.stage = .ended true
    · exact ⟨_, hplaced hadmitted htext hstage, .inr ⟨change, hadmitted, rfl⟩⟩
    · rw [if_neg hstage] at hdisk
      show ∃ held, readEntriesOf env.json disk.text? = _ ∧ _
      rw [hdisk]
      exact h.file hfault
  · by_cases hst : s = t
    · subst hst
      obtain rfl := Option.some.inj (hset.symm.trans hother)
      exact ⟨by rw [List.length_set]; exact hlast, hfault, hworking', change, hadmitted, hsame.trans htext⟩
    · rw [List.getElem?_set_ne (Ne.symm hst)] at hother
      obtain ⟨hslast, -⟩ := h.underWay s other hother hended
      omega
  · obtain ⟨hheld, hslast, -, hother, saved, hsaved, hstext, -⟩ := h.saving i call s other hcall
    obtain rfl : s = t := by omega
    obtain rfl := Option.some.inj (htask.symm.trans hsaved)
    exact ⟨hheld, by rw [List.length_set]; exact hslast, hfault, hother, task', hset, hsame.trans hstext,
      hplaced hother hstext⟩

end Advance

/-- The calls other than the one that holds the lock do not write. -/
theorem Orderly.holder_eq (h : Orderly env run) {j s : ℕ} {other : TokenChange} {call' : TokenCall}
    (hcall : run.calls[i]? = some (call, .saving t change)) (hother : run.calls[j]? = some (call', .saving s other)) :
    j = i := by
  obtain ⟨hheld, -⟩ := h.saving i call t change hcall
  obtain ⟨hheld', -⟩ := h.saving j call' s other hother
  exact Option.some.inj (hheld'.symm.trans hheld)

theorem Orderly.abandon (h : Orderly env run) (hcall : run.calls[i]? = some (call, .saving t change)) :
    Orderly env { run with calls := run.calls.set i (call, .ended), holder := none } := by
  refine h.endCall _ hcall fun j hji hj => ?_
  obtain ⟨hheld, -⟩ := h.saving i call t change hcall
  exact absurd (Option.some.inj (hj.symm.trans hheld)) hji

theorem Orderly.finish (h : Orderly env run) (hcall : run.calls[i]? = some (call, .saving t change))
    {task : WriteTask} (htask : run.tasks[t]? = some task) (hended : task.stage = .ended true) :
    Orderly env { run with
      store := (change.finish run.store).1
      calls := run.calls.set i (call, .ended)
      holder := none
      issued := run.issued ++ (change.finish run.store).2.1
      revoked := run.revoked ++ (change.finish run.store).2.2 } := by
  obtain ⟨-, hlast, hfault, hadmitted, saved, hsaved, -, hread⟩ := h.saving i call t change hcall
  obtain rfl := Option.some.inj (htask.symm.trans hsaved)
  rw [finish_spec h.sound hadmitted]
  refine {
    valid := h.valid
    sound := sound_entries h.sound hadmitted
    revoked := fun id hid => ?_
    issued := fun id hid hnew => ?_
    faulty := fun hne => absurd hfault hne
    file := fun _ => ⟨_, hread hended, .inl rfl⟩
    underWay := fun s other hother hgoing => ?_
    calls := (h.abandon hcall).calls
    saving := fun j other s change' hj => ?_ }
  · obtain hid | hid := List.mem_append.mp hid
    · exact inactive_entries (h.revoked id hid)
    · exact inactive_of_revokes hadmitted hid
  · obtain hid | hid := List.mem_append.mp hid
    · exact active_entries hadmitted hnew (h.issued id hid hnew)
    · exact active_of_issues hadmitted hid
  · obtain ⟨hslast, -⟩ := h.underWay s other hother hgoing
    obtain rfl : s = t := by omega
    obtain rfl := Option.some.inj (htask.symm.trans hother)
    unfold WriteTask.isEnded at hgoing
    rw [hended] at hgoing
    cases hgoing
  · obtain heq | ⟨hji, hj⟩ := getElem?_set_ended hj
    · cases congrArg Prod.snd heq
    · exact absurd (h.holder_eq hcall hj) hji

/-- Opening the file, now or after a restart, gives the tokens whose revocation or issue succeeded. -/
theorem Orderly.opened (h : Orderly env run) :
    (∀ id ∈ run.revoked, ∃ entry ∈ (openStore env run.disk).entries,
      entry.record.id = id ∧ entry.record.isActive = false) ∧
    (∀ id ∈ run.issued, id ∉ run.called → ∃ entry ∈ (openStore env run.disk).entries,
      entry.record.id = id ∧ entry.record.isActive = true) ∧
    (run.store.fault = none → (openStore env run.disk).fault = none) := by
  by_cases hfault : run.store.fault = none
  · obtain ⟨held, hread, hheld⟩ := h.file hfault
    have hopen : openStore env run.disk = ⟨none, env.sha256 env.operatorSecret, held⟩ := openStore_of_ok hread
    rw [hopen]
    refine ⟨fun id hid => ?_, fun id hid hnew => ?_, fun _ => rfl⟩
    · obtain rfl | ⟨change, -, rfl⟩ := hheld
      · exact h.revoked id hid
      · exact inactive_entries (h.revoked id hid)
    · obtain rfl | ⟨change, hadmitted, rfl⟩ := hheld
      · exact h.issued id hid hnew
      · exact active_entries hadmitted hnew (h.issued id hid hnew)
  · obtain ⟨hissued, hrevoked⟩ := h.faulty hfault
    rw [hissued, hrevoked]
    exact ⟨(fun _ hid => nomatch hid), (fun _ hid => nomatch hid), fun hnone => absurd hnone hfault⟩

theorem Orderly.restart (h : Orderly env run) :
    Orderly env { run with store := openStore env run.disk, calls := [], tasks := [], holder := none } := by
  obtain ⟨hrevoked, hissued, hfault⟩ := h.opened
  exact {
    valid := h.valid
    sound := sound_openStore env run.disk
    revoked := hrevoked
    issued := hissued
    faulty := fun hne => h.faulty fun hnone => hne (hfault hnone)
    file := fun hnone => ⟨_, readEntriesOf_of_openStore rfl hnone, .inl rfl⟩
    underWay := fun _ _ htask => nomatch htask
    calls := fun _ _ _ hcall => nomatch hcall
    saving := fun _ _ _ _ hcall => nomatch hcall }

theorem Orderly.lock (h : Orderly env run) (hover : overlaps env run (.lock i) = false)
    (hstep : (tokenWrites env).step run (.lock i) = some run') : Orderly env run' := by
  unfold tokenWrites at hstep
  dsimp only at hstep
  split at hstep
  · rename_i call hcall hfree
    unfold overlaps at hover
    dsimp only at hover
    rw [hcall, Option.map_some] at hover
    dsimp only at hover
    split at hstep
    · obtain rfl := Option.some.inj hstep
      have hended := h.endCall none hcall fun j _ hj => by rw [hfree] at hj; cases hj
      rwa [← hfree] at hended
    · rename_i id hprepare
      obtain rfl := Option.some.inj hstep
      exact h.nothing hcall hfree hprepare
    · rename_i next change hprepare
      obtain rfl := Option.some.inj hstep
      rw [hprepare] at hover
      refine h.start hcall hfree hprepare fun task htask => ?_
      have hidle := List.any_eq_false.mp hover task htask
      simpa using hidle
  · cases hstep

theorem orderly_of_reachable (hjson : ReadsBack env.json)
    (h : (tokenWrites env).ReachableBy (fun run action => overlaps env run action = false) run) : Orderly env run := by
  refine h.invariant ?_ ?_
  · rintro _ ⟨disk, hvalid, rfl⟩
    have hinit : Orderly env ⟨disk, openStore env disk, [], [], none, [], [], []⟩ := {
      valid := hvalid
      sound := sound_openStore env disk
      revoked := fun _ hid => nomatch hid
      issued := fun _ hid => nomatch hid
      faulty := fun _ => ⟨rfl, rfl⟩
      file := fun hnone => ⟨_, readEntriesOf_of_openStore rfl hnone, .inl rfl⟩
      underWay := fun _ _ htask => nomatch htask
      calls := fun _ _ _ hcall => nomatch hcall
      saving := fun _ _ _ _ hcall => nomatch hcall }
    exact hinit
  · intro run action run' _ hover h hstep
    cases action with
    | call call =>
      obtain rfl := Option.some.inj hstep
      exact h.arrive call
    | lock i => exact h.lock hover hstep
    | advance t move =>
      obtain ⟨task, htask, hmap⟩ := Option.bind_eq_some_iff.mp hstep
      obtain ⟨⟨task', disk⟩, hadvance, rfl⟩ := Option.map_eq_some_iff.mp hmap
      exact h.advance hjson htask hadvance
    | finish i =>
      unfold tokenWrites at hstep
      dsimp only at hstep
      split at hstep
      · rename_i call t change hcall
        split at hstep
        · rename_i hstage
          obtain ⟨task, htask, hended⟩ := Option.map_eq_some_iff.mp hstage
          obtain rfl := Option.some.inj hstep
          exact h.finish hcall htask hended
        · obtain rfl := Option.some.inj hstep
          exact h.abandon hcall
        · cases hstep
      · cases hstep
    | drop i =>
      unfold tokenWrites at hstep
      dsimp only at hstep
      split at hstep
      · rename_i call hcall
        obtain rfl := Option.some.inj hstep
        exact h.endCall _ hcall fun _ _ hj => hj
      · rename_i call t change hcall
        obtain rfl := Option.some.inj hstep
        exact h.abandon hcall
      · cases hstep
    | restart =>
      obtain rfl := Option.some.inj hstep
      exact h.restart

/-- What a success promises about the file, whenever it is opened. -/
structure Stays (env : TokenEnv) (run : TokenWrites) : Prop where
  revoked : ∀ id ∈ run.revoked, ∀ entry ∈ (openStore env run.disk).entries,
    entry.record.id = id → entry.record.isActive = false
  refused : ∀ id ∈ run.revoked, ∀ presented label, authenticate env (openStore env run.disk) presented ≠ .agent label id
  issued : ∀ id ∈ run.issued, id ∉ run.called →
    ∃ entry ∈ (openStore env run.disk).entries, entry.record.id = id ∧ entry.record.isActive = true

/-- **Revoked tokens stay revoked, and issued ones stay**, in every run in which no call starts a write while the task of
an earlier one is under way. -/
theorem revoked_stay_revoked (hjson : ReadsBack env.json)
    (h : (tokenWrites env).ReachableBy (fun run action => overlaps env run action = false) run) : Stays env run := by
  obtain ⟨hrevoked, hissued, -⟩ := (orderly_of_reachable hjson h).opened
  have hstays : ∀ id ∈ run.revoked, ∀ entry ∈ (openStore env run.disk).entries,
      entry.record.id = id → entry.record.isActive = false := by
    rintro _ hid entry hentry rfl
    obtain ⟨other, hother, hsame, hinactive⟩ := hrevoked _ hid
    have heq : other = entry := List.inj_on_of_nodup_map (sound_openStore env run.disk).ids hother hentry hsame
    rwa [heq] at hinactive
  refine ⟨hstays, fun id hid presented label haccepted => ?_, hissued⟩
  obtain ⟨entry, hentry, hactive, -, -, rfl⟩ := authenticate_eq_agent haccepted
  rw [hstays _ hid entry hentry rfl] at hactive
  cases hactive

end Runs

section Example

def porch : AgentLabel := ⟨"porch", by decide⟩

/-- A whole write by the task, its text in one piece. -/
def wholeWrite (t : ℕ) : List WritesAction :=
  [.advance t .succeed, .advance t .succeed, .advance t .succeed, .advance t .succeed]

/-- The kitchen's token is issued. -/
def kitchenIssue : List WritesAction :=
  .call (.issue kitchen 1 (some (List.replicate 32 7)) [some [1, 2, 3, 4]]) :: .lock 0 :: (wholeWrite 0).concat (.finish 0)

/-- The request for the porch's is dropped once its write is under way. -/
def porchDropped : List WritesAction :=
  [.call (.issue porch 2 (some (List.replicate 32 8)) [some [5, 6, 7, 8]]), .lock 1, .drop 1]

def kitchenRevoke : List WritesAction := .call (.revoke kitchenId 3) :: .lock 2 :: (wholeWrite 2).concat (.finish 2)

/-- The write of the dropped request comes to its end after the kitchen's token is revoked. -/
def droppedIssue : List WritesAction := (kitchenIssue ++ porchDropped) ++ (kitchenRevoke ++ wholeWrite 1)

def firstWrites : TokenWrites := ⟨noFile, openStore smallEnv noFile, [], [], none, [], [], []⟩

theorem droppedIssue_isSome : ((tokenWrites smallEnv).exec firstWrites droppedIssue).isSome = true := by decide +kernel

def afterDroppedIssue : TokenWrites := ((tokenWrites smallEnv).exec firstWrites droppedIssue).get droppedIssue_isSome

/-- The kitchen's token as it was issued, and the porch's. -/
def issuedEntries : List TokenEntry :=
  [⟨⟨kitchenId, kitchen, 1, none⟩, lastBytes (secretOf agentPrefix (List.replicate 32 7))⟩,
    ⟨⟨⟨"t-05060708", by decide⟩, porch, 2, none⟩, lastBytes (secretOf agentPrefix (List.replicate 32 8))⟩]

attribute [local irreducible] fileText in
theorem text_afterDroppedIssue :
    afterDroppedIssue.disk.text? = some (fileText blanksDropped (issuedEntries.map TokenEntry.stored)) :=
  rfl

/-- A dropped request can take a revocation back. -/
theorem not_revoked_stay_revoked :
    ∃ run, (tokenWrites smallEnv).Reachable run ∧ kitchenId ∈ run.revoked ∧ ¬Stays smallEnv run := by
  refine ⟨afterDroppedIssue, ?_, by decide +kernel, fun hstays => ?_⟩
  · exact Machine.reachable_of_exec firstWrites droppedIssue ⟨noFile, by simp [Disk.Valid, noFile], rfl⟩
      (Option.some_get droppedIssue_isSome).symm
  · have hsound : Sound issuedEntries := ⟨by decide +kernel, by decide +kernel, by decide +kernel⟩
    have hread : readEntriesOf smallEnv.json afterDroppedIssue.disk.text? = .ok issuedEntries := by
      rw [text_afterDroppedIssue]
      exact readEntriesOf_fileText blanksDropped_readsBack hsound
    have hopen : openStore smallEnv afterDroppedIssue.disk = ⟨none, lastBytes "daro_operator", issuedEntries⟩ :=
      openStore_of_ok hread
    have hactive := hstays.revoked kitchenId (by decide +kernel)
    rw [hopen] at hactive
    exact absurd (hactive _ List.mem_cons_self rfl) (by decide)

/-- It comes to its end before. -/
def promptIssue : List WritesAction := (kitchenIssue ++ porchDropped) ++ (wholeWrite 1 ++ kitchenRevoke)

theorem promptIssue_isSome :
    ((tokenWrites smallEnv).execBy (fun run action => overlaps smallEnv run action = false) firstWrites
      promptIssue).isSome = true := by decide +kernel

def afterPromptIssue : TokenWrites :=
  ((tokenWrites smallEnv).execBy (fun run action => overlaps smallEnv run action = false) firstWrites promptIssue).get
    promptIssue_isSome

example : afterPromptIssue.revoked = [kitchenId] := by decide +kernel

theorem revoked_stay_revoked_promptIssue : Stays smallEnv afterPromptIssue :=
  revoked_stay_revoked blanksDropped_readsBack
    (Machine.reachableBy_of_execBy firstWrites promptIssue ⟨noFile, by simp [Disk.Valid, noFile], rfl⟩
      (Option.some_get promptIssue_isSome).symm)

end Example

end DenonAvr.Infrastructure
