import DenonAvr.Infrastructure.AuditFile
import DenonAvr.Library.Machine

/-!
# The audit log on disk

The log as a machine whose steps are appends and restarts. An append runs under the log's lock and on a task of its
own, so it is one step; it may fail at each of its stages, with what the stage has done to the files left behind. A
crash is an append that fails so, followed by a restart.
-/

namespace DenonAvr.Infrastructure

open Domain Application Library

/-! ### The log -/

/-- How much audit is kept. -/
structure AuditLimits where
  maxFileBytes : ℕ
  /-- The active file included. -/
  maxFiles : ℕ
deriving DecidableEq

/-- `with_limits`: at least one file. -/
def AuditLimits.clamped (limits : AuditLimits) : AuditLimits := { limits with maxFiles := max limits.maxFiles 1 }

inductive Durability
  | flushed | synced
deriving DecidableEq

/-- Where opening the active file failed. -/
inductive OpenFault
  | creating
  /-- The file was there or was created, and could not be looked at. -/
  | looking
  /-- Ending a line that was cut short failed, after the line ending had landed or before. -/
  | ending (landed : Bool)
deriving DecidableEq

inductive WriteFault
  /-- Writing or flushing failed when this many bytes had landed. -/
  | writing (landed : ℕ)
  | syncing
deriving DecidableEq

/-- Where an append fails, if it gets there. -/
structure Faults where
  preparing : Bool := false
  /-- Reading the files for the highest sequence number. -/
  reading : Bool := false
  opening : Option OpenFault := none
  /-- After this many files were moved or removed. -/
  rotating : Option ℕ := none
  reopening : Option OpenFault := none
  writing : Option WriteFault := none
deriving DecidableEq

structure Log where
  limits : AuditLimits
  files : Files
  nextSeq : Option ℕ
  /-- The size of the active file, when it is open for appending. -/
  writer : Option ℕ
  /-- The whole line of a write that failed is in the files, since the start of this process. -/
  leftover : Bool
  /-- Every append so far, and whether it succeeded. -/
  appends : List (AuditRecord × Bool)
  /-- What was in the files that rotations removed, oldest first. -/
  removed : List (List UInt8)

/-- No files, and a process that has just started. -/
def Log.new (limits : AuditLimits) : Log :=
  { limits := limits.clamped, files := [], nextSeq := none, writer := none, leftover := false, appends := [],
    removed := [] }

/-- The highest sequence number in the newest file that has one. -/
def highestSeq (json : JsonText) (files : Files) : ℕ :=
  (files.reverse.findSome? fun file => ((readEntries json file.2).map Decoded.seq).max?).getD 0

/-! ### Appending

Each stage results in the log it leaves behind, as `error` when it failed. -/

def prepare (faults : Faults) (log : Log) : Except Log Log := if faults.preparing then .error log else .ok log

/-- The sequence number the record gets. -/
def number (json : JsonText) (faults : Faults) (log : Log) : Except Log (ℕ × Log) :=
  match log.nextSeq with
  | some seq => .ok (seq, log)
  | none =>
    if faults.reading then .error log
    else .ok (highestSeq json log.files + 1, { log with nextSeq := some (highestSeq json log.files + 1) })

def endsWithNewline (bytes : List UInt8) : Bool := bytes.getLast? == some 10

/-- Open the active file for appending, ending a line a crash cut short. -/
def openWriter (fault : Option OpenFault) (log : Log) : Except Log Log :=
  if fault = some .creating then .error log
  else
    let log := { log with files := touchActive log.files }
    let bytes := activeBytes log.files
    if fault = some .looking then .error log
    else if bytes ≠ [] ∧ endsWithNewline bytes = false then
      match fault with
      | some (.ending false) => .error log
      | some (.ending true) => .error { log with files := writeActive log.files [10] }
      | _ => .ok { log with files := writeActive log.files [10], writer := some (bytes.length + 1) }
    else .ok { log with writer := some bytes.length }

def openIfClosed (fault : Option OpenFault) (log : Log) : Except Log Log :=
  if log.writer = none then openWriter fault log else .ok log

/-- Move `done` of the files one place older and drop what falls past the count. -/
def moveFiles (done : ℕ) (log : Log) : Log :=
  let keep := log.limits.maxFiles - 1
  { log with
    files := rotateFiles keep done log.files,
    removed := log.removed ++ (removedFiles keep done log.files).map Prod.snd }

def rotate (fault : Option ℕ) (log : Log) : Except Log Log :=
  match fault with
  | some done => .error (moveFiles done log)
  | none => .ok (moveFiles log.files.length log)

/-- Start a new file when the active one has no room for `needed` bytes more. -/
def makeRoom (faults : Faults) (needed : ℕ) (log : Log) : Except Log Log :=
  let len := log.writer.getD 0
  if 0 < len ∧ log.limits.maxFileBytes < len + needed then do
    let log ← rotate faults.rotating { log with writer := none }
    openWriter faults.reopening log
  else .ok log

/-- The bytes of the line that landed when the write failed. -/
def landedBytes (fault : Option WriteFault) (durability : Durability) (line : List UInt8) : Option (List UInt8) :=
  match fault, durability with
  | some (.writing landed), _ => some (line.take landed)
  | some .syncing, .synced => some line
  | some .syncing, .flushed => none
  | none, _ => none

def write (fault : Option WriteFault) (durability : Durability) (seq : ℕ) (line : List UInt8) (log : Log) :
    Except Log Log :=
  match landedBytes fault durability line with
  | none =>
    .ok { log with
      files := writeActive log.files line,
      writer := log.writer.map (· + line.length),
      nextSeq := some (seq + 1) }
  | some bytes =>
    .error { log with
      files := writeActive log.files bytes,
      writer := none,
      leftover := log.leftover || decide (line.length ≤ bytes.length + 1) }

/-- Everything before the write. -/
def reachWrite (json : JsonText) (record : AuditRecord) (faults : Faults) (log : Log) : Except Log (ℕ × Log) := do
  let log ← prepare faults log
  let (seq, log) ← number json faults log
  let log ← openIfClosed faults.opening log
  let log ← makeRoom faults (lineOf json seq record).length log
  return (seq, log)

/-- `append_locked`. -/
def appendLocked (json : JsonText) (record : AuditRecord) (durability : Durability) (faults : Faults) (log : Log) :
    Except Log Log := do
  let (seq, log) ← reachWrite json record faults log
  write faults.writing durability seq (lineOf json seq record) log

inductive LogAction
  | append (record : AuditRecord) (durability : Durability) (faults : Faults)
  /-- The process ends, or is killed, and another starts. -/
  | restart (limits : AuditLimits)

def auditLog (json : JsonText) : Machine Log LogAction where
  init := fun log => ∃ limits, log = Log.new limits
  step := fun log action =>
    match action with
    | .append record durability faults =>
      if recordFits record then
        match appendLocked json record durability faults log with
        | .ok log => some { log with appends := log.appends ++ [(record, true)] }
        | .error log => some { log with appends := log.appends ++ [(record, false)] }
      else none
    | .restart limits =>
      some { log with limits := limits.clamped, nextSeq := none, writer := none, leftover := false }

/-! ### Reading -/

def recordsOf (json : JsonText) (bytes : List UInt8) : List AuditRecord := (entriesOf json bytes).filterMap Decoded.record

/-- The log as `since` finds it, with the time each file was last written. -/
def Log.logFiles (json : JsonText) (modified : ℕ → Option WallTime) (log : Log) : List LogFile :=
  log.files.map fun file => ⟨modified file.1, recordsOf json file.2⟩

/-- The entries of the log's lines, the oldest file first. -/
def Log.entries (json : JsonText) (log : Log) : List Decoded := log.files.flatMap fun file => entriesOf json file.2

/-! ### What a stage does to the files -/

/-- `P` of what a failed stage leaves behind, or `Q` of what a stage results in. -/
def Ends {ε α : Type*} (P : ε → Prop) (Q : α → Prop) : Except ε α → Prop
  | .error e => P e
  | .ok a => Q a

theorem Ends.imp {ε α : Type*} {P P' : ε → Prop} {Q Q' : α → Prop} {x : Except ε α} (h : Ends P Q x)
    (herror : ∀ e, P e → P' e) (hok : ∀ a, Q a → Q' a) : Ends P' Q' x := by
  cases x with
  | error e => exact herror e h
  | ok a => exact hok a h

theorem Ends.bind {ε α β : Type} {P : ε → Prop} {Q : α → Prop} {R : β → Prop} {x : Except ε α}
    {f : α → Except ε β} (h : Ends P Q x) (hf : ∀ a, Q a → Ends P R (f a)) : Ends P R (x >>= f) := by
  cases x with
  | error e => exact h
  | ok a => exact hf a h

/-- The active file can be written at its end: it has no line that was cut short, and the writer knows its size. -/
def Writable (files : Files) (len : ℕ) : Prop :=
  ∃ older bytes, files = older ++ [(0, bytes)] ∧ (∀ file ∈ older, 0 < file.1) ∧ bytes.length = len ∧
    (bytes = [] ∨ ∃ body, bytes = body ++ [10])

structure Log.Sound (json : JsonText) (log : Log) : Prop where
  order : log.files.InOrder
  /-- Both ways of reading find the same entries. -/
  agree : ∀ file ∈ log.files, readEntries json file.2 = entriesOf json file.2
  writer : ∀ len, log.writer = some len → Writable log.files len

/-- From `log` to `log'`, entries were added at the end and whole files removed at the start. -/
structure Came (json : JsonText) (log : Log) (added : List Decoded) (log' : Log) : Prop where
  sound : log'.Sound json
  removed : ∃ bytes, log'.removed = log.removed ++ bytes ∧
    log.entries json ++ added = bytes.flatMap (entriesOf json) ++ log'.entries json
  appends : log'.appends = log.appends

section Stages
variable {json : JsonText} {log log' log'' : Log} {added added' : List Decoded} {older files : Files}
  {bytes more : List UInt8} {len : ℕ}

theorem Came.refl (h : log.Sound json) : Came json log [] log := ⟨h, ⟨[], by simp, by simp⟩, rfl⟩

theorem Came.trans (h : Came json log added log') (h' : Came json log' added' log'') :
    Came json log (added ++ added') log'' := by
  obtain ⟨bytes, hbytes, hentries⟩ := h.removed
  obtain ⟨bytes', hbytes', hentries'⟩ := h'.removed
  refine ⟨h'.sound, ⟨bytes ++ bytes', ?_, ?_⟩, h'.appends.trans h.appends⟩
  · rw [hbytes', hbytes, List.append_assoc]
  · rw [← List.append_assoc, hentries, List.append_assoc, hentries', List.flatMap_append, List.append_assoc]

theorem Came.extend (h : Came json log added log') (h' : Came json log' [] log'') : Came json log added log'' := by
  have := h.trans h'
  rwa [List.append_nil] at this

/-- What is added at the end of the active file, when its lines are complete or a line ending is added. -/
theorem entriesOf_append {read : List UInt8 → List Decoded} (hread : Reads json read)
    (h : (bytes = [] ∨ ∃ body, bytes = body ++ [10]) ∨ more = [10]) : read (bytes ++ more) = read bytes ++ read more := by
  have hline : read [10] = [] := by simpa [hread.nil] using hread.newline [] []
  obtain (rfl | ⟨body, rfl⟩) | rfl := h
  · rw [hread.nil, List.nil_append, List.nil_append]
  · rw [List.append_assoc, List.singleton_append, hread.newline, hread.newline, hread.nil, List.append_nil]
  · rw [hread.newline, hread.nil, hline]

/-- Writing at the end of the active file. -/
theorem came_writeActive (hjson : json.Lawful IsRecord) (hsound : log.Sound json)
    (hfiles : log.files = older ++ [(0, bytes)])
    (holder : ∀ file ∈ older, 0 < file.1) (hmore : (bytes = [] ∨ ∃ body, bytes = body ++ [10]) ∨ more = [10])
    (hadded : ∀ read, Reads json read → read more = added) (hlog : log'.files = writeActive log.files more)
    (hremoved : log'.removed = log.removed) (happends : log'.appends = log.appends)
    (hwriter : ∀ len, log'.writer = some len → Writable log'.files len) : Came json log added log' := by
  have hfiles' : log'.files = older ++ [(0, bytes ++ more)] := by rw [hlog, hfiles, writeActive_concat holder]
  have hnew : ∀ read, Reads json read → read (bytes ++ more) = read bytes ++ added := fun read hread => by
    rw [entriesOf_append hread hmore, hadded read hread]
  have hlast : (0, bytes) ∈ log.files := by rw [hfiles]; simp
  refine ⟨⟨?_, ?_, hwriter⟩, ⟨[], by rw [hremoved, List.append_nil], ?_⟩, happends⟩
  · rw [hfiles']
    have horder := hsound.order
    rw [hfiles] at horder
    exact inOrder_concat (List.pairwise_append.mp horder).1 holder
  · intro file hfile
    rw [hfiles', List.mem_append, List.mem_singleton] at hfile
    obtain hfile | rfl := hfile
    · exact hsound.agree file (by rw [hfiles]; exact List.mem_append_left _ hfile)
    · rw [hnew _ (reads_readEntries hjson), hnew _ (reads_entriesOf hjson), hsound.agree _ hlast]
  · unfold Log.entries
    rw [hfiles', hfiles]
    simp [hnew _ (reads_entriesOf hjson)]

/-- A process that only looks at the files, or forgets its writer. -/
theorem came_of_files_eq (hsound : log.Sound json) (hfiles : log'.files = log.files)
    (hremoved : log'.removed = log.removed) (happends : log'.appends = log.appends)
    (hwriter : ∀ len, log'.writer = some len → Writable log'.files len) : Came json log [] log' := by
  refine ⟨⟨by rw [hfiles]; exact hsound.order, by rw [hfiles]; exact hsound.agree, hwriter⟩, ⟨[], ?_, ?_⟩, happends⟩
  · rw [hremoved, List.append_nil]
  · unfold Log.entries
    rw [hfiles, List.append_nil, List.flatMap_nil, List.nil_append]

/-- The active file is there once it was opened. -/
theorem touched (hjson : json.Lawful IsRecord) (hsound : log.Sound json) (hclosed : log.writer = none) :
    ∃ older bytes, touchActive log.files = older ++ [(0, bytes)] ∧ (∀ file ∈ older, 0 < file.1) ∧
      Came json log [] { log with files := touchActive log.files } := by
  obtain ⟨older, bytes, hfiles, holder⟩ | hnone := inOrder_cases hsound.order
  · have htouch : touchActive log.files = log.files := by rw [hfiles, touchActive_of_active]
    refine ⟨older, bytes, by rw [htouch, hfiles], holder, came_of_files_eq hsound htouch rfl rfl ?_⟩
    simp [hclosed]
  · have htouch := touchActive_of_none hnone
    refine ⟨log.files, [], htouch, hnone, ⟨⟨?_, ?_, by simp [hclosed]⟩, ⟨[], by simp, ?_⟩, rfl⟩⟩
    · show (touchActive log.files).InOrder
      rw [htouch]
      exact inOrder_concat hsound.order hnone
    · intro file hfile
      rw [show ({ log with files := touchActive log.files } : Log).files = log.files ++ [(0, [])] from htouch,
        List.mem_append, List.mem_singleton] at hfile
      obtain hfile | rfl := hfile
      · exact hsound.agree file hfile
      · rw [(reads_readEntries hjson).nil, (reads_entriesOf hjson).nil]
    · unfold Log.entries
      simp [htouch, (reads_entriesOf hjson).nil]

theorem endsWithNewline_cases (bytes : List UInt8) :
    (bytes = [] ∨ ∃ body, bytes = body ++ [10]) ∨ bytes ≠ [] ∧ endsWithNewline bytes = false := by
  rcases List.eq_nil_or_concat' bytes with rfl | ⟨body, b, rfl⟩
  · exact .inl (.inl rfl)
  · unfold endsWithNewline
    by_cases hb : b = 10
    · exact .inl (.inr ⟨body, by rw [hb]⟩)
    · exact .inr ⟨by simp, by simpa using hb⟩

/-- What every stage keeps of the process. -/
def SameProcess (log log' : Log) : Prop :=
  log'.nextSeq = log.nextSeq ∧ log'.leftover = log.leftover ∧ log'.limits = log.limits

/-- **Opening the active file** adds no entry, whatever was at its end. -/
theorem openWriter_ends (hjson : json.Lawful IsRecord) (hsound : log.Sound json) (hclosed : log.writer = none)
    (fault : Option OpenFault) :
    Ends (fun log' => Came json log [] log' ∧ SameProcess log log')
      (fun log' => Came json log [] log' ∧ SameProcess log log' ∧ log'.writer ≠ none) (openWriter fault log) := by
  obtain ⟨older, bytes, hfiles, holder, hcame⟩ := touched hjson hsound hclosed
  obtain ⟨touchedLog, htouched⟩ : ∃ t : Log, t = { log with files := touchActive log.files } := ⟨_, rfl⟩
  rw [← htouched] at hcame
  have hsame : SameProcess log touchedLog := by rw [htouched]; exact ⟨rfl, rfl, rfl⟩
  have htfiles : touchedLog.files = older ++ [(0, bytes)] := by rw [htouched]; exact hfiles
  have hactive : activeBytes touchedLog.files = bytes := by rw [htfiles, activeBytes_concat holder]
  have htwriter : touchedLog.writer = none := by rw [htouched]; exact hclosed
  -- the line ending that ends a line which was cut short
  have hend : ∀ writer : Option ℕ, (∀ len, writer = some len → len = bytes.length + 1) →
      Came json log [] { touchedLog with files := writeActive touchedLog.files [10], writer := writer } := by
    intro writer hlen
    refine hcame.extend (came_writeActive hjson hcame.sound htfiles holder (.inr rfl) ?_ rfl rfl rfl ?_)
    · intro read hread
      simpa [hread.nil] using hread.newline [] []
    · intro len hwriter
      rw [hlen len hwriter]
      refine ⟨older, bytes ++ [10], ?_, holder, by simp, .inr ⟨bytes, rfl⟩⟩
      show writeActive touchedLog.files [10] = _
      rw [htfiles, writeActive_concat holder]
  unfold openWriter
  rw [← htouched]
  dsimp only
  rw [hactive]
  split_ifs with hcreating hlooking hcut
  · exact ⟨.refl hsound, rfl, rfl, rfl⟩
  · exact ⟨hcame, hsame⟩
  · have hended := hend none (by simp)
    rw [← htwriter] at hended
    split
    · exact ⟨hcame, hsame⟩
    · exact ⟨hended, hsame⟩
    · exact ⟨hend _ (fun len h => (Option.some.inj h).symm), hsame, by simp⟩
  · have hready := (endsWithNewline_cases bytes).resolve_right hcut
    refine ⟨hcame.trans (came_of_files_eq hcame.sound rfl rfl rfl ?_), hsame, by simp⟩
    intro len hwriter
    exact ⟨older, bytes, htfiles, holder, Option.some.inj hwriter, hready⟩

theorem openIfClosed_ends (hjson : json.Lawful IsRecord) (hsound : log.Sound json) (fault : Option OpenFault) :
    Ends (fun log' => Came json log [] log' ∧ SameProcess log log')
      (fun log' => Came json log [] log' ∧ SameProcess log log' ∧ log'.writer ≠ none) (openIfClosed fault log) := by
  unfold openIfClosed
  split_ifs with hclosed
  · exact openWriter_ends hjson hsound hclosed fault
  · exact ⟨.refl hsound, ⟨rfl, rfl, rfl⟩, hclosed⟩

/-- **A rotation**, stopped anywhere, removes whole files and adds nothing. -/
theorem came_moveFiles (hsound : log.Sound json) (hclosed : log.writer = none) (done : ℕ) :
    Came json log [] (moveFiles done log) := by
  have hcontents := removedFiles_rotateFiles (log.limits.maxFiles - 1) done hsound.order
  refine ⟨⟨inOrder_rotateFiles hsound.order, ?_, fun len hwriter => ?_⟩, ⟨_, rfl, ?_⟩, rfl⟩
  · intro file hfile
    have hmem : file.2 ∈ log.files.map Prod.snd := by
      rw [← hcontents]
      exact List.mem_append_right _ (List.mem_map_of_mem hfile)
    obtain ⟨old, hold, heq⟩ := List.mem_map.mp hmem
    rw [← heq]
    exact hsound.agree old hold
  · have hwriter : log.writer = some len := hwriter
    rw [hclosed] at hwriter
    cases hwriter
  · have hentries : ∀ files : Files, (files.flatMap fun file => entriesOf json file.2) =
        (files.map Prod.snd).flatMap (entriesOf json) := fun files => by rw [List.flatMap_map]
    unfold Log.entries
    rw [hentries, hentries, List.append_nil, ← hcontents, List.flatMap_append]
    rfl

theorem rotate_ends (hsound : log.Sound json) (hclosed : log.writer = none) (fault : Option ℕ) :
    Ends (fun log' => Came json log [] log' ∧ SameProcess log log')
      (fun log' => Came json log [] log' ∧ SameProcess log log' ∧ log'.writer = none) (rotate fault log) := by
  cases fault with
  | some done => exact ⟨came_moveFiles hsound hclosed done, rfl, rfl, rfl⟩
  | none => exact ⟨came_moveFiles hsound hclosed _, ⟨rfl, rfl, rfl⟩, hclosed⟩

theorem SameProcess.trans (h : SameProcess log log') (h' : SameProcess log' log'') : SameProcess log log'' :=
  ⟨h'.1.trans h.1, h'.2.1.trans h.2.1, h'.2.2.trans h.2.2⟩

theorem makeRoom_ends (hjson : json.Lawful IsRecord) (hsound : log.Sound json) (hopen : log.writer ≠ none)
    (faults : Faults)
    (needed : ℕ) :
    Ends (fun log' => Came json log [] log' ∧ SameProcess log log')
      (fun log' => Came json log [] log' ∧ SameProcess log log' ∧ log'.writer ≠ none) (makeRoom faults needed log) := by
  unfold makeRoom
  dsimp only
  split_ifs
  · have hclosed : Came json log [] { log with writer := none } :=
      came_of_files_eq hsound rfl rfl rfl (by simp)
    have hrotate := rotate_ends hclosed.sound rfl faults.rotating
    have hrotated : Ends (fun log' => Came json log [] log' ∧ SameProcess log log')
        (fun log' => Came json log [] log' ∧ SameProcess log log' ∧ log'.writer = none)
        (rotate faults.rotating { log with writer := none }) :=
      hrotate.imp (fun _ h => ⟨hclosed.trans h.1, h.2⟩) fun _ h => ⟨hclosed.trans h.1, h.2⟩
    refine hrotated.bind ?_
    rintro rotated ⟨hcame, hsame, hwriter⟩
    exact (openWriter_ends hjson hcame.sound hwriter faults.reopening).imp
      (fun _ h => ⟨hcame.trans h.1, hsame.trans h.2⟩) fun _ h => ⟨hcame.trans h.1, hsame.trans h.2.1, h.2.2⟩
  · exact ⟨.refl hsound, ⟨rfl, rfl, rfl⟩, hopen⟩

/-- The sequence number that an append uses. -/
def seqOf (json : JsonText) (log : Log) : ℕ := log.nextSeq.getD (highestSeq json log.files + 1)

theorem number_ends (hsound : log.Sound json) (faults : Faults) :
    Ends (fun log' => log' = log)
      (fun result => result.1 = seqOf json log ∧ Came json log [] result.2 ∧ result.2.nextSeq = some (seqOf json log) ∧
        result.2.leftover = log.leftover ∧ result.2.limits = log.limits) (number json faults log) := by
  unfold number
  cases hnext : log.nextSeq with
  | some seq => exact ⟨by rw [seqOf, hnext]; rfl, .refl hsound, by rw [seqOf, hnext]; rfl, rfl, rfl⟩
  | none =>
    have hseq : seqOf json log = highestSeq json log.files + 1 := by rw [seqOf, hnext]; rfl
    dsimp only
    split_ifs
    · exact rfl
    · exact ⟨hseq.symm, came_of_files_eq hsound rfl rfl rfl hsound.writer, by rw [hseq], rfl, rfl⟩

/-- A stage before the write failed. -/
structure Unreached (json : JsonText) (log log' : Log) : Prop where
  came : Came json log [] log'
  nextSeq : log'.nextSeq = log.nextSeq ∨ log'.nextSeq = some (seqOf json log)
  leftover : log'.leftover = log.leftover

structure ReachedWrite (json : JsonText) (log : Log) (seq : ℕ) (log' : Log) : Prop where
  came : Came json log [] log'
  seq_eq : seq = seqOf json log
  nextSeq : log'.nextSeq = some seq
  leftover : log'.leftover = log.leftover
  writer : log'.writer ≠ none

theorem reachWrite_ends (hjson : json.Lawful IsRecord) (hsound : log.Sound json) (record : AuditRecord)
    (faults : Faults) :
    Ends (Unreached json log) (fun result => ReachedWrite json log result.1 result.2)
      (reachWrite json record faults log) := by
  have hstart : Unreached json log log := ⟨.refl hsound, .inl rfl, rfl⟩
  unfold reachWrite
  refine Ends.bind (Q := fun log' => log' = log) ?_ ?_
  · unfold prepare
    split_ifs
    · exact hstart
    · exact rfl
  rintro log rfl
  refine Ends.bind ((number_ends hsound faults).imp (fun _ h => h ▸ hstart) fun _ h => h) ?_
  rintro ⟨seq, numbered⟩ ⟨hseq, hcame, hnext, hleftover, -⟩
  dsimp only at hseq hcame hnext hleftover ⊢
  have hunreached : ∀ log', Came json numbered [] log' ∧ SameProcess numbered log' → Unreached json log log' :=
    fun log' h => ⟨hcame.trans h.1, .inr (h.2.1.trans hnext), h.2.2.1.trans hleftover⟩
  refine Ends.bind ((openIfClosed_ends hjson hcame.sound faults.opening).imp hunreached fun _ h => h) ?_
  rintro opened ⟨hopened, hsame, hwriter⟩
  refine Ends.bind ((makeRoom_ends hjson hopened.sound hwriter faults _).imp
    (fun log' h => hunreached log' ⟨hopened.trans h.1, hsame.trans h.2⟩) fun _ h => h) ?_
  rintro ready ⟨hready, hsame', hwriter'⟩
  exact ⟨hcame.trans (hopened.trans hready), hseq, ((hsame.trans hsame').1.trans hnext).trans (by rw [hseq]),
    (hsame.trans hsame').2.1.trans hleftover, hwriter'⟩

/-- What a record's line adds to what is read. -/
def entryOf (seq : ℕ) (record : AuditRecord) : Decoded := ⟨seq, some (boundedRecord record)⟩

theorem lineOf_eq (seq : ℕ) (record : AuditRecord) :
    lineOf json seq record = Utf8.encode (encode json seq record) ++ [10] := Utf8.encode_append _ _

theorem read_lineOf {read : List UInt8 → List Decoded} (hread : Reads json read) {seq : ℕ} {record : AuditRecord}
    (hfits : recordFits record = true) : read (lineOf json seq record) = [entryOf seq record] := by
  rw [lineOf_eq, hread.newline, hread.whole seq record hfits, hread.nil]
  rfl

/-- What has landed of a line is read as the whole line or not at all. -/
theorem read_take {read : List UInt8 → List Decoded} (hread : Reads json read) {seq : ℕ} {record : AuditRecord}
    (hfits : recordFits record = true) (landed : ℕ) :
    read ((lineOf json seq record).take landed) =
      if (lineOf json seq record).length ≤ ((lineOf json seq record).take landed).length + 1 then
        [entryOf seq record]
      else [] := by
  obtain ⟨text, htext⟩ : ∃ text, Utf8.encode (encode json seq record) = text := ⟨_, rfl⟩
  have hline : lineOf json seq record = text ++ [10] := by rw [lineOf_eq, htext]
  by_cases hall : (lineOf json seq record).length ≤ landed
  · rw [List.take_of_length_le hall, if_pos (by omega), read_lineOf hread hfits]
  · rw [hline, List.length_append, List.length_singleton] at hall ⊢
    have hcut : (text ++ [10]).take landed = text.take landed := List.take_append_of_le_length (by omega)
    have hlength : (text.take landed).length = landed := by rw [List.length_take]; omega
    rw [hcut, hlength]
    split_ifs with hwhole
    · rw [List.take_of_length_le (by omega), ← htext]
      exact hread.whole seq record hfits
    · refine hread.cut seq record _ (by rw [htext]; exact List.take_prefix _ _) fun heq => ?_
      rw [htext] at heq
      have := congrArg List.length heq
      omega

/-- The line is in the files: all of it, but for the line ending maybe. -/
def landsLine (fault : Option WriteFault) (durability : Durability) (line : List UInt8) : Bool :=
  match landedBytes fault durability line with
  | none => true
  | some bytes => decide (line.length ≤ bytes.length + 1)

/-- **A write** adds the record's entry, or nothing. -/
theorem write_ends (hjson : json.Lawful IsRecord) (hsound : log.Sound json) (hopen : log.writer ≠ none)
    (fault : Option WriteFault) (durability : Durability) (seq : ℕ) {record : AuditRecord}
    (hfits : recordFits record = true) :
    Ends
      (fun log' => Came json log (if landsLine fault durability (lineOf json seq record) then [entryOf seq record] else [])
          log' ∧ log'.nextSeq = log.nextSeq ∧
        log'.leftover = (log.leftover || landsLine fault durability (lineOf json seq record)))
      (fun log' => landsLine fault durability (lineOf json seq record) = true ∧
        Came json log [entryOf seq record] log' ∧ log'.nextSeq = some (seq + 1) ∧ log'.leftover = log.leftover)
      (write fault durability seq (lineOf json seq record) log) := by
  obtain ⟨len, hlen⟩ := Option.ne_none_iff_exists'.mp hopen
  obtain ⟨older, bytes, hfiles, holder, hlength, hready⟩ := hsound.writer len hlen
  unfold write landsLine
  cases hlanded : landedBytes fault durability (lineOf json seq record) with
  | none =>
    refine ⟨rfl, came_writeActive hjson hsound hfiles holder (.inl hready)
      (fun read hread => read_lineOf hread hfits) rfl rfl rfl fun len' hwriter => ?_, rfl, rfl⟩
    have hsize : len + (lineOf json seq record).length = len' := by simpa [hlen] using hwriter
    refine ⟨older, bytes ++ lineOf json seq record, ?_, holder, by rw [List.length_append, hlength, hsize], .inr ?_⟩
    · show writeActive log.files _ = _
      rw [hfiles, writeActive_concat holder]
    · exact ⟨bytes ++ Utf8.encode (encode json seq record), by rw [lineOf_eq, List.append_assoc]⟩
  | some landed =>
    have htake : ∃ n, landed = (lineOf json seq record).take n := by
      unfold landedBytes at hlanded
      split at hlanded
      · exact ⟨_, (Option.some.inj hlanded).symm⟩
      · exact ⟨(lineOf json seq record).length, by rw [List.take_length, ← Option.some.inj hlanded]⟩
      · cases hlanded
      · cases hlanded
    obtain ⟨n, rfl⟩ := htake
    refine ⟨came_writeActive hjson hsound hfiles holder (.inl hready) (fun read hread => ?_) rfl rfl rfl (by simp), rfl,
      rfl⟩
    rw [read_take hread hfits]
    simp only [decide_eq_true_eq]

end Stages

end DenonAvr.Infrastructure
