import DenonAvr.Infrastructure.LogRuns
import DenonAvr.Library.Paging

/-!
# Pages of the audit log

A query reads the log's files newest first, and in each the lines from the last to the first, until the page is full.
Whatever the files hold, that is a page of the list of the usable entries (`queryLocked_eq`).

A client reads the pages one after the other while the log changes. `pageWalk` has the pages and the changes that an
append makes to the files, one write or rotation at a time; what an append does is a sequence of such changes
(`changes_appendLocked`).
-/

namespace DenonAvr.Infrastructure

open Domain Application Library

/-! ### A query -/

def maxPage : ℕ := 500

/-- A record and its place in the log. -/
structure AuditEntry where
  seq : ℕ
  record : AuditRecord
deriving DecidableEq

/-- A request for a page of the log, newest first. -/
structure AuditQuery where
  limit : ℕ
  cursor : Option ℕ
  admitted : 1 ≤ limit ∧ limit ≤ maxPage

/-- A first page. -/
def AuditQuery.new (limit : ℕ) : AuditQuery where
  limit := max 1 (min limit maxPage)
  cursor := none
  admitted := ⟨le_max_left _ _, max_le (by decide) (min_le_right _ _)⟩

def AuditQuery.after (query : AuditQuery) (cursor : ℕ) : AuditQuery := { query with cursor := some cursor }

abbrev AuditPage := Paging.Page AuditEntry

/-- The loop of `query_locked` over the lines of one file. It ends early when `wanted` entries were found. -/
def searchLines (json : JsonText) (before : Option ℕ) (wanted : ℕ) : List (List Char) → List AuditEntry → List AuditEntry
  | [], found => found
  | line :: rest, found =>
    match decodeLine json line with
    | some ⟨seq, some record⟩ =>
      if before.any fun before => decide (before ≤ seq) then searchLines json before wanted rest found
      else
        let found := found ++ [(⟨seq, record⟩ : AuditEntry)]
        if found.length = wanted then found else searchLines json before wanted rest found
    | _ => searchLines json before wanted rest found

/-- The loop over the files, newest first. -/
def searchFiles (json : JsonText) (before : Option ℕ) (wanted : ℕ) : Files → List AuditEntry → List AuditEntry
  | [], found => found
  | file :: older, found =>
    let found := searchLines json before wanted (readLines file.2).reverse found
    if found.length = wanted then found else searchFiles json before wanted older found

/-- `query_locked`. -/
def queryLocked (json : JsonText) (files : Files) (query : AuditQuery) : AuditPage :=
  let wanted := query.limit + 1
  let found := searchFiles json query.cursor wanted files.reverse []
  if found.length = wanted then ⟨found.dropLast, found.dropLast.getLast?.map AuditEntry.seq⟩ else ⟨found, none⟩

/-- The entry of a line that can be used. -/
def Decoded.entry? (decoded : Decoded) : Option AuditEntry := decoded.record.map (AuditEntry.mk decoded.seq)

/-- The entries that can be used, oldest first. -/
def usable (json : JsonText) (files : Files) : List AuditEntry :=
  files.flatMap fun file => (readEntries json file.2).filterMap Decoded.entry?

section Query
variable {json : JsonText} {before : Option ℕ} {wanted : ℕ} {found : List AuditEntry}

theorem searchLines_cons (line : List Char) (rest : List (List Char)) :
    searchLines json before wanted (line :: rest) found =
      match (decodeLine json line).bind Decoded.entry? with
      | some entry =>
        if before.any fun before => decide (before ≤ entry.seq) then searchLines json before wanted rest found
        else if (found ++ [entry]).length = wanted then found ++ [entry]
        else searchLines json before wanted rest (found ++ [entry])
      | none => searchLines json before wanted rest found := by
  conv_lhs => unfold searchLines
  rcases decodeLine json line with _ | ⟨seq, _ | record⟩ <;> rfl

theorem searchLines_eq (lines : List (List Char)) (hfound : found.length < wanted) :
    searchLines json before wanted lines found =
      found ++ (Paging.below AuditEntry.seq before
        ((lines.filterMap (decodeLine json)).filterMap Decoded.entry?)).take (wanted - found.length) := by
  rw [List.filterMap_filterMap]
  induction lines generalizing found with
  | nil => simp [searchLines, Paging.below]
  | cons line rest ih =>
    rw [searchLines_cons]
    cases hentry : (decodeLine json line).bind Decoded.entry? with
    | none =>
      rw [List.filterMap_cons, hentry]
      exact ih hfound
    | some entry =>
      rw [List.filterMap_cons, hentry]
      dsimp only
      rw [Paging.below_cons]
      have hopposite : (before.any fun before => decide (before ≤ entry.seq)) =
          !before.all fun before => decide (entry.seq < before) := by
        cases before with
        | none => rfl
        | some before => exact (decide_eq_decide.mpr not_lt.symm).trans decide_not
      rw [hopposite]
      by_cases hkeep : (before.all fun before => decide (entry.seq < before)) = true
      · rw [if_neg (by simp [hkeep]), if_pos hkeep]
        have hlength : (found ++ [entry]).length = found.length + 1 := by
          rw [List.length_append, List.length_singleton]
        rw [hlength]
        split_ifs with hfull
        · rw [show wanted - found.length = 1 by omega, List.take_succ_cons, List.take_zero]
        · rw [show wanted - found.length = wanted - (found.length + 1) + 1 by omega, List.take_succ_cons,
            ih (by omega), hlength, List.append_assoc, List.singleton_append]
      · rw [if_pos (by simp [hkeep]), if_neg hkeep, ih hfound]

theorem usable_concat (files : Files) (file : ℕ × List UInt8) :
    usable json (files ++ [file]) = usable json files ++ (readEntries json file.2).filterMap Decoded.entry? := by
  unfold usable
  rw [List.flatMap_append, List.flatMap_singleton]

theorem searchFiles_eq (files : Files) (hfound : found.length < wanted) :
    searchFiles json before wanted files.reverse found =
      found ++ (Paging.below AuditEntry.seq before (usable json files)).reverse.take (wanted - found.length) := by
  induction files using List.reverseRecOn generalizing found with
  | nil => simp [searchFiles, usable, Paging.below]
  | append_singleton older file ih =>
    obtain ⟨newest, hnewest⟩ : ∃ newest, newest = Paging.below AuditEntry.seq before
        ((readEntries json file.2).filterMap Decoded.entry?) := ⟨_, rfl⟩
    have hlines : searchLines json before wanted (readLines file.2).reverse found =
        found ++ newest.reverse.take (wanted - found.length) := by
      rw [searchLines_eq _ hfound, hnewest]
      unfold Paging.below readEntries
      rw [List.filterMap_reverse, List.filterMap_reverse, List.filter_reverse]
    have hbelow : Paging.below AuditEntry.seq before (usable json (older ++ [file])) =
        Paging.below AuditEntry.seq before (usable json older) ++ newest := by
      rw [usable_concat, hnewest]
      exact List.filter_append _ _
    rw [List.reverse_append, List.reverse_singleton, List.singleton_append, searchFiles, hlines, hbelow,
      List.reverse_append, List.take_append, List.length_reverse]
    split_ifs with hfull
    · rw [List.length_append, List.length_take, List.length_reverse] at hfull
      rw [show wanted - found.length - newest.length = 0 by omega, List.take_zero, List.append_nil]
    · rw [List.length_append, List.length_take, List.length_reverse] at hfull
      have hall : newest.reverse.take (wanted - found.length) = newest.reverse :=
        List.take_of_length_le (by rw [List.length_reverse]; omega)
      have hroom : (found ++ newest.reverse).length < wanted := by
        rw [List.length_append, List.length_reverse]
        omega
      rw [hall, ih hroom, List.length_append, List.length_reverse, List.append_assoc, Nat.sub_sub]

/-- **A query** is a page of the usable entries. -/
theorem queryLocked_eq (json : JsonText) (files : Files) (query : AuditQuery) :
    queryLocked json files query = Paging.page AuditEntry.seq query.limit query.cursor (usable json files) := by
  have hfound := @searchFiles_eq json query.cursor (query.limit + 1) [] files (Nat.succ_pos _)
  unfold queryLocked Paging.page
  dsimp only
  rw [hfound, List.nil_append, List.length_nil, Nat.sub_zero]

end Query

/-! ### Reading page after page -/

/-- Nothing is in the active file, or its last line is complete. -/
def endsLine (bytes : List UInt8) : Bool := bytes == [] || endsWithNewline bytes

/-- What an append does to the files. -/
inductive FileChange
  /-- The active file is opened. -/
  | touch
  /-- Bytes are written after a complete line, or a line ending after one that was cut short. -/
  | write (bytes : List UInt8)
  | rotate (keep done : ℕ)
deriving DecidableEq

namespace FileChange

def apply (files : Files) : FileChange → Option Files
  | .touch => some (touchActive files)
  | .write bytes =>
    if endsLine (activeBytes files) = true ∨ bytes = [10] then some (writeActive files bytes) else none
  | .rotate keep done => some (rotateFiles keep done files)

/-- The entries of the files that the change removes. -/
def removes (json : JsonText) (files : Files) : FileChange → List AuditEntry
  | .rotate keep done => usable json (removedFiles keep done files)
  | _ => []

def applyAll (files : Files) (changes : List FileChange) : Option Files := changes.foldlM apply files

end FileChange

/-- A client that reads the pages of a log. -/
structure PageWalk where
  files : Files
  /-- The entries of the files that were removed since the first page was read, oldest first. -/
  removed : List AuditEntry
  /-- The usable entries when the first page was read. -/
  start : List AuditEntry
  pages : List AuditPage
deriving DecidableEq

namespace PageWalk

/-- What the client was given. -/
def given (walk : PageWalk) : List AuditEntry := walk.pages.flatMap Paging.Page.entries

/-- Where the next page starts. -/
def next (walk : PageWalk) : Option ℕ := walk.pages.getLast?.bind Paging.Page.next

end PageWalk

inductive PageAction
  | change (change : FileChange)
  /-- The page at the cursor of the last one. -/
  | next (limit : ℕ)
deriving DecidableEq

/-- The sequence numbers of the log rise. -/
abbrev SeqsRise (entries : List AuditEntry) : Prop := entries.Pairwise fun older newer => older.seq < newer.seq

/-- From the first page on. The log's sequence numbers rise, those of the removed files included. -/
def pageWalk (json : JsonText) : Machine PageWalk PageAction where
  init := fun walk => ∃ limit files, Files.InOrder files ∧ SeqsRise (usable json files) ∧
    walk = ⟨files, [], usable json files, [queryLocked json files (.new limit)]⟩
  step := fun walk action =>
    match action with
    | .change change =>
      (change.apply walk.files).bind fun files =>
        let removed := walk.removed ++ change.removes json walk.files
        if SeqsRise (removed ++ usable json files) then some { walk with files, removed } else none
    | .next limit =>
      walk.next.map fun cursor =>
        { walk with pages := walk.pages ++ [queryLocked json walk.files ((AuditQuery.new limit).after cursor)] }

/-! ### What a change does to the entries -/

section Change
variable {json : JsonText} {files files' older : Files} {bytes more : List UInt8}

theorem usable_append (older newer : Files) : usable json (older ++ newer) = usable json older ++ usable json newer :=
  List.flatMap_append

theorem usable_singleton (index : ℕ) :
    usable json [(index, bytes)] = (readEntries json bytes).filterMap Decoded.entry? := List.flatMap_singleton _ _

theorem usable_touchActive : usable json (touchActive files) = usable json files := by
  unfold touchActive
  split_ifs
  · rfl
  · rw [usable_append, usable_singleton, readEntries_nil, List.filterMap_nil, List.append_nil]

theorem inOrder_touchActive (horder : files.InOrder) : (touchActive files).InOrder := by
  obtain ⟨older, bytes, rfl, holder⟩ | hnone := inOrder_cases horder
  · rw [touchActive_of_active]
    exact horder
  · rw [touchActive_of_none hnone]
    exact inOrder_concat horder hnone

theorem readEntries_append (h : endsLine bytes = true ∨ more = [10]) :
    readEntries json (bytes ++ more) = readEntries json bytes ++ readEntries json more := by
  obtain (rfl | ⟨body, rfl⟩) | ⟨hne, hend⟩ := endsWithNewline_cases bytes
  · rw [readEntries_nil, List.nil_append, List.nil_append]
  · rw [List.append_assoc, List.singleton_append, readEntries_newline, readEntries_newline, readEntries_nil,
      List.append_nil]
  · obtain hline | rfl := h
    · simp [endsLine, hne, hend] at hline
    · have hnewline := @readEntries_newline json [] []
      rw [List.nil_append, readEntries_nil, List.nil_append] at hnewline
      rw [readEntries_newline, hnewline, readEntries_nil]

/-- A write adds the entries of what it writes. -/
theorem usable_writeActive (horder : files.InOrder) (h : endsLine (activeBytes files) = true ∨ more = [10]) :
    (∃ added, usable json (writeActive files more) = usable json files ++ added) ∧ (writeActive files more).InOrder := by
  obtain ⟨older, bytes, rfl, holder⟩ | hnone := inOrder_cases horder
  · rw [activeBytes_concat holder] at h
    rw [writeActive_concat holder]
    refine ⟨⟨(readEntries json more).filterMap Decoded.entry?, ?_⟩,
      inOrder_concat (List.pairwise_append.mp horder).1 holder⟩
    rw [usable_append, usable_append, usable_singleton, usable_singleton, readEntries_append h, List.filterMap_append,
      List.append_assoc]
  · have hsame : writeActive files more = files :=
      (List.map_congr_left fun file hfile => if_neg (hnone file hfile).ne').trans (List.map_id _)
    rw [hsame]
    exact ⟨⟨[], (List.append_nil _).symm⟩, horder⟩

theorem usable_rotateFiles (keep done : ℕ) (horder : files.InOrder) :
    usable json (removedFiles keep done files) ++ usable json (rotateFiles keep done files) = usable json files := by
  have hcontents := removedFiles_rotateFiles keep done horder
  have husable : ∀ files : Files, usable json files =
      (files.map Prod.snd).flatMap fun bytes => (readEntries json bytes).filterMap Decoded.entry? := fun files => by
    unfold usable
    rw [List.flatMap_map]
  rw [husable, husable, husable, ← List.flatMap_append, hcontents]

/-- **A change** removes entries at the start and adds some at the end. -/
theorem usable_apply (json : JsonText) {change : FileChange} (horder : files.InOrder) (h : change.apply files = some files') :
    files'.InOrder ∧ ∃ added, change.removes json files ++ usable json files' = usable json files ++ added := by
  cases change with
  | touch =>
    obtain rfl := Option.some.inj h
    exact ⟨inOrder_touchActive horder, [], by rw [usable_touchActive, List.append_nil]; rfl⟩
  | write bytes =>
    obtain ⟨hline, hfiles⟩ := Option.ite_none_right_eq_some.mp h
    obtain rfl := Option.some.inj hfiles
    obtain ⟨⟨added, hadded⟩, horder'⟩ := usable_writeActive horder hline
    exact ⟨horder', added, hadded⟩
  | rotate keep done =>
    obtain rfl := Option.some.inj h
    refine ⟨inOrder_rotateFiles horder, [], ?_⟩
    rw [List.append_nil]
    exact usable_rotateFiles keep done horder

end Change

/-! ### What an append does is a sequence of changes -/

def Changes (files files' : Files) : Prop := ∃ changes, FileChange.applyAll files changes = some files'

section Append
variable {json : JsonText} {log log' : Log} {files files' files'' : Files} {change : FileChange}

theorem Changes.refl (files : Files) : Changes files files := ⟨[], rfl⟩

theorem Changes.trans (h : Changes files files') (h' : Changes files' files'') : Changes files files'' := by
  obtain ⟨changes, hchanges⟩ := h
  obtain ⟨changes', hchanges'⟩ := h'
  refine ⟨changes ++ changes', ?_⟩
  unfold FileChange.applyAll at *
  rw [List.foldlM_append, hchanges]
  exact hchanges'

theorem Changes.single (change : FileChange) (h : change.apply files = some files') : Changes files files' :=
  ⟨[change], by unfold FileChange.applyAll; rw [List.foldlM_cons, h]; rfl⟩

theorem changes_touch (files : Files) : Changes files (touchActive files) :=
  .single .touch rfl

theorem changes_ending (files : Files) : Changes files (writeActive files [10]) :=
  .single (.write [10]) (if_pos (.inr rfl))

/-- However it ends, the files are changed so. -/
abbrev EndsChanged (files : Files) : Except Log Log → Prop :=
  Ends (fun log => Changes files log.files) fun log => Changes files log.files

theorem openWriter_changes (fault : Option OpenFault) (log : Log) : EndsChanged log.files (openWriter fault log) := by
  have htouch := changes_touch log.files
  have hended := htouch.trans (changes_ending _)
  unfold openWriter
  dsimp only
  split_ifs
  · exact .refl _
  · exact htouch
  · split
    · exact htouch
    · exact hended
    · exact hended
  · exact htouch

theorem openIfClosed_changes (fault : Option OpenFault) (log : Log) : EndsChanged log.files (openIfClosed fault log) := by
  unfold openIfClosed
  split_ifs
  · exact openWriter_changes fault log
  · exact .refl log.files

theorem changes_moveFiles (done : ℕ) (log : Log) : Changes log.files (moveFiles done log).files :=
  .single (.rotate (log.limits.maxFiles - 1) done) rfl

theorem makeRoom_changes (faults : Faults) (needed : ℕ) (log : Log) :
    EndsChanged log.files (makeRoom faults needed log) := by
  unfold makeRoom
  dsimp only
  split_ifs
  · have hrotate : EndsChanged log.files (rotate faults.rotating { log with writer := none }) := by
      unfold rotate
      split
      · exact changes_moveFiles _ { log with writer := none }
      · exact changes_moveFiles _ { log with writer := none }
    refine hrotate.bind fun rotated hrotated => ?_
    exact (openWriter_changes faults.reopening rotated).imp (fun _ h => hrotated.trans h) fun _ h => hrotated.trans h
  · exact .refl log.files

theorem reachWrite_changes (json : JsonText) (record : AuditRecord) (faults : Faults) (log : Log) :
    Ends (fun log' => Changes log.files log'.files) (fun result => Changes log.files result.2.files)
      (reachWrite json record faults log) := by
  unfold reachWrite
  refine Ends.bind (Q := fun prepared => prepared = log) ?_ ?_
  · unfold prepare
    split_ifs
    · exact Changes.refl log.files
    · exact rfl
  rintro log rfl
  have hnumber : Ends (fun log' => Changes log.files log'.files) (fun result => Changes log.files result.2.files)
      (number json faults log) := by
    unfold number
    split
    · exact Changes.refl log.files
    · split_ifs
      · exact Changes.refl log.files
      · exact Changes.refl log.files
  refine hnumber.bind ?_
  rintro ⟨seq, numbered⟩ hnumbered
  have hopen := openIfClosed_changes faults.opening numbered
  refine (hopen.imp (fun _ h => hnumbered.trans h) fun _ h => hnumbered.trans h).bind fun opened hopened => ?_
  have hroom := makeRoom_changes faults (lineOf json seq record).length opened
  exact (hroom.imp (fun _ h => hopened.trans h) fun _ h => hopened.trans h).bind fun ready hready => hready

theorem endsLine_of_writable {len : ℕ} (h : Writable files len) : endsLine (activeBytes files) = true := by
  obtain ⟨older, bytes, rfl, holder, -, hready⟩ := h
  rw [activeBytes_concat holder]
  obtain rfl | ⟨body, rfl⟩ := hready
  · rfl
  · simp [endsLine, endsWithNewline]

/-- **An append**, whatever fails, changes the files by a sequence of the changes that a walk may meet. -/
theorem changes_appendLocked (hjson : json.Lawful IsRecord) (hsound : log.Sound json) (record : AuditRecord)
    (durability : Durability) (faults : Faults) :
    EndsChanged log.files (appendLocked json record durability faults log) := by
  have hchanges := reachWrite_changes json record faults log
  have hreach := reachWrite_ends hjson hsound record faults
  unfold appendLocked
  cases hresult : reachWrite json record faults log with
  | error failed =>
    rw [hresult] at hchanges
    exact hchanges
  | ok result =>
    obtain ⟨seq, ready⟩ := result
    rw [hresult] at hchanges hreach
    have hreach : ReachedWrite json log seq ready := hreach
    obtain ⟨len, hlen⟩ := Option.ne_none_iff_exists'.mp hreach.writer
    have hline := endsLine_of_writable (hreach.came.sound.writer len hlen)
    have hwrite : ∀ bytes, Changes log.files (writeActive ready.files bytes) := fun bytes =>
      hchanges.trans (.single (.write bytes) (if_pos (.inl hline)))
    show EndsChanged log.files (write faults.writing durability seq (lineOf json seq record) ready)
    unfold write
    split
    · exact hwrite _
    · exact hwrite _

end Append

/-! ### The walk is one through the entries -/

/-- The client's walk as one through the list of the usable entries. -/
structure Walks (json : JsonText) (walk : PageWalk) (entries : Paging.Walk AuditEntry) : Prop where
  order : walk.files.InOrder
  history : entries.history = walk.removed ++ usable json walk.files
  dropped : entries.dropped = walk.removed.length
  first_le : entries.first ≤ entries.history.length
  start : entries.start = walk.start
  pages : entries.pages = walk.pages

section Walks
variable {json : JsonText} {walk walk' : PageWalk} {entries : Paging.Walk AuditEntry}

theorem Walks.items (h : Walks json walk entries) : entries.items = usable json walk.files := by
  unfold Paging.Walk.items
  rw [h.history, h.dropped, List.drop_left]

theorem Walks.next (h : Walks json walk entries) : entries.next = walk.next := by
  unfold Paging.Walk.next PageWalk.next
  rw [h.pages]

theorem Walks.given (h : Walks json walk entries) : entries.given = walk.given := by
  unfold Paging.Walk.given PageWalk.given
  rw [h.pages]

theorem simulates_pageWalk (json : JsonText) :
    Machine.Simulates (pageWalk json) (Paging.walking AuditEntry.seq) (Walks json) where
  init := by
    rintro _ ⟨limit, files, horder, hrise, rfl⟩
    refine ⟨_, ⟨_, usable json files, 0, (AuditQuery.new limit).admitted.1, Nat.zero_le _, hrise, rfl⟩, horder, rfl, rfl,
      le_rfl, ?_, ?_⟩
    · unfold Paging.Walk.start
      rw [List.take_length, List.drop_zero]
    · rw [queryLocked_eq]
      rfl
  step := by
    rintro walk action walk' entries - - h hstep
    cases action with
    | change change =>
      obtain ⟨files, hfiles, hwalk⟩ := Option.bind_eq_some_iff.mp hstep
      obtain ⟨hrise, hwalk⟩ := Option.ite_none_right_eq_some.mp hwalk
      obtain rfl := Option.some.inj hwalk
      obtain ⟨horder, added, hadded⟩ := usable_apply json h.order hfiles
      have hhistory : entries.history ++ added = walk.removed ++ change.removes json walk.files ++ usable json files := by
        rw [h.history, List.append_assoc, ← hadded, List.append_assoc]
      have hlength : entries.dropped + (change.removes json walk.files).length ≤ (entries.history ++ added).length := by
        rw [hhistory, h.dropped, List.length_append, List.length_append]
        exact Nat.le_add_right _ _
      refine ⟨[.append added, .drop (change.removes json walk.files).length],
        { entries with
          history := entries.history ++ added,
          dropped := entries.dropped + (change.removes json walk.files).length }, ?_,
        horder, hhistory, ?_, h.first_le.trans (by simp), ?_, h.pages⟩
      · rw [Machine.exec_cons, Paging.step_append (hhistory ▸ hrise), Option.bind_some, Machine.exec_singleton]
        exact Paging.step_drop hlength
      · show entries.dropped + _ = _
        rw [h.dropped, List.length_append]
      · show ((entries.history ++ added).take entries.first).drop entries.firstDropped = _
        rw [List.take_append_of_le_length h.first_le]
        exact h.start
    | next limit =>
      obtain ⟨cursor, hnext, rfl⟩ := Option.map_eq_some_iff.mp hstep
      have hlimit := (AuditQuery.new limit).admitted.1
      refine ⟨[.next (AuditQuery.new limit).limit], _,
        (Machine.exec_singleton _ _ _).trans (Paging.step_next (h.next.trans hnext) hlimit),
        h.order, h.history, h.dropped, h.first_le, h.start, ?_⟩
      show entries.pages ++ [_] = walk.pages ++ [_]
      rw [h.pages, h.items, queryLocked_eq]
      rfl

/-- **Paging through the audit log.** The client is given entries of the first page's log, newest first and each once.
When no cursor is left, every one of them that is in the log still was among them. The walk has one page more than
that log had entries at most. -/
theorem walk_pages (h : (pageWalk json).Reachable walk) :
    walk.given.Pairwise (fun newer older => older.seq < newer.seq) ∧ (∀ entry ∈ walk.given, entry ∈ walk.start) ∧
      (walk.next = none → ∀ entry ∈ walk.start, entry ∈ usable json walk.files → walk.given.count entry = 1) ∧
        walk.pages.length ≤ walk.start.length + 1 := by
  obtain ⟨entries, hentries, hwalks⟩ := (simulates_pageWalk json).reachable h
  obtain ⟨hsublist, hfall⟩ := Paging.given_sublist hentries
  have hlength := Paging.length_pages_le hentries
  rw [hwalks.given] at hsublist hfall
  rw [hwalks.start] at hsublist hlength
  rw [hwalks.pages] at hlength
  refine ⟨hfall, fun entry hentry => List.mem_reverse.mp (hsublist.subset hentry), ?_, hlength⟩
  intro hend entry hstart hpresent
  have hnodup : walk.given.Nodup := hfall.imp fun hlt heq => (heq ▸ hlt).false
  refine List.count_eq_one_of_mem hnodup ?_
  rw [← hwalks.given]
  exact Paging.mem_given hentries (hwalks.next.trans hend) (hwalks.start ▸ hstart) (hwalks.items ▸ hpresent)

end Walks

section Example

/-- Two records of a log. -/
def twoLines : List UInt8 := lineOf Json.canonical 1 loadFailed ++ lineOf Json.canonical 2 loadFailed

theorem usable_twoLines :
    usable Json.canonical [(0, twoLines)] = [⟨1, boundedRecord loadFailed⟩, ⟨2, boundedRecord loadFailed⟩] := by
  have hread := reads_readEntries (Json.canonical_lawful IsRecord)
  have hfits : recordFits loadFailed = true := by decide
  have hline : endsLine (lineOf Json.canonical 1 loadFailed) = true := by
    rw [lineOf_eq]
    simp [endsLine, endsWithNewline]
  unfold twoLines
  rw [usable_singleton, readEntries_append (.inl hline), read_lineOf hread hfits, read_lineOf hread hfits]
  rfl

/-- Their page. -/
def twoLinesPage : PageWalk :=
  ⟨[(0, twoLines)], [], usable Json.canonical [(0, twoLines)], [queryLocked Json.canonical [(0, twoLines)] (.new 2)]⟩

theorem walk_pages_twoLines :
    twoLinesPage.given.Pairwise (fun newer older => older.seq < newer.seq) ∧
      (∀ entry ∈ twoLinesPage.given, entry ∈ twoLinesPage.start) ∧
      (twoLinesPage.next = none → ∀ entry ∈ twoLinesPage.start, entry ∈ usable Json.canonical twoLinesPage.files →
        twoLinesPage.given.count entry = 1) ∧
        twoLinesPage.pages.length ≤ twoLinesPage.start.length + 1 :=
  walk_pages (.init ⟨2, _, List.pairwise_singleton _ _, by rw [usable_twoLines]; decide, rfl⟩)

end Example

end DenonAvr.Infrastructure
