import DenonAvr.Infrastructure.Jsonl

/-!
# Runs of the audit log

What is in the log after any run of appends, failures and restarts.

No record is lost (`records_kept`): what rotations removed and what `since` reads are together, in the order of the
appends, every record whose append succeeded, and those whose append failed when the whole line had landed.

Sequence numbers rise (`seqs_rise`) in every run in which no append puts a line behind one that a failed append of the
same process had put there. Without that condition they do not (`not_seqs_rise`): the number of the next record is
worked out once, and a line that landed and was reported as failed does not count.
-/

namespace DenonAvr.Infrastructure

open Domain Application Library

/-! ### One append -/

/-- The append puts its line into the files. -/
def appendLands (json : JsonText) (record : AuditRecord) (durability : Durability) (faults : Faults) (log : Log) : Bool :=
  match reachWrite json record faults log with
  | .ok (seq, _) => landsLine faults.writing durability (lineOf json seq record)
  | .error _ => false

/-- What an append leaves behind. -/
structure Appended (json : JsonText) (log : Log) (record : AuditRecord) (lands success : Bool) (log' : Log) : Prop where
  came : Came json log (if lands then [entryOf (seqOf json log) record] else []) log'
  lands_of_success : success = true → lands = true
  nextSeq : if success then log'.nextSeq = some (seqOf json log + 1)
    else log'.nextSeq = log.nextSeq ∨ log'.nextSeq = some (seqOf json log)
  leftover : log'.leftover = (log.leftover || (lands && !success))

section Append
variable {json : JsonText} {log log' : Log} {record : AuditRecord} {durability : Durability} {faults : Faults}

/-- **One append**: it fails before the write, in the write, or succeeds. -/
theorem appendLocked_ends (hjson : json.Lawful IsRecord) (hsound : log.Sound json) (hfits : recordFits record = true)
    (durability : Durability) (faults : Faults) :
    Ends (Appended json log record (appendLands json record durability faults log) false)
      (Appended json log record (appendLands json record durability faults log) true)
      (appendLocked json record durability faults log) := by
  have hreach := reachWrite_ends hjson hsound record faults
  unfold appendLocked appendLands
  cases hresult : reachWrite json record faults log with
  | error log' =>
    rw [hresult] at hreach
    exact ⟨hreach.came, by simp, hreach.nextSeq, by simpa using hreach.leftover⟩
  | ok result =>
    obtain ⟨seq, ready⟩ := result
    rw [hresult] at hreach
    have hreach : ReachedWrite json log seq ready := hreach
    have hwrite := write_ends hjson hreach.came.sound hreach.writer faults.writing durability seq hfits
    show Ends _ _ (write faults.writing durability seq (lineOf json seq record) ready)
    refine hwrite.imp (fun log' h => ?_) fun log' h => ?_
    · obtain ⟨hcame, hnext, hleftover⟩ := h
      rw [hreach.seq_eq] at hcame ⊢
      refine ⟨hreach.came.trans hcame, by simp, .inr (hnext.trans (hreach.seq_eq ▸ hreach.nextSeq)), ?_⟩
      rw [hleftover, hreach.leftover, hreach.seq_eq, Bool.not_false, Bool.and_true]
    · obtain ⟨hlands, hcame, hnext, hleftover⟩ := h
      refine ⟨?_, fun _ => hlands, by rw [if_pos rfl, hnext, hreach.seq_eq], ?_⟩
      · rw [if_pos hlands, ← hreach.seq_eq]
        exact hreach.came.trans hcame
      · rw [hleftover, hreach.leftover, Bool.not_true, Bool.and_false, Bool.or_false]

theorem step_append_eq :
    (auditLog json).step log (.append record durability faults) =
      if recordFits record = true then
        match appendLocked json record durability faults log with
        | .ok after => some { after with appends := after.appends ++ [(record, true)] }
        | .error after => some { after with appends := after.appends ++ [(record, false)] }
      else none := rfl

theorem step_append (hjson : json.Lawful IsRecord) (hsound : log.Sound json)
    (h : (auditLog json).step log (.append record durability faults) = some log') :
    recordFits record = true ∧ ∃ after success,
      log' = { after with appends := log.appends ++ [(record, success)] } ∧
        Appended json log record (appendLands json record durability faults log) success after := by
  rw [step_append_eq] at h
  split_ifs at h with hfits
  have hends := appendLocked_ends hjson hsound hfits durability faults
  refine ⟨hfits, ?_⟩
  cases hresult : appendLocked json record durability faults log with
  | ok after =>
    rw [hresult] at h hends
    refine ⟨after, true, ?_, hends⟩
    rw [← Option.some.inj h, hends.came.appends]
  | error after =>
    rw [hresult] at h hends
    refine ⟨after, false, ?_, hends⟩
    rw [← Option.some.inj h, hends.came.appends]

theorem Appended.sound {lands success : Bool} {after : Log} (h : Appended json log record lands success after)
    (hlog : log' = { after with appends := log.appends ++ [(record, success)] }) : log'.Sound json := by
  subst hlog
  exact ⟨h.came.sound.order, h.came.sound.agree, h.came.sound.writer⟩

/-- An append is always possible, whatever fails. -/
theorem step_append_isSome (hfits : recordFits record = true) :
    ((auditLog json).step log (.append record durability faults)).isSome = true := by
  rw [step_append_eq, if_pos hfits]
  cases appendLocked json record durability faults log <;> rfl

theorem step_restart (limits : AuditLimits) :
    (auditLog json).step log (.restart limits) =
      some { log with limits := limits.clamped, nextSeq := none, writer := none, leftover := false } := rfl

end Append

/-! ### No record is lost -/

/-- The appends whose lines were written, and what is and was in the files of them. -/
def Accounted (json : JsonText) (log : Log) (kept : List (AuditRecord × Bool)) : Prop :=
  kept.Sublist log.appends ∧ kept.filter Prod.snd = log.appends.filter Prod.snd ∧
    (log.removed.flatMap (entriesOf json) ++ log.entries json).filterMap Decoded.record =
      kept.map fun append => boundedRecord append.1

section Records
variable {json : JsonText} {log log' : Log} {record : AuditRecord} {kept : List (AuditRecord × Bool)}

theorem sound_new (limits : AuditLimits) : (Log.new limits).Sound json :=
  ⟨.nil, fun _ h => (List.not_mem_nil h).elim, by simp [Log.new]⟩

theorem sound_restart (hsound : log.Sound json) (limits : AuditLimits) :
    Log.Sound json { log with limits := limits.clamped, nextSeq := none, writer := none, leftover := false } :=
  ⟨hsound.order, hsound.agree, by simp⟩

theorem Accounted.append {lands success : Bool} {after : Log} (h : Accounted json log kept)
    (hafter : Appended json log record lands success after)
    (hlog : log' = { after with appends := log.appends ++ [(record, success)] }) :
    Accounted json log' (kept ++ if lands then [(record, success)] else []) := by
  obtain ⟨hsublist, hsuccess, hrecords⟩ := h
  obtain ⟨bytes, hremoved, hentries⟩ := hafter.came.removed
  subst hlog
  refine ⟨?_, ?_, ?_⟩
  · refine hsublist.append ?_
    split_ifs <;> simp
  · rw [List.filter_append, List.filter_append, hsuccess]
    congr 1
    split_ifs with hlands
    · rfl
    · have hfailed : success = false := Bool.eq_false_iff.mpr fun hs => hlands (hafter.lands_of_success hs)
      simp [hfailed]
  · show (after.removed.flatMap (entriesOf json) ++ after.entries json).filterMap Decoded.record = _
    rw [hremoved, List.flatMap_append, List.append_assoc, ← hentries, ← List.append_assoc, List.filterMap_append, hrecords,
      List.map_append]
    congr 1
    split_ifs <;> rfl

theorem accounted_of_reachable (hjson : json.Lawful IsRecord) (h : (auditLog json).Reachable log) :
    log.Sound json ∧ ∃ kept, Accounted json log kept := by
  refine h.invariant (I := fun log => log.Sound json ∧ ∃ kept, Accounted json log kept) ?_ ?_
  · rintro _ ⟨limits, rfl⟩
    exact ⟨sound_new limits, [], by simp [Log.new], by simp [Log.new], by simp [Log.new, Log.entries]⟩
  · rintro log action log' - ⟨hsound, kept, hkept⟩ hstep
    cases action with
    | append record durability faults =>
      obtain ⟨-, after, success, hlog, hafter⟩ := step_append hjson hsound hstep
      exact ⟨hafter.sound hlog, _, hkept.append hafter hlog⟩
    | restart limits =>
      rw [step_restart] at hstep
      obtain rfl := Option.some.inj hstep
      exact ⟨sound_restart hsound limits, kept, hkept⟩

/-- From time 0 on, no file is left out and no record. -/
theorem since_zero (modified : ℕ → Option WallTime) (log : Log) :
    since (log.logFiles json modified) 0 = (log.entries json).filterMap Decoded.record := by
  unfold since Log.logFiles Log.entries
  rw [List.flatMap_map, List.filterMap_flatMap]
  congr 1
  funext file
  have hread : ¬ LogFile.lastWrittenBefore ⟨modified file.1, recordsOf json file.2⟩ 0 = true := by
    unfold LogFile.lastWrittenBefore
    cases modified file.1 <;> simp
  rw [if_neg hread]
  exact List.filter_eq_self.mpr fun record _ => decide_eq_true (Nat.zero_le _)

end Records

/-- **No loss in the audit log.** Reading the whole log gives, after the records of the files that were removed, in the
order of the appends and each of them once, every record whose append succeeded and some of those whose append failed:
those whose line had landed. -/
theorem records_kept {json : JsonText} (hjson : json.Lawful IsRecord) {log : Log} (h : (auditLog json).Reachable log)
    (modified : ℕ → Option WallTime) :
    ∃ kept : List (AuditRecord × Bool), kept.Sublist log.appends ∧
      kept.filter Prod.snd = log.appends.filter Prod.snd ∧
        log.removed.flatMap (recordsOf json) ++ since (log.logFiles json modified) 0 =
          kept.map fun append => boundedRecord append.1 := by
  obtain ⟨-, kept, hsublist, hsuccess, hrecords⟩ := accounted_of_reachable hjson h
  refine ⟨kept, hsublist, hsuccess, ?_⟩
  rw [since_zero, ← hrecords, List.filterMap_append, List.filterMap_flatMap]
  rfl

section Example

/-- A record about the service. -/
def loadFailed : AuditRecord :=
  { run := 1, time := 2, operation := none, principal := some .operator, receiver := none,
    event := .policyLoadFailed "no such file" }

def smallLimits : AuditLimits := ⟨100, 2⟩

/-- Three processes, one append each. The second is killed when 20 bytes of its line have landed. -/
def tornRun : List LogAction :=
  [.append loadFailed .synced {}, .restart smallLimits, .append loadFailed .flushed { writing := some (.writing 20) },
    .restart smallLimits, .append loadFailed .flushed {}]

/-- Whatever the record, an append or a restart can always be taken. -/
theorem exec_isSome (json : JsonText) (log : Log) (actions : List LogAction)
    (h : ∀ action ∈ actions, ∀ record durability faults, action = .append record durability faults →
      recordFits record = true) : ((auditLog json).exec log actions).isSome = true := by
  induction actions generalizing log with
  | nil => rfl
  | cons action actions ih =>
    have ih := fun log => ih log fun a ha => h a (List.mem_cons_of_mem _ ha)
    have hstep : ((auditLog json).step log action).isSome = true := by
      cases action with
      | append record durability faults => exact step_append_isSome (h _ (by simp) record durability faults rfl)
      | restart limits => rfl
    obtain ⟨next, hnext⟩ := Option.isSome_iff_exists.mp hstep
    rw [Machine.exec_cons, hnext, Option.bind_some]
    exact ih next

theorem tornRun_isSome : ((auditLog Json.canonical).exec (Log.new smallLimits) tornRun).isSome = true := by
  refine exec_isSome _ _ _ fun action hmem record durability faults heq => ?_
  subst heq
  simp only [tornRun, List.mem_cons, LogAction.append.injEq, List.not_mem_nil, reduceCtorEq, or_false, false_or] at hmem
  rcases hmem with ⟨rfl, -, -⟩ | ⟨rfl, -, -⟩ | ⟨rfl, -, -⟩ <;> decide

def tornLog : Log := ((auditLog Json.canonical).exec (Log.new smallLimits) tornRun).get tornRun_isSome

theorem records_kept_tornLog :
    ∃ kept : List (AuditRecord × Bool), kept.Sublist tornLog.appends ∧
      kept.filter Prod.snd = tornLog.appends.filter Prod.snd ∧
        tornLog.removed.flatMap (recordsOf Json.canonical) ++
            since (tornLog.logFiles Json.canonical fun _ => some 5) 0 =
          kept.map fun append => boundedRecord append.1 :=
  records_kept (Json.canonical_lawful IsRecord)
    (Machine.reachable_of_exec (Log.new smallLimits) tornRun ⟨smallLimits, rfl⟩ (Option.some_get _).symm) fun _ => some 5

end Example

/-! ### Sequence numbers -/

/-- The append puts its line behind one that a failed append of the same process has left. -/
def doubles (json : JsonText) (log : Log) : LogAction → Bool
  | .append record durability faults => log.leftover && appendLands json record durability faults log
  | .restart _ => false

/-- The numbers rise, and the next one is above them, unless a line was left behind. -/
structure Rising (json : JsonText) (log : Log) : Prop where
  sound : log.Sound json
  rise : ((log.entries json).map Decoded.seq).Pairwise (· < ·)
  next : log.leftover = false → ∀ seq, log.nextSeq = some seq → ∀ entry ∈ log.entries json, entry.seq < seq

section Numbers
variable {json : JsonText} {log log' : Log}

theorem le_highestSeq {files : Files} (hagree : ∀ file ∈ files, readEntries json file.2 = entriesOf json file.2)
    (hrise : ((files.flatMap fun file => entriesOf json file.2).map Decoded.seq).Pairwise (· < ·)) :
    ∀ entry ∈ files.flatMap fun file => entriesOf json file.2, entry.seq ≤ highestSeq json files := by
  induction files using List.reverseRecOn with
  | nil => simp
  | append_singleton files file ih =>
    rw [List.flatMap_append, List.map_append, List.pairwise_append] at hrise
    obtain ⟨hrise, -, hacross⟩ := hrise
    have hlast := hagree file (by simp)
    have ih := ih (fun f hf => hagree f (by simp [hf])) hrise
    unfold highestSeq
    rw [List.reverse_append, List.reverse_singleton, List.singleton_append, List.findSome?_cons, hlast]
    intro entry hmem
    rw [List.flatMap_append, List.flatMap_singleton, List.mem_append] at hmem
    cases hmax : ((entriesOf json file.2).map Decoded.seq).max? with
    | none =>
      -- a file without entries is passed over
      have hnone : entriesOf json file.2 = [] := by simpa using hmax
      rw [hnone] at hmem
      exact ih entry (hmem.resolve_right List.not_mem_nil)
    | some highest =>
      obtain ⟨hhighest, hle⟩ := List.max?_eq_some_iff.mp hmax
      rcases hmem with hmem | hmem
      · refine (hacross _ (List.mem_map_of_mem hmem) highest ?_).le
        rwa [List.flatMap_singleton]
      · exact hle _ (List.mem_map_of_mem hmem)

/-- Every entry is below the number that the next append uses. -/
theorem Rising.lt_seqOf (h : Rising json log) (hleftover : log.leftover = false) :
    ∀ entry ∈ log.entries json, entry.seq < seqOf json log := by
  intro entry hentry
  unfold seqOf
  cases hnext : log.nextSeq with
  | some seq => exact h.next hleftover seq hnext entry hentry
  | none => exact Nat.lt_succ_of_le (le_highestSeq h.sound.agree h.rise entry hentry)

theorem Rising.append {record : AuditRecord} {lands success : Bool} {after : Log} (h : Rising json log)
    (hdouble : (log.leftover && lands) = false) (hafter : Appended json log record lands success after)
    (hlog : log' = { after with appends := log.appends ++ [(record, success)] }) : Rising json log' := by
  obtain ⟨bytes, -, hentries⟩ := hafter.came.removed
  have hsuffix : after.entries json <:+
      log.entries json ++ if lands then [entryOf (seqOf json log) record] else [] := ⟨_, hentries.symm⟩
  have hleftover : log'.leftover = (log.leftover || (lands && !success)) := by rw [hlog]; exact hafter.leftover
  have hnext : log'.nextSeq = after.nextSeq := by rw [hlog]
  have hfiles : log'.entries json = after.entries json := by rw [hlog]; rfl
  refine ⟨hafter.sound hlog, ?_, ?_⟩
  · rw [hfiles]
    refine List.Pairwise.sublist (hsuffix.map Decoded.seq).sublist ?_
    rw [List.map_append, List.pairwise_append]
    refine ⟨h.rise, by split_ifs <;> simp, fun a ha b hb => ?_⟩
    obtain ⟨entry, hentry, rfl⟩ := List.mem_map.mp ha
    split_ifs at hb with hlands
    · rw [hlands, Bool.and_true] at hdouble
      rw [List.map_singleton, List.mem_singleton] at hb
      rw [hb]
      exact h.lt_seqOf hdouble entry hentry
    · cases hb
  · intro hclean seq hseq entry hentry
    rw [hleftover, Bool.or_eq_false_iff] at hclean
    have hlt := h.lt_seqOf hclean.1
    rw [hfiles] at hentry
    have hmem := hsuffix.subset hentry
    rw [hnext] at hseq
    have hspec := hafter.nextSeq
    cases success with
    | true =>
      rw [if_pos rfl, hseq] at hspec
      obtain rfl := Option.some.inj hspec
      rw [if_pos (hafter.lands_of_success rfl), List.mem_append, List.mem_singleton] at hmem
      obtain hmem | rfl := hmem
      · exact Nat.lt_succ_of_lt (hlt entry hmem)
      · exact Nat.lt_succ_self _
    | false =>
      have hout : lands = false := by simpa using hclean.2
      rw [hout, if_neg Bool.false_ne_true, List.append_nil] at hmem
      rw [if_neg Bool.false_ne_true, hseq] at hspec
      obtain hspec | hspec := hspec
      · exact h.next hclean.1 seq hspec.symm entry hmem
      · obtain rfl := Option.some.inj hspec
        exact hlt entry hmem

theorem rising_of_reachableBy (hjson : json.Lawful IsRecord)
    (h : (auditLog json).ReachableBy (fun log action => doubles json log action = false) log) : Rising json log := by
  refine h.invariant ?_ ?_
  · rintro _ ⟨limits, rfl⟩
    exact ⟨sound_new limits, by simp [Log.new, Log.entries], by simp [Log.new]⟩
  · intro log action log' _ hdouble hrising hstep
    cases action with
    | append record durability faults =>
      obtain ⟨-, after, success, hlog, hafter⟩ := step_append hjson hrising.sound hstep
      exact hrising.append hdouble hafter hlog
    | restart limits =>
      rw [step_restart] at hstep
      obtain rfl := Option.some.inj hstep
      exact ⟨sound_restart hrising.sound limits, hrising.rise, fun _ _ h => (Option.some_ne_none _ h.symm).elim⟩

end Numbers

/-- **Sequence numbers rise** over the lines of the log, the oldest file first, whichever way the lines are read, in
every run in which no append puts its line behind one that a failed append of the same process has left. -/
theorem seqs_rise {json : JsonText} (hjson : json.Lawful IsRecord) {log : Log}
    (h : (auditLog json).ReachableBy (fun log action => doubles json log action = false) log) :
    ((log.entries json).map Decoded.seq).Pairwise (· < ·) ∧
      ((log.files.flatMap fun file => readEntries json file.2).map Decoded.seq).Pairwise (· < ·) := by
  have hrising := rising_of_reachableBy hjson h
  refine ⟨hrising.rise, ?_⟩
  have hsame : (log.files.flatMap fun file => readEntries json file.2) = log.entries json :=
    List.flatMap_congr fun file hfile => hrising.sound.agree file hfile
  rw [hsame]
  exact hrising.rise

section Example

/-- Each append of the run is the first of its process. -/
theorem reachableBy_of_tornRun {json : JsonText} {log : Log}
    (h : (auditLog json).exec (Log.new smallLimits) tornRun = some log) :
    (auditLog json).ReachableBy (fun log action => doubles json log action = false) log := by
  unfold tornRun at h
  simp only [Machine.exec_cons, Machine.exec_nil, Option.bind_eq_some_iff, step_restart, Option.some.injEq] at h
  obtain ⟨first, hfirst, _, rfl, second, hsecond, _, rfl, third, hthird, rfl⟩ := h
  have hnew : (auditLog json).ReachableBy (fun log action => doubles json log action = false) (Log.new smallLimits) :=
    .init ⟨smallLimits, rfl⟩
  exact .step (.step (.step (.step (.step hnew rfl hfirst) rfl (step_restart smallLimits)) rfl hsecond) rfl
    (step_restart smallLimits)) rfl hthird

theorem seqs_rise_tornLog :
    ((tornLog.entries Json.canonical).map Decoded.seq).Pairwise (· < ·) ∧
      ((tornLog.files.flatMap fun file => readEntries Json.canonical file.2).map Decoded.seq).Pairwise (· < ·) :=
  seqs_rise (Json.canonical_lawful IsRecord) (reachableBy_of_tornRun (Option.some_get _).symm)

/-- An append whose line landed before the sync failed, and the next one. -/
def failedSync : List LogAction :=
  [.append loadFailed .synced { writing := some .syncing }, .append loadFailed .flushed {}]

def roomForTwo : AuditLimits := ⟨2 * (lineOf Json.canonical 1 loadFailed).length, 10⟩

theorem first_append (json : JsonText) (record : AuditRecord) (limits : AuditLimits) :
    appendLocked json record .synced { writing := some .syncing } (Log.new limits) =
      .error { Log.new limits with
        files := [(0, lineOf json 1 record)], nextSeq := some 1, leftover := true } := by
  simp [appendLocked, reachWrite, prepare, number, Log.new, highestSeq, openIfClosed, openWriter, touchActive,
    activeBytes, makeRoom, write, landedBytes, writeActive, bind, Except.bind, pure, Except.pure]

theorem second_append {json : JsonText} {record : AuditRecord} {log : Log} {line : List UInt8}
    (hline : lineOf json 1 record = line) (hend : endsWithNewline line = true) (hfiles : log.files = [(0, line)])
    (hnext : log.nextSeq = some 1) (hwriter : log.writer = none)
    (hroom : line.length + line.length ≤ log.limits.maxFileBytes) :
    appendLocked json record .flushed {} log =
      .ok { log with files := [(0, line ++ line)], nextSeq := some 2, writer := some (line.length + line.length) } := by
  simp [appendLocked, reachWrite, prepare, number, hnext, hfiles, hwriter, hline, openIfClosed, openWriter, touchActive,
    activeBytes, makeRoom, write, landedBytes, writeActive, bind, Except.bind, pure, Except.pure, hend,
    Nat.not_lt.mpr hroom]

/-- **Two lines share a number.** -/
theorem not_seqs_rise :
    ((auditLog Json.canonical).exec (Log.new roomForTwo) failedSync).map
      (fun log => (log.entries Json.canonical).map Decoded.seq) = some [1, 1] := by
  have hfits : recordFits loadFailed = true := by decide
  have hread := reads_entriesOf (Json.canonical_lawful IsRecord)
  obtain ⟨line, hline⟩ : ∃ line, lineOf Json.canonical 1 loadFailed = line := ⟨_, rfl⟩
  have hbody : line = Utf8.encode (encode Json.canonical 1 loadFailed) ++ [10] := hline.symm.trans (lineOf_eq _ _)
  have hend : endsWithNewline line = true := by rw [hbody]; simp [endsWithNewline]
  have hentry : entriesOf Json.canonical line = [entryOf 1 loadFailed] := by rw [← hline]; exact read_lineOf hread hfits
  have hboth : entriesOf Json.canonical (line ++ line) = [entryOf 1 loadFailed, entryOf 1 loadFailed] := by
    rw [entriesOf_append hread (.inl (.inr ⟨_, hbody⟩)), hentry, List.singleton_append]
  have hfirst : (auditLog Json.canonical).step (Log.new roomForTwo)
      (.append loadFailed .synced { writing := some .syncing }) =
      some { Log.new roomForTwo with
        files := [(0, line)], nextSeq := some 1, leftover := true, appends := [(loadFailed, false)] } := by
    rw [step_append_eq, if_pos hfits, first_append, hline]
    rfl
  have hroom : line.length + line.length ≤ roomForTwo.maxFileBytes := by
    rw [← hline, ← two_mul]
    exact le_rfl
  have hsecond : (auditLog Json.canonical).step
      { Log.new roomForTwo with
        files := [(0, line)], nextSeq := some 1, leftover := true, appends := [(loadFailed, false)] }
      (.append loadFailed .flushed {}) =
      some { Log.new roomForTwo with
        files := [(0, line ++ line)], nextSeq := some 2, writer := some (line.length + line.length), leftover := true,
        appends := [(loadFailed, false), (loadFailed, true)] } := by
    rw [step_append_eq, if_pos hfits, second_append hline hend rfl rfl rfl hroom]
    rfl
  unfold failedSync
  rw [Machine.exec_cons, hfirst, Option.bind_some, Machine.exec_singleton, hsecond]
  simp [Log.entries, hboth, entryOf]

end Example

end DenonAvr.Infrastructure
