import DenonAvr.Application.Lifecycle
import DenonAvr.Library.Eviction

/-!
# What the table holds

The three structures of the table agree (`Kept`): the order lists the ids of the retained operations ascending, and
every idempotency key stands for the retained operation that was made with it, so that looking up a stored id never
fails. Eviction drops the oldest finished operations and nothing else (`evictFinished_eq`).

This holds whatever `transition` is called with (`calls`), and so of the calls that the service makes of it
(`reachable_calls`). The table is brought down to its limit when an operation is admitted and at no other time.
Operations that finish afterwards stay, so that between admissions the table may hold more than the limit although few
of its operations are unfinished (`not_bounded`).
-/

namespace DenonAvr.Application

open Domain Library

/-! ### Every call of the table -/

inductive TableCall
  /-- A request, with what the caps count when it is made. -/
  | submit (owner : Principal) (receiver : ReceiverId) (submission : OperationSubmission) (writes : Writes)
      (now : Instant)
  | transition (id : OperationId) (change : OperationSnapshot → Option OperationSnapshot)
  | cancel (viewer : Principal) (id : OperationId)
  | finish (id : OperationId) (resolution : Resolution)
  | close

def Operations.call (limits : AgentLimits) (retained : ℕ) (operations : Operations) : TableCall → Operations
  | .submit owner receiver submission writes now =>
    (operations.submit limits retained owner receiver submission writes now).1
  | .transition id change => (operations.transition id change).getD operations
  | .cancel viewer id =>
    match operations.cancel viewer id with
    | .ok (operations, _) => operations
    | .error _ => operations
  | .finish id resolution => (operations.finish id resolution).getD operations
  | .close => { operations with closed := true }

/-- Every order of the calls that the table has, with any change of a snapshot. -/
def calls (limits : AgentLimits) (retained : ℕ) : Machine Operations TableCall where
  init operations := operations = {}
  step operations a := some (operations.call limits retained a)

/-! ### What the table keeps -/

namespace Operations

/-- The order lists the retained ids ascending, and a key stands for the retained operation that was made with it. -/
structure Kept (operations : Operations) : Prop where
  ascending : operations.order.Pairwise (· < ·)
  listed : ∀ id, id ∈ operations.order ↔ ∃ entry, operations.entryOf id = some entry
  issued : ∀ id ∈ operations.order, id ≤ operations.nextId
  keyed : operations.Keyed

/-- How many operations the table holds. -/
def size (operations : Operations) : ℕ := operations.entries.entries.length

/-- How many operations of the table have not finished. -/
def unfinished (operations : Operations) : ℕ :=
  operations.entries.entries.countP fun ⟨_, entry⟩ => !entry.snapshot.status.isTerminal

section Kept
variable {operations operations' : Operations} {id other : OperationId}

theorem mem_keys_iff : id ∈ operations.entries.keys ↔ ∃ entry, operations.entryOf id = some entry := by
  rw [← AList.mem_keys, ← AList.lookup_isSome, Option.isSome_iff_exists]
  rfl

theorem Kept.perm (h : operations.Kept) : operations.entries.keys.Perm operations.order := by
  refine (List.perm_ext_iff_of_nodup operations.entries.keys_nodup (h.ascending.imp fun hlt => hlt.ne)).mpr fun id => ?_
  rw [mem_keys_iff, h.listed]

theorem Kept.size_eq (h : operations.Kept) : operations.size = operations.order.length := by
  rw [← h.perm.length_eq, AList.keys, List.keys, List.length_map]
  rfl

/-- The unfinished operations, counted along the order. -/
theorem Kept.unfinished_eq (h : operations.Kept) :
    operations.unfinished = operations.order.countP fun id => !operations.finished id := by
  rw [← h.perm.countP_eq, AList.keys, List.keys, List.countP_map]
  refine List.countP_congr fun e hmem => ?_
  have hentry : operations.entryOf e.1 = some e.2 := AList.mem_lookup_iff.mpr hmem
  simp [finished, hentry]

theorem Kept.finished_iff_mem (h : operations.Kept) (hfinished : operations.finished id = true) :
    id ∈ operations.order := by
  obtain ⟨entry, hentry, -⟩ := finished_iff.mp hfinished
  exact (h.listed id).mpr ⟨entry, hentry⟩

/-- A change of one operation leaves the order, the keys and the ids alone. -/
theorem Kept.transition {change : OperationSnapshot → Option OperationSnapshot} (h : operations.Kept)
    (hchange : operations.transition id change = some operations') : operations'.Kept := by
  have hkeyed := h.keyed.transition hchange
  obtain ⟨entry, snapshot, hentry, -, rfl⟩ := transition_eq_some hchange
  refine ⟨h.ascending, fun other => ?_, h.issued, hkeyed⟩
  rw [h.listed]
  by_cases heq : other = id
  · subst heq
    exact ⟨fun _ => ⟨_, AList.lookup_insert _⟩, fun _ => ⟨entry, hentry⟩⟩
  · rw [entryOf_transition_of_ne hchange heq]

/-! ### Eviction -/

theorem finished_evict (hne : other ≠ id) : (operations.evict id).finished other = operations.finished other := by
  unfold finished
  rw [entryOf_evict, if_neg hne]

/-- What the loop keeps of the order. -/
theorem order_evictLoop (operations : Operations) (excess : ℕ) (kept order : List OperationId) (hnodup : order.Nodup) :
    (operations.evictLoop excess kept order).order = kept ++ dropFirst operations.finished excess order := by
  induction order generalizing operations excess kept with
  | nil => simp [evictLoop, dropFirst]
  | cons first order ih =>
    obtain ⟨hfirst, hrest⟩ := List.nodup_cons.mp hnodup
    unfold evictLoop dropFirst
    split_ifs with hevict
    · rw [ih _ _ _ hrest]
      congr 1
      exact dropFirst_congr fun id hid => finished_evict fun heq => hfirst (heq ▸ hid)
    · rw [ih _ _ _ hrest, List.append_assoc]
      rfl

/-- What the loop keeps of the entries. -/
theorem entryOf_evictLoop (operations : Operations) (excess : ℕ) (kept order : List OperationId)
    (hnodup : order.Nodup) (id : OperationId) :
    (operations.evictLoop excess kept order).entryOf id =
      if id ∈ order ∧ id ∉ dropFirst operations.finished excess order then none else operations.entryOf id := by
  induction order generalizing operations excess kept with
  | nil => simp [evictLoop, entryOf]
  | cons first order ih =>
    obtain ⟨hfirst, hrest⟩ := List.nodup_cons.mp hnodup
    unfold evictLoop dropFirst
    split_ifs with hevict hgone hgone
    · rw [ih _ _ _ hrest, entryOf_evict]
      by_cases heq : id = first
      · simp [heq]
      · have hcongr : dropFirst (operations.evict first).finished (excess - 1) order =
            dropFirst operations.finished (excess - 1) order :=
          dropFirst_congr fun other hother => finished_evict fun h => hfirst (h ▸ hother)
        rw [hcongr, if_pos ⟨(List.mem_cons.mp hgone.1).resolve_left heq, hgone.2⟩]
    · rw [ih _ _ _ hrest, entryOf_evict]
      have hcongr : dropFirst (operations.evict first).finished (excess - 1) order =
          dropFirst operations.finished (excess - 1) order :=
        dropFirst_congr fun other hother => finished_evict fun h => hfirst (h ▸ hother)
      have hne : id ≠ first := by
        rintro rfl
        exact hgone ⟨List.mem_cons_self, fun hmem => hfirst ((dropFirst_sublist _ _ _).subset hmem)⟩
      rw [hcongr, if_neg fun h => hgone ⟨List.mem_cons_of_mem _ h.1, h.2⟩, if_neg hne]
    · rw [ih _ _ _ hrest]
      have hne : id ≠ first := by
        rintro rfl
        exact hgone.2 List.mem_cons_self
      rw [if_pos ⟨(List.mem_cons.mp hgone.1).resolve_left hne, fun hmem => hgone.2 (List.mem_cons_of_mem _ hmem)⟩]
    · rw [ih _ _ _ hrest]
      refine if_neg fun h => hgone ⟨List.mem_cons_of_mem _ h.1, fun hmem => ?_⟩
      rcases List.mem_cons.mp hmem with rfl | hmem
      · exact hfirst h.1
      · exact h.2 hmem

/-- How many operations are to be evicted. -/
def excess (operations : Operations) (retained : ℕ) : ℕ := operations.size - (retained - 1)

/-- **Eviction drops the oldest finished operations** beyond the limit, and nothing else. -/
theorem evictFinished_eq (h : operations.Kept) (retained : ℕ) :
    (operations.evictFinished retained).order =
      dropFirst operations.finished (operations.excess retained) operations.order ∧
    (∀ id, (operations.evictFinished retained).entryOf id =
      if id ∈ operations.order ∧ id ∉ (operations.evictFinished retained).order then none
      else operations.entryOf id) := by
  have hnodup : operations.order.Nodup := h.ascending.imp fun hlt => hlt.ne
  have hloop : operations.evictFinished retained =
      if operations.excess retained = 0 then operations
      else operations.evictLoop (operations.excess retained) [] operations.order := rfl
  have horder : (operations.evictFinished retained).order =
      dropFirst operations.finished (operations.excess retained) operations.order := by
    rw [hloop]
    split_ifs with hzero
    · rw [hzero, dropFirst_zero]
    · exact order_evictLoop operations _ [] _ hnodup
  refine ⟨horder, fun id => ?_⟩
  rw [horder, hloop]
  split_ifs with hzero hgone hgone
  · rw [hzero, dropFirst_zero] at hgone
    exact absurd hgone.1 hgone.2
  · rfl
  · exact (entryOf_evictLoop operations _ [] _ hnodup id).trans (if_pos hgone)
  · exact (entryOf_evictLoop operations _ [] _ hnodup id).trans (if_neg hgone)

theorem Kept.evictFinished (h : operations.Kept) (retained : ℕ) : (operations.evictFinished retained).Kept := by
  obtain ⟨horder, hentries⟩ := evictFinished_eq h retained
  have hsub : (operations.evictFinished retained).order.Sublist operations.order := by
    rw [horder]
    exact dropFirst_sublist _ _ _
  refine ⟨h.ascending.sublist hsub, fun id => ?_, fun id hid => ?_, h.keyed.evictFinished retained⟩
  · rw [hentries]
    constructor
    · intro hid
      rw [if_neg fun hgone => hgone.2 hid]
      exact (h.listed id).mp (hsub.subset hid)
    · rintro ⟨entry, hentry⟩
      by_contra hnot
      have hin : ¬ id ∈ operations.order := fun hin => by
        rw [if_pos ⟨hin, hnot⟩] at hentry
        cases hentry
      rw [if_neg fun hgone => hin hgone.1] at hentry
      exact hin ((h.listed id).mpr ⟨entry, hentry⟩)
  · rw [(operations.evictFinished_spec retained).1]
    exact h.issued id (hsub.subset hid)

theorem Kept.entryOf_next (h : operations.Kept) : operations.entryOf (operations.nextId + 1) = none := by
  by_contra hne
  have hid := (h.listed _).mpr (Option.ne_none_iff_exists'.mp hne)
  exact absurd (h.issued _ hid) (Nat.not_succ_le_self _)

theorem Kept.add (h : operations.Kept) {owner : Principal} {receiver : ReceiverId}
    {submission : OperationSubmission} {status : OperationStatus}
    (hfree : ∀ key, submission.idempotencyKey = some key → operations.keys.lookup (owner, key) = none) :
    (operations.add owner receiver submission status).1.Kept := by
  have hfresh : ∀ id ∈ operations.order, id < operations.nextId + 1 := fun id hid => Nat.lt_succ_of_le (h.issued id hid)
  refine ⟨?_, fun id => ?_, fun id hid => ?_, h.keyed.add h.entryOf_next hfree⟩
  · refine List.pairwise_append.mpr ⟨h.ascending, List.pairwise_singleton _ _, fun id hid new hmem => ?_⟩
    rw [List.mem_singleton.mp hmem]
    exact hfresh id hid
  · show id ∈ operations.order ++ [operations.nextId + 1] ↔ _
    rw [List.mem_append, List.mem_singleton, h.listed]
    by_cases heq : id = operations.nextId + 1
    · subst heq
      exact ⟨fun _ => ⟨_, AList.lookup_insert _⟩, fun _ => .inr rfl⟩
    · rw [entryOf_add_of_ne heq, or_iff_left heq]
  · rcases List.mem_append.mp hid with hid | hid
    · exact (hfresh id hid).le
    · exact (List.mem_singleton.mp hid).le

/-- What a step of the table takes out: no unfinished operation, and of the finished ones the oldest. -/
structure Retains (operations operations' : Operations) : Prop where
  unfinished : ∀ id entry, operations.entryOf id = some entry → entry.snapshot.status.isTerminal = false →
    ∃ entry', operations'.entryOf id = some entry'
  oldest : ∀ id other, id < other → operations.finished id = true →
    (∃ entry, operations.entryOf other = some entry) → operations'.entryOf other = none → operations'.entryOf id = none

theorem Retains.of_entries (h : ∀ id entry, operations.entryOf id = some entry →
    ∃ entry', operations'.entryOf id = some entry') : operations.Retains operations' := by
  refine ⟨fun id entry hentry _ => h id entry hentry, fun id other _ _ hother hgone => ?_⟩
  obtain ⟨entry, hentry⟩ := hother
  obtain ⟨entry', hentry'⟩ := h other entry hentry
  rw [hgone] at hentry'
  cases hentry'

theorem Retains.transition {change : OperationSnapshot → Option OperationSnapshot}
    (hchange : operations.transition id change = some operations') : operations.Retains operations' := by
  refine .of_entries fun other entry hentry => ?_
  by_cases heq : other = id
  · obtain ⟨before, snapshot, -, -, rfl⟩ := transition_eq_some hchange
    subst heq
    exact ⟨_, AList.lookup_insert _⟩
  · exact ⟨entry, (entryOf_transition_of_ne hchange heq).trans hentry⟩

theorem order_transition {change : OperationSnapshot → Option OperationSnapshot}
    (hchange : operations.transition id change = some operations') : operations'.order = operations.order := by
  obtain ⟨before, snapshot, -, -, rfl⟩ := transition_eq_some hchange
  rfl

theorem Retains.submit (h : operations.Kept) (retained : ℕ) (owner : Principal) (receiver : ReceiverId)
    (submission : OperationSubmission) (status : OperationStatus) :
    operations.Retains ((operations.evictFinished retained).add owner receiver submission status).1 := by
  obtain ⟨horder, hentries⟩ := evictFinished_eq h retained
  have hsame : ∀ id ∈ operations.order,
      ((operations.evictFinished retained).add owner receiver submission status).1.entryOf id =
        (operations.evictFinished retained).entryOf id := by
    intro id hid
    refine entryOf_add_of_ne ?_
    rw [(operations.evictFinished_spec retained).1]
    exact (Nat.lt_succ_of_le (h.issued id hid)).ne
  refine ⟨fun id entry hentry hrunning => ⟨entry, ?_⟩, fun id other hlt hfinished hother hgone => ?_⟩
  · have hid : id ∈ operations.order := (h.listed id).mpr ⟨entry, hentry⟩
    have hkept : id ∈ (operations.evictFinished retained).order := by
      rw [horder]
      exact mem_dropFirst_of_not hid (by simp [finished, hentry, hrunning])
    rw [hsame id hid, hentries, if_neg fun hgone => hgone.2 hkept]
    exact hentry
  · have hid := h.finished_iff_mem hfinished
    have hin := (h.listed other).mpr hother
    rw [hsame other hin, hentries] at hgone
    have hdropped : other ∉ (operations.evictFinished retained).order := by
      intro hkept
      obtain ⟨entry, hentry⟩ := hother
      rw [if_neg fun h => h.2 hkept, hentry] at hgone
      cases hgone
    have hgoes : id ∉ (operations.evictFinished retained).order := by
      rw [horder] at hdropped ⊢
      exact not_mem_dropFirst_of_lt h.ascending hid hin hlt hfinished hdropped
    rw [hsame id hid, hentries, if_pos ⟨hid, hgoes⟩]

theorem Kept.submit (h : operations.Kept) {retained : ℕ} {owner : Principal} {receiver : ReceiverId}
    {submission : OperationSubmission} (hretried : operations.retried owner receiver submission = .ok none)
    (status : OperationStatus) : ((operations.evictFinished retained).add owner receiver submission status).1.Kept :=
  (h.evictFinished retained).add fun _ => h.keyed.free_of_retried hretried

/-- After an admission the table is down to its limit, or to what is unfinished. -/
theorem Kept.size_submit (h : operations.Kept) {retained : ℕ} {owner : Principal} {receiver : ReceiverId}
    {submission : OperationSubmission} (hretried : operations.retried owner receiver submission = .ok none)
    (status : OperationStatus) :
    ((operations.evictFinished retained).add owner receiver submission status).1.size ≤
      max retained (operations.unfinished + 1) := by
  have hlength : ((operations.evictFinished retained).add owner receiver submission status).1.size =
      (operations.evictFinished retained).order.length + 1 := by
    rw [(h.submit hretried status).size_eq]
    exact List.length_append
  have hdropped := length_dropFirst operations.finished (operations.excess retained) operations.order
  have hsplit := List.length_eq_countP_add_countP operations.finished (l := operations.order)
  have hunfinished : operations.unfinished = operations.order.countP fun id => ¬ operations.finished id = true := by
    rw [h.unfinished_eq]
    exact List.countP_congr fun id _ => by simp
  rw [hlength, (evictFinished_eq h retained).1, hunfinished]
  unfold excess at hdropped ⊢
  rw [h.size_eq] at hdropped ⊢
  omega

end Kept

end Operations

/-! ### Runs -/

section Calls
variable {limits : AgentLimits} {retained : ℕ} {operations : Operations}

/-- Every call but a request changes one operation, or closes the table. -/
theorem Operations.call_cases (limits : AgentLimits) (retained : ℕ) (operations : Operations) {a : TableCall}
    (h : ∀ owner receiver submission writes now, a ≠ .submit owner receiver submission writes now) :
    (∃ closed, operations.call limits retained a = { operations with closed }) ∨
      ∃ id change, operations.transition id change = some (operations.call limits retained a) := by
  have hgetD : ∀ id change, (∃ closed, (operations.transition id change).getD operations =
      { operations with closed }) ∨ ∃ id' change', operations.transition id' change' =
        some ((operations.transition id change).getD operations) := by
    intro id change
    cases hmoved : operations.transition id change with
    | none => exact .inl ⟨operations.closed, rfl⟩
    | some moved => exact .inr ⟨id, change, hmoved⟩
  cases a with
  | submit owner receiver submission writes now => exact absurd rfl (h _ _ _ _ _)
  | transition id change => exact hgetD id change
  | finish id resolution => exact hgetD id _
  | close => exact .inl ⟨true, rfl⟩
  | cancel viewer id =>
    simp only [Operations.call]
    split
    · rename_i hcancel
      obtain ⟨entry, -, -, -, hmoved⟩ := Operations.cancel_eq_ok hcancel
      exact .inr ⟨_, _, hmoved⟩
    · exact .inl ⟨operations.closed, rfl⟩

theorem Operations.Kept.call (h : operations.Kept) (a : TableCall) :
    (operations.call limits retained a).Kept ∧ operations.Retains (operations.call limits retained a) ∧
      ((∀ owner receiver submission writes now, a ≠ .submit owner receiver submission writes now) →
        (operations.call limits retained a).order = operations.order) := by
  have hrefl : operations.Retains operations := .of_entries fun _ entry hentry => ⟨entry, hentry⟩
  by_cases hsubmit : ∃ owner receiver submission writes now, a = .submit owner receiver submission writes now
  · obtain ⟨owner, receiver, submission, writes, now, rfl⟩ := hsubmit
    refine ⟨?_, ?_, fun hnot => absurd rfl (hnot _ _ _ _ _)⟩ <;> simp only [Operations.call] <;>
      rcases table_submit_cases limits retained operations owner receiver submission writes now with
        ⟨hsame, -⟩ | ⟨hretried, hnew, -⟩
    · rw [hsame]
      exact h
    · rw [hnew]
      exact h.submit hretried _
    · rw [hsame]
      exact hrefl
    · rw [hnew]
      exact .submit h retained owner receiver submission _
  · push Not at hsubmit
    rcases Operations.call_cases limits retained operations hsubmit with ⟨closed, hclosed⟩ | ⟨id, change, hmoved⟩
    · rw [hclosed]
      exact ⟨⟨h.ascending, h.listed, h.issued, h.keyed⟩, .of_entries fun _ entry hentry => ⟨entry, hentry⟩,
        fun _ => rfl⟩
    · exact ⟨h.transition hmoved, .transition hmoved, fun _ => Operations.order_transition hmoved⟩

theorem kept_of_reachable (h : (calls limits retained).Reachable operations) : operations.Kept := by
  refine Machine.Reachable.invariant (I := Operations.Kept) (fun operations hinit => ?_)
    (fun operations a _ _ hi hstep => ?_) h
  · obtain rfl : operations = {} := hinit
    refine ⟨.nil, fun id => ⟨fun hmem => (by cases hmem), ?_⟩, fun id hmem => (by cases hmem), fun owner key id =>
      ⟨fun hlookup => (by cases hlookup), ?_⟩⟩
    · rintro ⟨entry, hentry⟩
      cases hentry
    · rintro ⟨entry, hentry, -⟩
      cases hentry
  · obtain rfl := Option.some.inj hstep
    exact (hi.call a).1

/-- The calls that the service makes are calls of the table. -/
theorem Operations.exists_call {operations' : Operations} {a : TableAction}
    (h : operations.step limits retained a = some operations') :
    ∃ call, operations' = operations.call limits retained call := by
  cases a with
  | submit owner receiver submission writes now =>
    exact ⟨.submit owner receiver submission writes now, (Option.some.inj h).symm⟩
  | allow id | dropTask id => exact ⟨.transition id _, (Option.some.inj h).symm⟩
  | beginSession id =>
    simp only [Operations.step, Operations.beginSession, Operations.moveFrom] at h
    exact ⟨.transition id _, (Option.some.inj h).symm⟩
  | close => exact ⟨.close, (Option.some.inj h).symm⟩
  | finish id resolution =>
    simp only [Operations.step] at h
    split_ifs at h
    exact ⟨.finish id resolution, (Option.some.inj h).symm⟩
  | cancel viewer id =>
    refine ⟨.cancel viewer id, Option.some.inj (h.symm.trans ?_)⟩
    simp only [Operations.step, Operations.call]
    cases operations.cancel viewer id <;> rfl

theorem reachable_calls (h : (table limits retained).Reachable operations) :
    (calls limits retained).Reachable operations := by
  induction h with
  | init hinit => exact .init hinit
  | step _ _ hstep ih =>
    obtain ⟨call, rfl⟩ := Operations.exists_call hstep
    exact .step (a := call) ih trivial rfl

/-- **What the table of operations keeps.** In every run each key stands for a retained operation and the order lists
exactly the retained ids, ascending. A step evicts no unfinished operation, and of the finished ones the oldest first.
An admission that is refused leaves the table as it is, and right after one that records a new operation the table
holds no more than the limit or one more than what was unfinished; no other step changes what it holds. -/
theorem table_kept (limits : AgentLimits) (retained : ℕ) (operations : Operations)
    (h : (calls limits retained).Reachable operations) :
    operations.Kept ∧
    (∀ a, operations.Retains (operations.call limits retained a)) ∧
    (∀ a, (∀ owner receiver submission writes now, a ≠ .submit owner receiver submission writes now) →
      (operations.call limits retained a).order = operations.order) ∧
    ∀ owner receiver submission writes now,
      (∀ error, (operations.submit limits retained owner receiver submission writes now).2 = .error error →
        (operations.submit limits retained owner receiver submission writes now).1 = operations) ∧
      ∀ snapshot, (operations.submit limits retained owner receiver submission writes now).2 = .ok (.new snapshot) →
        (operations.submit limits retained owner receiver submission writes now).1.size ≤
          max retained (operations.unfinished + 1) := by
  have hkept := kept_of_reachable h
  refine ⟨hkept, fun a => (hkept.call a).2.1, fun a => (hkept.call a).2.2,
    fun owner receiver submission writes now => ?_⟩
  rcases table_submit_cases limits retained operations owner receiver submission writes now with
    ⟨hsame, hexisting⟩ | ⟨hretried, hnew, hadmitted⟩
  · refine ⟨fun _ _ => hsame, fun snapshot hadmitted => ?_⟩
    obtain ⟨_, hnot, -⟩ := hexisting _ hadmitted
    cases hnot
  · refine ⟨fun error herror => ?_, fun _ _ => hnew ▸ hkept.size_submit hretried _⟩
    rw [hadmitted] at herror
    cases herror

end Calls

/-! ### Finishing evicts nothing -/

def quieter : OperationSubmission := { intent := .volume .minimum }

/-- Two operations are admitted to a table for one, and both finish. -/
def bothFinish : List TableCall :=
  [.submit .operator avr quieter ∅ 0, .submit .operator avr muteOn ∅ 0,
    .finish 1 (resolve (.cancelled 1)), .finish 2 (resolve (.cancelled 2))]

def bothFinished : Operations := ((calls {} 1).exec {} bothFinish).get (by decide)

/-- The table may hold more than its limit although nothing is unfinished. -/
theorem not_bounded :
    ∃ limits retained operations, (calls limits retained).Reachable operations ∧
      ¬ operations.size ≤ max retained (operations.unfinished + 1) :=
  ⟨{}, 1, bothFinished, Machine.reachable_of_exec ({} : Operations) bothFinish rfl (Option.some_get _).symm, by decide⟩

/-- What holds of the table in which both have finished. -/
theorem table_kept_bothFinished : bothFinished.Kept :=
  (table_kept {} 1 bothFinished
    (Machine.reachable_of_exec ({} : Operations) bothFinish rfl (Option.some_get _).symm)).1

end DenonAvr.Application
