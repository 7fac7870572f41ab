import DenonAvr.Application.AccessBook

/-!
# Where refusals are counted

Every refusal is in a record or in a count. A record that is released takes over the counts of its key and of the callers
that were not tracked; the record is then written, or fails. The one place where a count ends is an eviction: the key goes
with what was counted against it (`accounted_add_evicted`), so nothing is lost exactly when nothing was counted against
the keys that go (`conserved_iff`).
-/

namespace DenonAvr.Application

open Domain Library Library.Tally

/-- How many refusals a record says were not written. -/
def suppressedIn (record : AuditRecord) : ℕ :=
  match record.event with
  | .accessRefused _ _ _ _ suppressed => suppressed
  | _ => 0

/-- The refusals that records stand for: one each, and those they report. -/
def standFor (records : List AuditRecord) : ℕ := records.length + (records.map suppressedIn).sum

namespace AccessBook

/-- The refusals that are counted and in no record yet. -/
def pending (book : AccessBook) : ℕ := (book.keys.entries.map (·.2.suppressed)).sum + book.unwritten

end AccessBook

namespace Refusals

/-- The refusals that records stand for, those whose append has not ended among them, and those still counted. -/
def accounted (s : Refusals) : ℕ :=
  standFor s.written + standFor s.failed + standFor s.appending + s.book.pending

/-- No refusal disappears uncounted. -/
def Conserved (s : Refusals) : Prop := s.accounted = s.received

/-- The count that a refusal adds to or reports, as it would be without an end to what a `u32` counts. -/
def counts (s : Refusals) (key : AccessKey) (now : Instant) : ℕ :=
  if (s.book.prune now).isRecent key now || (s.book.prune now).isFull then
    (if (s.book.keys.lookup key).isSome then s.countOf key else s.book.unwritten) + 1
  else s.countOf key + s.book.unwritten

/-- No count is cut off. -/
def Unsaturated (s : Refusals) : RefusalAction → Prop
  | .refuse refusal _ now _ => s.counts refusal.key now ≤ 2 ^ 32 - 1
  | .append _ _ => True

instance (s : Refusals) : (a : RefusalAction) → Decidable (s.Unsaturated a)
  | .refuse refusal _ now _ => inferInstanceAs (Decidable (s.counts refusal.key now ≤ 2 ^ 32 - 1))
  | .append _ _ => inferInstanceAs (Decidable True)

end Refusals

theorem saturatingAdd_eq {a b : ℕ} (h : a + b ≤ 2 ^ 32 - 1) : saturatingAdd a b = a + b := min_eq_left h

theorem standFor_concat (records : List AuditRecord) (record : AuditRecord) :
    standFor (records ++ [record]) = standFor records + (1 + suppressedIn record) := by
  unfold standFor
  simp only [List.length_append, List.length_singleton, List.map_append, List.map_singleton, List.sum_append,
    List.sum_singleton]
  omega

theorem standFor_eraseIdx {records : List AuditRecord} {index : ℕ} {record : AuditRecord}
    (h : records[index]? = some record) : standFor (records.eraseIdx index) + (1 + suppressedIn record) = standFor records := by
  induction records generalizing index with
  | nil => cases h
  | cons first records ih =>
    cases index with
    | zero =>
      obtain rfl := Option.some.inj h
      unfold standFor
      simp only [List.eraseIdx_zero, List.tail_cons, List.length_cons, List.map_cons, List.sum_cons]
      omega
    | succ index =>
      have hrest := ih h
      unfold standFor at hrest ⊢
      simp only [List.eraseIdx_cons_succ, List.length_cons, List.map_cons, List.sum_cons]
      omega

section Counts
variable {s s' : Refusals} {run time : WallTime} {refusal : AccessRefusal} {key oldest : AccessKey} {now : Instant}
  {a : RefusalAction}

theorem countOf_eq {entry : AccessEntry} (hentry : s.book.keys.lookup key = some entry) :
    s.countOf key = entry.suppressed := by
  unfold Refusals.countOf
  rw [hentry]
  rfl

/-- A suppressed refusal is counted. -/
theorem pending_suppress (hcase : (s.book.prune now).isRecent key now || (s.book.prune now).isFull)
    (hcounts : s.counts key now ≤ 2 ^ 32 - 1) :
    ((s.book.prune now).suppress key).pending = s.book.pending + 1 := by
  unfold Refusals.counts at hcounts
  rw [if_pos hcase] at hcounts
  unfold AccessBook.suppress
  have hkeys : (s.book.prune now).keys = s.book.keys := rfl
  rw [hkeys]
  cases hentry : s.book.keys.lookup key with
  | some entry =>
    rw [hentry, if_pos (by rfl), countOf_eq hentry] at hcounts
    have hsum := sum_insert (fun e : Sigma fun _ : AccessKey => AccessEntry => e.2.suppressed)
      { entry with suppressed := saturatingAdd entry.suppressed 1 } hentry
    have hexact := saturatingAdd_eq hcounts
    unfold AccessBook.pending AccessBook.prune
    dsimp only at hsum ⊢
    omega
  | none =>
    rw [hentry, if_neg (by decide)] at hcounts
    have hexact := saturatingAdd_eq hcounts
    unfold AccessBook.pending AccessBook.prune
    dsimp only
    omega

/-- What is pending when there is room for the key: what was, but for the key that went. -/
theorem pending_makeRoom (book : AccessBook) (holdest : book.evicts key = true → book.isOldest oldest = true) :
    (book.makeRoom key oldest).pending +
      (if book.evicts key then ((book.keys.lookup oldest).map (·.suppressed)).getD 0 else 0) = book.pending := by
  unfold AccessBook.makeRoom
  split_ifs with hevicts
  · obtain ⟨entry, hentry, -⟩ := AccessBook.isOldest_iff.mp (holdest hevicts)
    have hsum := sum_kerase (fun e : Sigma fun _ : AccessKey => AccessEntry => e.2.suppressed) hentry
    have herase : (book.keys.erase oldest).entries = book.keys.entries.kerase oldest := rfl
    rw [hentry]
    unfold AccessBook.pending
    dsimp only [Option.map_some, Option.getD_some] at hsum ⊢
    rw [herase]
    omega
  · rfl

/-- Room is made by another key's going. -/
theorem lookup_makeRoom (book : AccessBook) (key oldest : AccessKey) :
    (book.makeRoom key oldest).keys.lookup key = book.keys.lookup key := by
  unfold AccessBook.makeRoom
  split_ifs with hevicts
  · have hnone : book.keys.lookup key = none := Option.isNone_iff_eq_none.mp (Bool.and_eq_true_iff.mp hevicts).1
    by_cases heq : key = oldest
    · rw [hnone, heq]
      exact AList.lookup_erase _ _
    · exact AList.lookup_erase_ne heq
  · rfl

theorem unwritten_makeRoom (book : AccessBook) (key oldest : AccessKey) :
    (book.makeRoom key oldest).unwritten = book.unwritten := by
  unfold AccessBook.makeRoom
  split_ifs <;> rfl

/-- A record that is released takes over what was counted against its key and against nobody. -/
theorem pending_release (book : AccessBook) (key : AccessKey) (now : Instant)
    (hcounts : ((book.keys.lookup key).map (·.suppressed)).getD 0 + book.unwritten ≤ 2 ^ 32 - 1) :
    (book.release key now).1.pending + (book.release key now).2 = book.pending := by
  unfold AccessBook.release AccessBook.pending
  cases hentry : book.keys.lookup key with
  | some entry =>
    rw [hentry] at hcounts
    have hexact := saturatingAdd_eq hcounts
    have hsum := sum_insert (fun e : Sigma fun _ : AccessKey => AccessEntry => e.2.suppressed)
      { last := now, suppressed := 0 } hentry
    dsimp only [Option.map_some, Option.getD_some] at hsum hexact ⊢
    omega
  | none =>
    rw [hentry] at hcounts
    have hexact := saturatingAdd_eq hcounts
    have hsum := sum_insert_new (fun e : Sigma fun _ : AccessKey => AccessEntry => e.2.suppressed)
      { last := now, suppressed := 0 } hentry
    dsimp only [Option.map_none, Option.getD_none] at hsum hexact ⊢
    omega

/-- **One refusal.** -/
theorem accounted_refuse (holdest : s.book.evicts refusal.key = true → s.book.isOldest oldest = true)
    (hcounts : s.counts refusal.key now ≤ 2 ^ 32 - 1) (run time : WallTime) :
    (s.refuse run refusal oldest now time).accounted + ((s.refuse run refusal oldest now time).evicted.map (·.2)).sum =
      s.accounted + (s.evicted.map (·.2)).sum + 1 := by
  cases hcase : (s.book.prune now).isRecent refusal.key now || (s.book.prune now).isFull with
  | true =>
    rw [refuse_suppressed hcase]
    have hpending := pending_suppress hcase hcounts
    unfold Refusals.accounted
    dsimp only
    omega
  | false =>
    rw [refuse_released hcase]
    unfold Refusals.counts at hcounts
    rw [if_neg (by rw [hcase]; exact Bool.false_ne_true)] at hcounts
    have hroom := @pending_makeRoom refusal.key oldest (s.book.prune now) holdest
    have hrelease := pending_release ((s.book.prune now).makeRoom refusal.key oldest) refusal.key now
      (by rw [lookup_makeRoom, unwritten_makeRoom]; exact hcounts)
    have hevicted : ((if s.book.evicts refusal.key then s.evicted ++ [(oldest, s.countOf oldest)] else
        s.evicted).map (·.2)).sum = (s.evicted.map (·.2)).sum + if s.book.evicts refusal.key then s.countOf oldest else 0 := by
      split_ifs
      · rw [List.map_append, List.sum_append]
        rfl
      · rfl
    have hsame : (s.book.prune now).pending = s.book.pending := rfl
    have hpruned : (if (s.book.prune now).evicts refusal.key then
        (((s.book.prune now).keys.lookup oldest).map (·.suppressed)).getD 0 else 0) =
          if s.book.evicts refusal.key then s.countOf oldest else 0 := rfl
    unfold Refusals.accounted
    dsimp only
    rw [hevicted, standFor_concat]
    have hrecord : suppressedIn (refusal.record run time
        (((s.book.prune now).makeRoom refusal.key oldest).release refusal.key now).2) =
          (((s.book.prune now).makeRoom refusal.key oldest).release refusal.key now).2 := rfl
    rw [hrecord]
    omega

/-- The step lemma: a refusal is one more, and the end of an append moves a record. -/
theorem accounted_step (hi : s.accounted + (s.evicted.map (·.2)).sum = s.received) (hunsaturated : s.Unsaturated a)
    (hstep : (refusals run).step s a = some s') : s'.accounted + (s'.evicted.map (·.2)).sum = s'.received := by
  rcases refusals_step hstep with ⟨refusal, oldest, now, time, rfl, holdest, rfl⟩ | ⟨index, ok, record, rfl, hrecord, rfl⟩
  · have hreceived : (s.refuse run refusal oldest now time).received = s.received + 1 := by
      unfold Refusals.refuse
      split <;> rfl
    rw [accounted_refuse holdest hunsaturated, hi, hreceived]
  · have herase := standFor_eraseIdx hrecord
    unfold Refusals.accounted at hi ⊢
    cases ok with
    | true =>
      have happend := standFor_concat s.written record
      rw [if_pos rfl, if_pos rfl]
      dsimp only
      omega
    | false =>
      have happend := standFor_concat s.failed record
      rw [if_neg Bool.false_ne_true, if_neg Bool.false_ne_true]
      dsimp only
      omega

/-- **Every refusal is in a record, in a count, or was counted against a key that was evicted.** -/
theorem accounted_add_evicted (h : (refusals run).ReachableBy Refusals.Unsaturated s) :
    s.accounted + (s.evicted.map (·.2)).sum = s.received := by
  refine Machine.ReachableBy.invariant (I := fun s : Refusals => s.accounted + (s.evicted.map (·.2)).sum = s.received)
    (fun s hinit => ?_) (fun s a s' _ hunsaturated hi hstep => accounted_step hi hunsaturated hstep) h
  obtain rfl : s = {} := hinit
  rfl

/-- **No refusal disappears uncounted exactly when the keys that are evicted have no count**, in every run in which no
count is cut off. -/
theorem conserved_iff (run : WallTime) (s : Refusals) (h : (refusals run).ReachableBy Refusals.Unsaturated s) :
    s.Conserved ↔ ∀ key count, (key, count) ∈ s.evicted → count = 0 := by
  have htotal := accounted_add_evicted h
  unfold Refusals.Conserved
  have hzero : s.accounted = s.received ↔ (s.evicted.map (·.2)).sum = 0 := by omega
  rw [hzero, List.sum_eq_zero_iff]
  constructor
  · exact fun hall key count hmem => hall count (List.mem_map.mpr ⟨_, hmem, rfl⟩)
  · intro hall count hmem
    obtain ⟨⟨key, counted⟩, hevicted, rfl⟩ := List.mem_map.mp hmem
    exact hall key counted hevicted

end Counts

/-! ### A count that goes with its key -/

/-- A caller that was refused twice, and then others, one a minute, up to `n`. -/
structure Flooded (n : ℕ) (s : Refusals) : Prop where
  reachable : (refusals 0).ReachableBy (fun s a => s.InOrder a ∧ s.Unsaturated a) s
  first : s.book.keys.lookup (stranger 0).key = some { last := 0, suppressed := 1 }
  fresh : ∀ uid, n < uid → s.book.keys.lookup (stranger uid).key = none
  size : s.book.keys.keys.length = n + 1
  unwritten : s.book.unwritten = 0
  latest : s.latest ≤ accessLogEvery * n + 1
  written : ∀ t ∈ s.book.written, t ≤ accessLogEvery * n

section Flooded
variable {n : ℕ} {s : Refusals}

theorem stranger_key_ne {uid other : ℕ} (hne : uid ≠ other) : (stranger uid).key ≠ (stranger other).key := by
  intro heq
  exact hne (Subject.uid.inj (AccessKey.mk.inj heq).2.2)

def nextMinute (n : ℕ) : Instant := accessLogEvery * (n + 1)

/-- The next caller's refusal is released: a minute has gone by since the last. -/
theorem Flooded.released (h : Flooded n s) :
    ((s.book.prune (nextMinute n)).isRecent (stranger (n + 1)).key (nextMinute n) ||
      (s.book.prune (nextMinute n)).isFull) = false := by
  have hempty : (s.book.prune (nextMinute n)).written = [] := by
    rw [AccessBook.prune_written, List.filter_eq_nil_iff]
    intro t ht hlive
    have hold : t + accessLogEvery ≤ nextMinute n := Nat.add_le_add_right (h.written t ht) _
    rw [live_eq_false_iff.mpr hold] at hlive
    cases hlive
  have hnone : (s.book.prune (nextMinute n)).keys.lookup (stranger (n + 1)).key = none :=
    h.fresh (n + 1) (Nat.lt_succ_self n)
  unfold AccessBook.isRecent AccessBook.isFull
  rw [hempty, hnone]
  rfl

theorem Flooded.unsaturated (h : Flooded n s) :
    s.Unsaturated (.refuse (stranger (n + 1)) (stranger 0).key (nextMinute n) 0) := by
  unfold Refusals.Unsaturated Refusals.counts Refusals.countOf
  dsimp only
  rw [if_neg (Bool.eq_false_iff.mp h.released), h.fresh (n + 1) (Nat.lt_succ_self n), h.unwritten]
  decide

theorem Flooded.inOrder (h : Flooded n s) :
    s.InOrder (.refuse (stranger (n + 1)) (stranger 0).key (nextMinute n) 0) := by
  have hminute : 1 ≤ accessLogEvery * 1 := by decide
  refine h.latest.trans ?_
  unfold nextMinute
  rw [Nat.mul_add]
  exact Nat.add_le_add_left hminute _

theorem Flooded.isOldest (h : Flooded n s) : s.book.isOldest (stranger 0).key = true :=
  AccessBook.isOldest_iff.mpr ⟨_, h.first, fun _ _ _ => Nat.zero_le _⟩

theorem Flooded.step (h : Flooded n s) : (refusals 0).step s (.refuse (stranger (n + 1)) (stranger 0).key (nextMinute n) 0) =
    some (s.refuse 0 (stranger (n + 1)) (stranger 0).key (nextMinute n) 0) := by
  refine if_neg ?_
  rw [h.isOldest, Bool.not_true, Bool.and_false]
  exact Bool.false_ne_true

/-- While there is room, nobody goes. -/
theorem Flooded.succ (h : Flooded n s) (hroom : n + 1 < accessKeys) : ∃ s', Flooded (n + 1) s' := by
  have hevicts : (s.book.prune (nextMinute n)).evicts (stranger (n + 1)).key = false := by
    have hsize : (s.book.prune (nextMinute n)).keys.keys.length = n + 1 := h.size
    unfold AccessBook.evicts
    rw [hsize, decide_eq_false hroom.not_ge, Bool.and_false]
  have hmake : (s.book.prune (nextMinute n)).makeRoom (stranger (n + 1)).key (stranger 0).key =
      s.book.prune (nextMinute n) := if_neg (Bool.eq_false_iff.mp hevicts)
  have hreached := Machine.ReachableBy.step h.reachable ⟨h.inOrder, h.unsaturated⟩ h.step
  rw [refuse_released h.released, hmake] at hreached
  refine ⟨_, hreached, ?_, fun uid huid => ?_, ?_, rfl, Nat.le_succ _, fun t ht => ?_⟩
  · exact (AList.lookup_insert_ne (stranger_key_ne (Nat.succ_ne_zero n).symm)).trans h.first
  · exact (AList.lookup_insert_ne (stranger_key_ne huid.ne')).trans (h.fresh uid (Nat.lt_of_succ_lt huid))
  · refine (AccessBook.length_keys_insert (s.book.prune (nextMinute n)) _ _).trans ?_
    have hnone : (s.book.prune (nextMinute n)).keys.lookup (stranger (n + 1)).key = none :=
      h.fresh (n + 1) (Nat.lt_succ_self n)
    rw [hnone]
    exact congrArg (· + 1) h.size
  · obtain ht | ht := List.mem_append.mp ht
    · exact (h.written t (List.mem_filter.mp ht).1).trans (Nat.mul_le_mul_left _ (Nat.le_succ n))
    · exact (List.mem_singleton.mp ht).le

def refusedAgain : Refusals :=
  ((refusals 0).execBy (fun s a => s.InOrder a ∧ s.Unsaturated a) {}
    [.refuse (stranger 0) (stranger 0).key 0 0, .refuse (stranger 0) (stranger 0).key 1 1]).get (by decide)

theorem flooded_zero : Flooded 0 refusedAgain where
  reachable := Machine.reachableBy_of_execBy ({} : Refusals) _ rfl (Option.some_get _).symm
  first := by decide
  fresh uid huid := by
    have hne : (stranger uid).key ≠ (stranger 0).key := stranger_key_ne huid.ne'
    exact (AList.lookup_insert_ne hne).trans (AList.lookup_insert_ne hne)
  size := by decide
  unwritten := rfl
  latest := by decide
  written := by decide

/-- Nothing is lost while nobody goes. -/
theorem conserved_refusedAgain : refusedAgain.Conserved := by
  refine (conserved_iff 0 refusedAgain (flooded_zero.reachable.mono fun _ _ h => h.2)).mpr fun key count hmem => ?_
  have hnone : refusedAgain.evicted = [] := by decide
  rw [hnone] at hmem
  exact absurd hmem List.not_mem_nil

theorem exists_flooded (hroom : n < accessKeys) : ∃ s, Flooded n s := by
  induction n with
  | zero => exact ⟨refusedAgain, flooded_zero⟩
  | succ n ih =>
    obtain ⟨s, hs⟩ := ih (Nat.lt_of_succ_lt hroom)
    exact hs.succ hroom

/-- The caller that fills the book beyond its limit takes the place of the first, and the refusal counted against the
first is in no record and in no count any more. -/
theorem not_conserved : ∃ run s, (refusals run).ReachableBy (fun s a => s.InOrder a ∧ s.Unsaturated a) s ∧ ¬ s.Conserved := by
  obtain ⟨s, hs⟩ := @exists_flooded 255 (by decide)
  have hreached := Machine.ReachableBy.step hs.reachable ⟨hs.inOrder, hs.unsaturated⟩ hs.step
  refine ⟨0, _, hreached, fun hconserved => ?_⟩
  have htotal := accounted_add_evicted (hreached.mono fun _ _ h => h.2)
  have hevicts : s.book.evicts (stranger 256).key = true := by
    unfold AccessBook.evicts
    rw [hs.fresh 256 (by decide), hs.size]
    rfl
  have hcount : s.countOf (stranger 0).key = 1 := countOf_eq hs.first
  have hlost : ((s.refuse 0 (stranger (255 + 1)) (stranger 0).key (nextMinute 255) 0).evicted.map (·.2)).sum =
      (s.evicted.map (·.2)).sum + 1 := by
    rw [refuse_released hs.released]
    dsimp only
    rw [if_pos hevicts, List.map_append, List.sum_append, hcount]
    rfl
  unfold Refusals.Conserved at hconserved
  omega

end Flooded

end DenonAvr.Application
