import DenonAvr.Application.Audit
import DenonAvr.Application.Caps
import DenonAvr.Library.Machine
import DenonAvr.Library.Tally
import DenonAvr.Library.Window
import Mathlib.Data.List.AList

/-!
# The book of refused callers

Callers refused at an endpoint are written to the audit log at a bounded rate: the first refusal of a caller and reason,
later ones inside a minute as a count in the next record, and no more than a number of records a minute over all of them.

The three bounds (`AccessBounds`) hold over every run whose refusals come in the order of their times. A key that is
evicted takes its last release with it. It is the oldest of as many keys as the book holds, more than are released in a
minute, so its release is a minute old.
-/

namespace DenonAvr.Application

open Domain Library

/-! ### The book -/

/-- How often a refused caller is written to the log, per caller and reason. -/
def accessLogEvery : ℕ := 60 * 1000

/-- How many refused callers are tracked at once. -/
def accessKeys : ℕ := 256

/-- How many refusals are written a minute over all callers. -/
def accessRecordsPerWindow : ℕ := 30

/-- Who a refusal is counted against. -/
inductive Subject
  | label (label : AgentLabel)
  | uid (uid : ℕ)
  | nobody
deriving DecidableEq

structure AccessKey where
  endpoint : EndpointKind
  reason : RefusalReason
  who : Subject
deriving DecidableEq

structure AccessEntry where
  last : Instant
  suppressed : ℕ
deriving DecidableEq

abbrev AccessEntries := AList fun _ : AccessKey => AccessEntry

structure AccessBook where
  keys : AccessEntries := ∅
  /-- When the records of the last minute were written. -/
  written : List Instant := []
  /-- Refusals not written because the whole log was at its rate and their caller was not tracked. -/
  unwritten : ℕ := 0

/-- `u32::saturating_add`. -/
def saturatingAdd (a b : ℕ) : ℕ := min (a + b) (2 ^ 32 - 1)

/-- A refusal at an endpoint, as the server reports it to the service. -/
structure AccessRefusal where
  endpoint : EndpointKind
  reason : RefusalReason
  principal : Option Principal
  peerUid : Option ℕ
  resource : Option String

def AccessRefusal.key (refusal : AccessRefusal) : AccessKey where
  endpoint := refusal.endpoint
  reason := refusal.reason
  who := match refusal.principal, refusal.peerUid with
    | some (.agent label), _ => .label label
    | _, some uid => .uid uid
    | _, _ => .nobody

/-- What is written of a refusal, with how many like it were not. -/
def AccessRefusal.record (refusal : AccessRefusal) (run time : WallTime) (suppressed : ℕ) : AuditRecord :=
  { run, time, operation := none, principal := refusal.principal, receiver := none
    event := .accessRefused refusal.endpoint refusal.reason refusal.peerUid
      (refusal.resource.map fun route =>
        bounded (String.ofList (route.toList.map fun c => if isControl c then ' ' else c)) maxIntentText)
      suppressed }

namespace AccessBook

/-- The releases of the last minute. -/
def prune (book : AccessBook) (now : Instant) : AccessBook :=
  { book with written := book.written.filter fun at_ => decide (now - at_ < accessLogEvery) }

/-- Whether the key was released in the last minute. -/
def isRecent (book : AccessBook) (key : AccessKey) (now : Instant) : Bool :=
  (book.keys.lookup key).any fun entry => decide (now - entry.last < accessLogEvery)

/-- Whether the log as a whole is at its rate. -/
def isFull (book : AccessBook) : Bool := decide (accessRecordsPerWindow ≤ book.written.length)

/-- Count a refusal against its key, or against the next record written when the key is not tracked. -/
def suppress (book : AccessBook) (key : AccessKey) : AccessBook :=
  match book.keys.lookup key with
  | some entry =>
    { book with keys := AList.insert key { entry with suppressed := saturatingAdd entry.suppressed 1 } book.keys }
  | none => { book with unwritten := saturatingAdd book.unwritten 1 }

/-- Whether a key has to go to make room for this one. -/
def evicts (book : AccessBook) (key : AccessKey) : Bool :=
  (book.keys.lookup key).isNone && decide (accessKeys ≤ book.keys.keys.length)

/-- Whether the key is one that `min_by_key` may find. -/
def isOldest (book : AccessBook) (key : AccessKey) : Bool :=
  (book.keys.lookup key).any fun entry => book.keys.entries.all fun ⟨_, other⟩ => decide (entry.last ≤ other.last)

def makeRoom (book : AccessBook) (key oldest : AccessKey) : AccessBook :=
  if book.evicts key then { book with keys := book.keys.erase oldest } else book

/-- Write a record for the key, with the count of what was not written. -/
def release (book : AccessBook) (key : AccessKey) (now : Instant) : AccessBook × ℕ :=
  let entry := (book.keys.lookup key).getD { last := now, suppressed := 0 }
  ({ keys := AList.insert key { last := now, suppressed := 0 } book.keys
     written := book.written ++ [now]
     unwritten := 0 }, saturatingAdd entry.suppressed book.unwritten)

/-- `admit_refusal`: whether a refusal is written now, and how many like it were not. The oldest key is the one that goes
if one has to. -/
def admitRefusal (book : AccessBook) (key oldest : AccessKey) (now : Instant) : AccessBook × Option ℕ :=
  let book := book.prune now
  if book.isRecent key now || book.isFull then (book.suppress key, none)
  else
    let (book, suppressed) := (book.makeRoom key oldest).release key now
    (book, some suppressed)

end AccessBook

/-! ### What a refusal does to the book -/

namespace AccessBook

section Book
variable {book : AccessBook} {key other oldest : AccessKey} {entry : AccessEntry} {now : Instant}

theorem accessLogEvery_pos : 0 < accessLogEvery := by decide

theorem prune_written (book : AccessBook) (now : Instant) :
    (book.prune now).written = book.written.filter (live accessLogEvery now) :=
  List.filter_congr fun t _ => decide_age_lt accessLogEvery_pos now t

theorem isRecent_eq_false (h : book.isRecent key now = false) (hentry : book.keys.lookup key = some entry) :
    live accessLogEvery now entry.last = false := by
  unfold isRecent at h
  rw [hentry, Option.any_some, decide_age_lt accessLogEvery_pos] at h
  exact h

theorem isOldest_iff : book.isOldest oldest = true ↔ ∃ entry, book.keys.lookup oldest = some entry ∧
    ∀ key other, book.keys.lookup key = some other → entry.last ≤ other.last := by
  unfold isOldest
  cases hentry : book.keys.lookup oldest with
  | none => simp
  | some entry =>
    simp only [Option.any_some, List.all_eq_true, decide_eq_true_eq, Option.some.injEq, exists_eq_left']
    refine ⟨fun h key other hother => h ⟨key, other⟩ (AList.mem_lookup_iff.mp hother), fun h e he => ?_⟩
    exact h e.1 e.2 (AList.mem_lookup_iff.mpr he)

theorem admitRefusal_suppressed (h : (book.prune now).isRecent key now || (book.prune now).isFull) :
    book.admitRefusal key oldest now = ((book.prune now).suppress key, none) := if_pos h

theorem admitRefusal_released (h : ((book.prune now).isRecent key now || (book.prune now).isFull) = false) :
    book.admitRefusal key oldest now =
      ((((book.prune now).makeRoom key oldest).release key now).1,
        some (((book.prune now).makeRoom key oldest).release key now).2) :=
  if_neg (Bool.eq_false_iff.mp h)

/-! A suppressed refusal leaves the releases alone, of every key. -/

theorem suppress_written (book : AccessBook) (key : AccessKey) : (book.suppress key).written = book.written := by
  unfold suppress
  split <;> rfl

theorem map_last_suppress (book : AccessBook) (key other : AccessKey) :
    ((book.suppress key).keys.lookup other).map (·.last) = (book.keys.lookup other).map (·.last) := by
  unfold suppress
  split
  · rename_i entry hentry
    by_cases heq : other = key
    · rw [heq, hentry, AList.lookup_insert]
      rfl
    · rw [AList.lookup_insert_ne heq]
  · rfl

theorem length_keys_insert (book : AccessBook) (key : AccessKey) (entry : AccessEntry) :
    (AList.insert key entry book.keys).keys.length =
      if (book.keys.lookup key).isSome then book.keys.keys.length else book.keys.keys.length + 1 := by
  rw [AList.keys_insert, List.length_cons, List.length_erase]
  by_cases hmem : key ∈ book.keys
  · rw [if_pos (AList.lookup_isSome.mpr hmem), if_pos (AList.mem_keys.mp hmem)]
    exact Nat.sub_add_cancel (List.length_pos_of_mem (AList.mem_keys.mp hmem))
  · rw [if_neg (fun h => hmem (AList.lookup_isSome.mp h)), if_neg (fun h => hmem (AList.mem_keys.mpr h))]

theorem length_keys_suppress (book : AccessBook) (key : AccessKey) :
    (book.suppress key).keys.keys.length = book.keys.keys.length := by
  unfold suppress
  split
  · rename_i entry hentry
    rw [length_keys_insert, hentry]
    exact if_pos rfl
  · rfl

/-! A release leaves the other keys alone, but for the one that goes. -/

theorem makeRoom_written (book : AccessBook) (key oldest : AccessKey) :
    (book.makeRoom key oldest).written = book.written := by
  unfold makeRoom
  split_ifs <;> rfl

theorem lookup_release_self (book : AccessBook) (key : AccessKey) (now : Instant) :
    (book.release key now).1.keys.lookup key = some { last := now, suppressed := 0 } := AList.lookup_insert _

theorem lookup_release_of_ne (hne : other ≠ key) (book : AccessBook) (oldest : AccessKey) (now : Instant) :
    ((book.makeRoom key oldest).release key now).1.keys.lookup other =
      if book.evicts key = true ∧ other = oldest then none else book.keys.lookup other := by
  refine (AList.lookup_insert_ne hne).trans ?_
  unfold makeRoom
  by_cases hevicts : book.evicts key = true
  · rw [if_pos hevicts]
    by_cases heq : other = oldest
    · rw [if_pos ⟨hevicts, heq⟩, heq]
      exact AList.lookup_erase _ _
    · rw [if_neg fun h => heq h.2]
      exact AList.lookup_erase_ne heq
  · rw [if_neg hevicts, if_neg fun h => hevicts h.1]

/-- The book does not outgrow its limit. -/
theorem length_keys_release (hsize : book.keys.keys.length ≤ accessKeys)
    (holdest : book.evicts key = true → book.isOldest oldest = true) (now : Instant) :
    ((book.makeRoom key oldest).release key now).1.keys.keys.length ≤ accessKeys := by
  refine (length_keys_insert _ key _).trans_le ?_
  unfold makeRoom
  by_cases hevicts : book.evicts key = true
  · rw [if_pos hevicts]
    have hmem : oldest ∈ book.keys.keys := by
      obtain ⟨entry, hentry, -⟩ := isOldest_iff.mp (holdest hevicts)
      exact AList.mem_keys.mp (AList.lookup_isSome.mp (by rw [hentry]; rfl))
    have hlength : (book.keys.erase oldest).keys.length = book.keys.keys.length - 1 := by
      rw [AList.keys_erase, List.length_erase_of_mem hmem]
    have hpos := List.length_pos_of_mem hmem
    dsimp only
    split_ifs <;> omega
  · rw [if_neg hevicts]
    split_ifs with htracked
    · exact hsize
    · unfold evicts at hevicts
      rw [Option.not_isSome_iff_eq_none.mp htracked, Option.isNone_none, Bool.true_and, decide_eq_true_eq] at hevicts
      omega

end Book

end AccessBook

/-! ### The service's refusals -/

/-- The book, the records that were released, and what became of each. -/
structure Refusals where
  book : AccessBook := {}
  /-- How many refusals were received, and when the last was. -/
  received : ℕ := 0
  latest : Instant := 0
  /-- The keys of the records that were released, and when. -/
  released : List (AccessKey × Instant) := []
  /-- The keys that were evicted, and what was counted against each. -/
  evicted : List (AccessKey × ℕ) := []
  /-- Records whose append has not ended. -/
  appending : List AuditRecord := []
  written : List AuditRecord := []
  failed : List AuditRecord := []

inductive RefusalAction
  /-- `record_access_refusal`, up to its append. -/
  | refuse (refusal : AccessRefusal) (oldest : AccessKey) (now : Instant) (time : WallTime)
  /-- An append ends, with success or not. -/
  | append (index : ℕ) (ok : Bool)

namespace Refusals

/-- What is counted against a key. -/
def countOf (s : Refusals) (key : AccessKey) : ℕ := ((s.book.keys.lookup key).map (·.suppressed)).getD 0

/-- A refusal that is suppressed or released. -/
def refuse (run : WallTime) (s : Refusals) (refusal : AccessRefusal) (oldest : AccessKey) (now : Instant)
    (time : WallTime) : Refusals :=
  match s.book.admitRefusal refusal.key oldest now with
  | (book, none) => { s with book, received := s.received + 1, latest := now }
  | (book, some suppressed) =>
    { s with
      book, received := s.received + 1, latest := now
      released := s.released ++ [(refusal.key, now)]
      evicted := if s.book.evicts refusal.key then s.evicted ++ [(oldest, s.countOf oldest)] else s.evicted
      appending := s.appending ++ [refusal.record run time suppressed] }

def step (run : WallTime) (s : Refusals) : RefusalAction → Option Refusals
  | .refuse refusal oldest now time =>
    -- Which of the oldest keys is found is not said.
    if s.book.evicts refusal.key && !s.book.isOldest oldest then none
    else some (s.refuse run refusal oldest now time)
  | .append index ok => do
    let record ← s.appending[index]?
    let s := { s with appending := s.appending.eraseIdx index }
    return if ok then { s with written := s.written ++ [record] } else { s with failed := s.failed ++ [record] }

/-- The refusal comes no earlier than those before it. -/
def InOrder (s : Refusals) : RefusalAction → Prop
  | .refuse _ _ now _ => s.latest ≤ now
  | .append _ _ => True

instance (s : Refusals) : (a : RefusalAction) → Decidable (s.InOrder a)
  | .refuse _ _ now _ => inferInstanceAs (Decidable (s.latest ≤ now))
  | .append _ _ => inferInstanceAs (Decidable True)

/-- When the records of a key were released. -/
def releasesOf (s : Refusals) (key : AccessKey) : List Instant := (s.released.filter (·.1 == key)).map (·.2)

end Refusals

/-- Every run of a service that was started at `run`. -/
def refusals (run : WallTime) : Machine Refusals RefusalAction where
  init s := s = {}
  step := Refusals.step run

/-! ### The rate -/

/-- What is promised of the rate at which refusals are written. -/
structure AccessBounds (s : Refusals) : Prop where
  rate : AtMost accessRecordsPerWindow accessLogEvery (s.released.map (·.2))
  size : s.book.keys.keys.length ≤ accessKeys
  once : ∀ key, AtMost 1 accessLogEvery (s.releasesOf key)

/-- What the book remembers of the releases. -/
structure Remembers (s : Refusals) : Prop where
  all : Within accessRecordsPerWindow accessLogEvery s.latest (s.released.map (·.2)) s.book.written
  each : ∀ key, Within 1 accessLogEvery s.latest (s.releasesOf key) ((s.book.keys.lookup key).map (·.last)).toList
  made : ∀ key entry, s.book.keys.lookup key = some entry → (key, entry.last) ∈ s.released
  size : s.book.keys.keys.length ≤ accessKeys

section Rate
variable {s s' : Refusals} {key oldest : AccessKey} {entry : AccessEntry} {now : Instant} {run time : WallTime}
  {refusal : AccessRefusal} {a : RefusalAction}

/-- **The oldest of a full book is old**: the keys that are not are fewer than are released in a minute. -/
theorem Remembers.live_oldest (h : Remembers s) (hlater : s.latest ≤ now)
    (hroom : (s.book.prune now).written.length < accessRecordsPerWindow) (hfull : accessKeys ≤ s.book.keys.keys.length)
    (holdest : s.book.isOldest oldest = true) (hentry : s.book.keys.lookup oldest = some entry) :
    live accessLogEvery now entry.last = false := by
  by_contra hlive
  obtain ⟨found, hfound, hleast⟩ := AccessBook.isOldest_iff.mp holdest
  obtain rfl := Option.some.inj (hentry.symm.trans hfound)
  have hall : ∀ e ∈ s.book.keys.entries, live accessLogEvery now e.2.last = true := by
    intro e he
    have hle := hleast e.1 e.2 (AList.mem_lookup_iff.mpr he)
    have hyoung := live_iff.mp (Bool.not_eq_false _ ▸ hlive)
    exact live_iff.mpr (hyoung.trans_le (Nat.add_le_add_right hle _))
  -- the keys with their releases, all of them releases of the last minute
  have hnodup : (s.book.keys.entries.map fun e => (e.1, e.2.last)).Nodup := by
    refine List.Nodup.of_map Prod.fst ?_
    rw [List.map_map]
    exact s.book.keys.keys_nodup
  have hsubset : (s.book.keys.entries.map fun e => (e.1, e.2.last)) ⊆
      s.released.filter fun release => live accessLogEvery now release.2 := by
    intro release hrelease
    obtain ⟨e, he, rfl⟩ := List.mem_map.mp hrelease
    exact List.mem_filter.mpr ⟨h.made e.1 e.2 (AList.mem_lookup_iff.mpr he), hall e he⟩
  have hcount := (hnodup.subperm hsubset).length_le
  rw [List.length_map] at hcount
  have hkeys : s.book.keys.keys.length = s.book.keys.entries.length := List.length_map _
  have hreleased := (h.all.later hlater).filter.recalls.countP_le
  rw [← AccessBook.prune_written, List.countP_map, List.countP_eq_length_filter] at hreleased
  have hfew : accessRecordsPerWindow < accessKeys := by decide
  have hsame : (s.released.filter fun release => live accessLogEvery now release.2) =
      s.released.filter (live accessLogEvery now ∘ fun release => release.2) := rfl
  rw [hsame] at hcount
  omega

theorem refuse_suppressed (hsuppressed : (s.book.prune now).isRecent refusal.key now || (s.book.prune now).isFull) :
    s.refuse run refusal oldest now time =
      { s with book := (s.book.prune now).suppress refusal.key, received := s.received + 1, latest := now } := by
  unfold Refusals.refuse
  rw [AccessBook.admitRefusal_suppressed hsuppressed]

theorem refuse_released
    (hreleased : ((s.book.prune now).isRecent refusal.key now || (s.book.prune now).isFull) = false) :
    s.refuse run refusal oldest now time =
      { s with
        book := (((s.book.prune now).makeRoom refusal.key oldest).release refusal.key now).1
        received := s.received + 1
        latest := now
        released := s.released ++ [(refusal.key, now)]
        evicted := if s.book.evicts refusal.key then s.evicted ++ [(oldest, s.countOf oldest)] else s.evicted
        appending := s.appending ++ [refusal.record run time
          (((s.book.prune now).makeRoom refusal.key oldest).release refusal.key now).2] } := by
  unfold Refusals.refuse
  rw [AccessBook.admitRefusal_released hreleased]

theorem releasesOf_concat (released : List (AccessKey × Instant)) (key other : AccessKey) (now : Instant) :
    (((released ++ [(key, now)]).filter (·.1 == other)).map (·.2)) =
      ((released.filter (·.1 == other)).map (·.2)) ++ if key = other then [now] else [] := by
  rw [List.filter_append, List.map_append]
  by_cases heq : key = other <;> simp [heq]

/-- **One refusal.** -/
theorem Remembers.refuse (h : Remembers s) (hlater : s.latest ≤ now)
    (holdest : s.book.evicts refusal.key = true → s.book.isOldest oldest = true) (run time : WallTime) :
    Remembers (s.refuse run refusal oldest now time) := by
  have hall := (h.all.later hlater).filter
  rw [← AccessBook.prune_written] at hall
  cases hcase : (s.book.prune now).isRecent refusal.key now || (s.book.prune now).isFull with
  | true =>
    rw [refuse_suppressed hcase]
    refine ⟨?_, fun key => ?_, fun key entry hentry => ?_, ?_⟩
    · rw [← AccessBook.suppress_written] at hall
      exact hall
    · have heach := (h.each key).later hlater
      have hsame := AccessBook.map_last_suppress (s.book.prune now) refusal.key key
      dsimp only
      rw [hsame]
      exact heach
    · have hsame := AccessBook.map_last_suppress (s.book.prune now) refusal.key key
      rw [hentry] at hsame
      obtain ⟨before, hbefore, hlast⟩ := Option.map_eq_some_iff.mp hsame.symm
      have hmade := h.made key before hbefore
      rw [hlast] at hmade
      exact hmade
    · exact (AccessBook.length_keys_suppress (s.book.prune now) refusal.key).trans_le h.size
  | false =>
    obtain ⟨hrecent, hfull⟩ := Bool.or_eq_false_iff.mp hcase
    have hroom : (s.book.prune now).written.length < accessRecordsPerWindow :=
      not_le.mp (of_decide_eq_false hfull)
    have hold : s.book.evicts refusal.key = true → ∀ entry, s.book.keys.lookup oldest = some entry →
        live accessLogEvery now entry.last = false := by
      intro hevicts entry hentry
      have hfull : accessKeys ≤ s.book.keys.keys.length := of_decide_eq_true (Bool.and_eq_true_iff.mp hevicts).2
      exact h.live_oldest hlater hroom hfull (holdest hevicts) hentry
    rw [refuse_released hcase]
    refine ⟨?_, fun key => ?_, fun key entry hentry => ?_, ?_⟩
    · have hwritten : (((s.book.prune now).makeRoom refusal.key oldest).release refusal.key now).1.written =
          (s.book.prune now).written ++ [now] := congrArg (· ++ [now]) (AccessBook.makeRoom_written _ _ _)
      dsimp only
      rw [hwritten, List.map_append]
      exact hall.push hroom
    · unfold Refusals.releasesOf
      dsimp only
      rw [releasesOf_concat]
      have heach := (h.each key).later hlater
      by_cases heq : refusal.key = key
      · subst heq
        rw [if_pos rfl, AccessBook.lookup_release_self]
        refine (heach.clear fun t ht => ?_).push Nat.one_pos
        obtain ⟨entry, hentry, rfl⟩ := Option.map_eq_some_iff.mp (Option.mem_toList.mp ht)
        exact AccessBook.isRecent_eq_false hrecent hentry
      · rw [if_neg heq, List.append_nil, AccessBook.lookup_release_of_ne (Ne.symm heq)]
        split_ifs with hgone
        · refine heach.clear fun t ht => ?_
          obtain ⟨entry, hentry, rfl⟩ := Option.map_eq_some_iff.mp (Option.mem_toList.mp ht)
          exact hold hgone.1 entry (hgone.2 ▸ hentry)
        · exact heach
    · by_cases heq : key = refusal.key
      · subst heq
        rw [AccessBook.lookup_release_self] at hentry
        obtain rfl := Option.some.inj hentry
        exact List.mem_append_right _ List.mem_cons_self
      · rw [AccessBook.lookup_release_of_ne heq] at hentry
        split_ifs at hentry
        exact List.mem_append_left _ (h.made key entry hentry)
    · have hsize : (s.book.prune now).keys.keys.length ≤ accessKeys := h.size
      exact AccessBook.length_keys_release hsize holdest now

theorem refusals_step (h : (refusals run).step s a = some s') :
    (∃ refusal oldest now time, a = .refuse refusal oldest now time ∧
      (s.book.evicts refusal.key = true → s.book.isOldest oldest = true) ∧
        s' = s.refuse run refusal oldest now time) ∨
    ∃ index ok record, a = .append index ok ∧ s.appending[index]? = some record ∧
      s' = { s with
        appending := s.appending.eraseIdx index
        written := if ok then s.written ++ [record] else s.written
        failed := if ok then s.failed else s.failed ++ [record] } := by
  cases a with
  | refuse refusal oldest now time =>
    simp only [refusals, Refusals.step] at h
    split_ifs at h with hillegal
    refine .inl ⟨refusal, oldest, now, time, rfl, fun hevicts => ?_, (Option.some.inj h).symm⟩
    by_contra hnot
    exact hillegal (by rw [hevicts, Bool.eq_false_iff.mpr hnot]; rfl)
  | append index ok =>
    obtain ⟨record, hrecord, h⟩ := Option.bind_eq_some_iff.mp h
    refine .inr ⟨index, ok, record, rfl, hrecord, ?_⟩
    obtain rfl := Option.some.inj h
    cases ok <;> rfl

theorem remembers_of_reachable (h : (refusals run).ReachableBy Refusals.InOrder s) : Remembers s := by
  refine Machine.ReachableBy.invariant (I := Remembers) (fun s hinit => ?_) (fun s a s' _ horder hi hstep => ?_) h
  · obtain rfl : s = {} := hinit
    exact ⟨within_nil _ _ _, fun _ => within_nil _ _ _, fun _ _ hentry => (by cases hentry), Nat.zero_le _⟩
  · rcases refusals_step hstep with ⟨refusal, oldest, now, time, rfl, holdest, rfl⟩ | ⟨index, ok, record, rfl, -, rfl⟩
    · exact hi.refuse horder holdest run time
    · exact ⟨hi.all, hi.each, hi.made, hi.size⟩

/-- **The rate of refusal records.** In every run whose refusals come in the order of their times, the records of any
minute are no more than the rate, the book no larger than its limit, and no key is released twice in a minute, evicted or
not. -/
theorem accessBounds_of_reachable (run : WallTime) (s : Refusals)
    (h : (refusals run).ReachableBy Refusals.InOrder s) : AccessBounds s :=
  have hremembers := remembers_of_reachable h
  ⟨hremembers.all.atMost, hremembers.size, fun key => (hremembers.each key).atMost⟩

end Rate

/-! ### A refusal within a minute of another -/

def stranger (uid : ℕ) : AccessRefusal := ⟨.agent, .noCredential, none, some uid, none⟩

def refusedTwice : Refusals :=
  ((refusals 0).execBy Refusals.InOrder {}
    [.refuse (stranger 502) (stranger 502).key 0 0, .refuse (stranger 502) (stranger 502).key 59999 59999]).get
    (by decide)

theorem accessBounds_refusedTwice : AccessBounds refusedTwice :=
  accessBounds_of_reachable 0 refusedTwice (Machine.reachableBy_of_execBy ({} : Refusals) _ rfl (Option.some_get _).symm)

end DenonAvr.Application
