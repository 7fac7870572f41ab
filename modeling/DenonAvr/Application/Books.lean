import DenonAvr.Application.Control
import DenonAvr.Application.Ledger
import DenonAvr.Library.Machine
import DenonAvr.Policy.Baseline
import DenonAvr.Policy.Budget

/-!
# The books

The step in which a request is judged and its volume change reserved, under one lock, and the settlement when its
operation ends. `bookkeeping` is every interleaving of these: each change keeps its fate beside the ledger
(`Change`), so that what the ledger still counts can be said without it.

A judgement reads the changes of the window from the ledger. The window is computed by a subtraction that stops
at the epoch, so a change dated at the epoch itself falls out of a window that reaches back to it.
-/

namespace DenonAvr.Application

open Domain Library Policy

/-- Budgets as the service keeps them. -/
structure Books where
  ledger : Ledger := {}
  /-- Whether the ledger has been rebuilt from the audit log. -/
  ready : Bool := false
deriving DecidableEq

/-- A place reserved in the ledger for a write, to settle when it ends. -/
structure Settlement where
  receiver : ReceiverId
  key : Option OpKey
deriving DecidableEq

/-- What the atomic step found. -/
inductive Judged
  | refused (decision : Decision)
  /-- Allowed, but the receiver has no established state to bind the write to. -/
  | noEpoch (decision : Decision)
  | allowed (decision : Decision) (precondition : Precondition) (settlement : Settlement)
deriving DecidableEq

def Judged.isAllowed : Judged → Bool
  | .allowed _ _ _ => true
  | _ => false

namespace Books

/-- The input a request is judged by. -/
def inputIn (books : Books) (now : WallTime) (config : PolicyConfig) (agent : String) (receiver : ReceiverId)
    (intent : ReceiverIntent) (state : ReceiverState) : PolicyInput :=
  { agent, receiver, intent, state, recent := books.ledger.recent receiver now config.longestWindow, now }

def evaluateIn (books : Books) (now : WallTime) (config : PolicyConfig) (agent : String) (receiver : ReceiverId)
    (intent : ReceiverIntent) (state : ReceiverState) : Decision :=
  evaluate (books.inputIn now config agent receiver intent state) config

/-- The change a volume request makes. -/
def changeOf (now : WallTime) (intent : ReceiverIntent) (state : ReceiverState) : Option RecentChange :=
  (targetOf intent).map fun target => { time := now, before := observedVolume state, target }

/-- Count a volume change from now on, if `intent` is one. -/
def reserve (books : Books) (run : WallTime) (now : WallTime) (receiver : ReceiverId) (intent : ReceiverIntent)
    (state : ReceiverState) (id : OperationId) : Books × Settlement :=
  let ledger := books.ledger.prune now
  match changeOf now intent state with
  | some change =>
    ({ books with ledger := ledger.reserve receiver ⟨run, id⟩ change }, { receiver, key := some ⟨run, id⟩ })
  | none => ({ books with ledger }, { receiver, key := none })

/-- The atomic step: evaluate, bind an allow to the state it was judged on, and reserve the change. -/
def judge (books : Books) (run : WallTime) (now : WallTime) (config : PolicyConfig) (agent : String)
    (receiver : ReceiverId) (intent : ReceiverIntent) (state : ReceiverState) (id : OperationId) :
    Books × Judged :=
  let decision := books.evaluateIn now config agent receiver intent state
  match decision with
  | .allow baseline =>
    match Precondition.capture state (baselineFields baseline) with
    | none => (books, .noEpoch decision)
    | some precondition =>
      let (books, settlement) := books.reserve run now receiver intent state id
      (books, .allowed decision precondition settlement)
  | _ => (books, .refused decision)

/-- The operation ended. What may have been written stays counted. -/
def settle (books : Books) (settlement : Settlement) (dispatched : Bool) : Books :=
  match settlement.key with
  | some key => { books with ledger := books.ledger.settle settlement.receiver key dispatched }
  | none => books

end Books

section Judge
variable {books : Books} {run now : WallTime} {config : PolicyConfig} {agent : String} {receiver : ReceiverId}
  {intent : ReceiverIntent} {state : ReceiverState} {id : OperationId}

/-- A judgement reserves what it allows, and leaves the books as they are otherwise. -/
theorem judge_cases (books : Books) (run now : WallTime) (config : PolicyConfig) (agent : String)
    (receiver : ReceiverId) (intent : ReceiverIntent) (state : ReceiverState) (id : OperationId) :
    (∃ decision precondition, books.judge run now config agent receiver intent state id =
      ((books.reserve run now receiver intent state id).1,
        .allowed decision precondition (books.reserve run now receiver intent state id).2)) ∨
      ∃ judged, books.judge run now config agent receiver intent state id = (books, judged) ∧ judged.isAllowed = false := by
  unfold Books.judge
  cases books.evaluateIn now config agent receiver intent state with
  | allow baseline =>
    dsimp only
    cases Precondition.capture state (baselineFields baseline) with
    | none => exact .inr ⟨_, rfl, rfl⟩
    | some precondition => exact .inl ⟨_, precondition, rfl⟩
  | requireApproval reasons rules baseline => exact .inr ⟨_, rfl, rfl⟩
  | deny reasons rules => exact .inr ⟨_, rfl, rfl⟩

/-- What a judgement comes to. -/
theorem judge_allowed_iff {decision : Decision} {precondition : Precondition} {settlement : Settlement} :
    (books.judge run now config agent receiver intent state id).2 = .allowed decision precondition settlement ↔
      ∃ baseline, decision = .allow baseline ∧
        evaluate (books.inputIn now config agent receiver intent state) config = .allow baseline ∧
        Precondition.capture state (baselineFields baseline) = some precondition ∧
        settlement = (books.reserve run now receiver intent state id).2 := by
  unfold Books.judge Books.evaluateIn
  cases hdecision : evaluate (books.inputIn now config agent receiver intent state) config with
  | allow baseline =>
    dsimp only
    cases hcapture : Precondition.capture state (baselineFields baseline) with
    | none => simp [hcapture]
    | some captured => simp [hcapture, eq_comm, and_comm]
  | requireApproval reasons rules baseline => simp
  | deny reasons rules => simp

end Judge

/-! ### Every interleaving -/

/-- What has become of a change. -/
inductive Fate
  | unsettled
  | dispatched
  | released
  /-- Older than the retention when another change was reserved. -/
  | aged
deriving DecidableEq

structure Change where
  entry : LedgerEntry
  fate : Fate
deriving DecidableEq

/-- Reserved and unsettled, or settled as possibly dispatched. -/
def Change.counted (change : Change) : Bool := change.fate == .unsettled || change.fate == .dispatched

def Change.settle (change : Change) (receiver : ReceiverId) (key : OpKey) (dispatched : Bool) : Change :=
  if change.entry.receiver = receiver ∧ change.entry.key = key ∧ change.fate = .unsettled then
    { change with fate := if dispatched then .dispatched else .released }
  else change

def Change.prune (change : Change) (now : WallTime) : Change :=
  if change.counted = true ∧ change.entry.change.time < now.saturatingSub retention then
    { change with fate := .aged }
  else change

/-- The books of one run, with what was reserved in them. -/
structure BookRun where
  books : Books
  /-- The operations that have been judged. -/
  used : List OperationId
  /-- The places not settled yet. -/
  unsettled : List Settlement
  changes : List Change
deriving DecidableEq

inductive BookAction
  | judge (now : WallTime) (config : PolicyConfig) (agent : String) (receiver : ReceiverId)
      (intent : ReceiverIntent) (state : ReceiverState) (id : OperationId)
  /-- A write of the Operator, which is counted and never limited. -/
  | operatorWrite (now : WallTime) (receiver : ReceiverId) (intent : ReceiverIntent) (state : ReceiverState)
      (id : OperationId)
  | settle (settlement : Settlement) (dispatched : Bool)
deriving DecidableEq

namespace BookRun

/-- The books after a request of `id` was given `settlement`, and what was reserved with it. -/
def note (s : BookRun) (run : WallTime) (now : WallTime) (receiver : ReceiverId) (intent : ReceiverIntent)
    (state : ReceiverState) (id : OperationId) (books : Books) (settlement : Settlement) : BookRun :=
  let made := (Books.changeOf now intent state).toList.map fun change =>
    { entry := ⟨receiver, ⟨run, id⟩, change⟩, fate := .unsettled : Change }
  { books
    used := id :: s.used
    unsettled := settlement :: s.unsettled
    changes := s.changes.map (·.prune now) ++ made }

def step (run : WallTime) (s : BookRun) : BookAction → Option BookRun
  | .judge now config agent receiver intent state id =>
    if id ∈ s.used then none
    else
      match s.books.judge run now config agent receiver intent state id with
      | (books, .allowed _ _ settlement) => some (s.note run now receiver intent state id books settlement)
      | (books, _) => some { s with books, used := id :: s.used }
  | .operatorWrite now receiver intent state id =>
    if id ∈ s.used then none
    else
      let (books, settlement) := s.books.reserve run now receiver intent state id
      some (s.note run now receiver intent state id books settlement)
  | .settle settlement dispatched =>
    if settlement ∈ s.unsettled then
      some { s with
        books := s.books.settle settlement dispatched
        unsettled := s.unsettled.erase settlement
        changes := match settlement.key with
          | some key => s.changes.map (·.settle settlement.receiver key dispatched)
          | none => s.changes }
    else none

end BookRun

/-- The books from the time the ledger is rebuilt: it may hold anything, of which the places of this run's
operations may still be unsettled. -/
def bookkeeping (run : WallTime) : Machine BookRun BookAction where
  init s := (∀ receiver key, s.unsettled.count ⟨receiver, some key⟩ ≤ 1) ∧
    s.changes = s.books.ledger.entries.map (fun entry =>
      ⟨entry, if ⟨entry.receiver, some entry.key⟩ ∈ s.unsettled then .unsettled else .dispatched⟩) ∧
    (∀ entry ∈ s.books.ledger.entries, entry.key.run = run → entry.key.operation ∈ s.used) ∧
    ∀ settlement ∈ s.unsettled, ∀ key, settlement.key = some key → key.run = run ∧ key.operation ∈ s.used
  step := BookRun.step run

/-! ### What the ledger holds -/

/-- The ledger is what is still counted, in order. -/
structure Balanced (run : WallTime) (s : BookRun) : Prop where
  entries : s.books.ledger.entries = (s.changes.filter (·.counted)).map (·.entry)
  /-- A key of this run names an operation that has been judged. -/
  judged : ∀ change ∈ s.changes, change.entry.key.run = run → change.entry.key.operation ∈ s.used
  own : ∀ settlement ∈ s.unsettled, ∀ key, settlement.key = some key → key.run = run ∧ key.operation ∈ s.used
  single : ∀ receiver key, s.unsettled.count ⟨receiver, some key⟩ ≤ 1
  /-- What is to be settled yet has not been settled as dispatched. -/
  unsettled : ∀ change ∈ s.changes, ⟨change.entry.receiver, some change.entry.key⟩ ∈ s.unsettled →
    change.fate ≠ .dispatched

section Balanced
variable {run : WallTime} {s s' : BookRun}

@[simp] theorem settle_entry (change : Change) (receiver : ReceiverId) (key : OpKey) (dispatched : Bool) :
    (change.settle receiver key dispatched).entry = change.entry := by
  unfold Change.settle
  split_ifs <;> rfl

@[simp] theorem prune_entry (change : Change) (now : WallTime) : (change.prune now).entry = change.entry := by
  unfold Change.prune
  split_ifs <;> rfl

/-- A change of fates that keeps counting what passes `q`, and nothing else, filters the ledger by `q`. -/
theorem counted_map {changes : List Change} {f : Change → Change} {q : LedgerEntry → Bool}
    (hentry : ∀ change, (f change).entry = change.entry)
    (hcounted : ∀ change ∈ changes, (f change).counted = (change.counted && q change.entry)) :
    ((changes.map f).filter (·.counted)).map (·.entry) = ((changes.filter (·.counted)).map (·.entry)).filter q := by
  rw [List.filter_map, List.map_map, List.filter_map, List.filter_filter]
  have hfilter : changes.filter ((fun change => change.counted) ∘ f) =
      changes.filter fun change => (q ∘ fun change => change.entry) change && change.counted :=
    List.filter_congr fun change hmem => (hcounted change hmem).trans (Bool.and_comm _ _)
  rw [hfilter]
  exact List.map_congr_left fun change _ => hentry change

theorem counted_prune (change : Change) (now : WallTime) :
    (change.prune now).counted =
      (change.counted && decide (now.saturatingSub retention ≤ change.entry.change.time)) := by
  unfold Change.prune
  by_cases hcounted : change.counted = true
  · by_cases hold : change.entry.change.time < now.saturatingSub retention
    · rw [if_pos ⟨hcounted, hold⟩, decide_eq_false (not_le.mpr hold), Bool.and_false]
      rfl
    · rw [if_neg fun h => hold h.2, decide_eq_true (not_lt.mp hold), Bool.and_true]
  · rw [if_neg fun h => hcounted h.1]
    simp [hcounted]

theorem counted_settle {change : Change} {receiver : ReceiverId} {key : OpKey}
    (hfate : change.entry.receiver = receiver → change.entry.key = key → change.fate ≠ .dispatched) :
    (change.settle receiver key false).counted =
      (change.counted && !(change.entry.receiver == receiver && change.entry.key == key)) := by
  unfold Change.settle
  by_cases hmine : change.entry.receiver = receiver ∧ change.entry.key = key
  · obtain ⟨hreceiver, hkey⟩ := hmine
    have hne := hfate hreceiver hkey
    cases hcase : change.fate <;> simp_all [Change.counted]
  · rw [if_neg fun h => hmine ⟨h.1, h.2.1⟩]
    have hother : (change.entry.receiver == receiver && change.entry.key == key) = false := by
      simpa [Bool.and_eq_false_iff, not_and_or] using hmine
    rw [hother, Bool.not_false, Bool.and_true]

/-- A settlement as dispatched keeps everything counted that was. -/
theorem counted_settle_true (change : Change) (receiver : ReceiverId) (key : OpKey) :
    (change.settle receiver key true).counted = change.counted := by
  unfold Change.settle
  by_cases hmine : change.entry.receiver = receiver ∧ change.entry.key = key ∧ change.fate = .unsettled
  · rw [if_pos hmine]
    simp [Change.counted, hmine.2.2]
  · rw [if_neg hmine]

/-- The settlement of one place leaves the fates under every other key alone. -/
theorem settle_fate_of_ne {change : Change} {receiver : ReceiverId} {key : OpKey} {dispatched : Bool}
    (hne : ¬ (change.entry.receiver = receiver ∧ change.entry.key = key)) :
    change.settle receiver key dispatched = change :=
  if_neg fun h => hne ⟨h.1, h.2.1⟩

theorem Balanced.note (h : Balanced run s) (now : WallTime) (receiver : ReceiverId) (intent : ReceiverIntent)
    (state : ReceiverState) {id : OperationId} (hid : id ∉ s.used) :
    Balanced run (s.note run now receiver intent state id (s.books.reserve run now receiver intent state id).1
      (s.books.reserve run now receiver intent state id).2) := by
  have hpruned : ((s.changes.map (·.prune now)).filter (·.counted)).map (·.entry) =
      (s.books.ledger.prune now).entries := by
    rw [Ledger.prune_entries, h.entries]
    exact counted_map (fun change => prune_entry change now) fun change _ => counted_prune change now
  have hfresh : ∀ key, (⟨receiver, some key⟩ : Settlement) ∈ s.unsettled → key ≠ ⟨run, id⟩ := by
    rintro key hmem rfl
    exact hid (h.own _ hmem _ rfl).2
  have hchanges : ∀ change ∈ s.changes.map (·.prune now), change.entry.key.run = run →
      change.entry.key.operation ∈ s.used := by
    intro change hmem
    obtain ⟨old, hold, rfl⟩ := List.mem_map.mp hmem
    rw [prune_entry]
    exact h.judged old hold
  have hfates : ∀ change ∈ s.changes.map (·.prune now),
      ⟨change.entry.receiver, some change.entry.key⟩ ∈ s.unsettled → change.fate ≠ .dispatched := by
    intro change hmem hopen
    obtain ⟨old, hold, rfl⟩ := List.mem_map.mp hmem
    rw [prune_entry] at hopen
    have hne := h.unsettled old hold hopen
    unfold Change.prune
    split_ifs
    · simp
    · exact hne
  unfold BookRun.note Books.reserve
  cases hchange : Books.changeOf now intent state with
  | none =>
    refine ⟨?_, fun change hmem hrun => ?_, fun settlement hmem key hkey => ?_, fun other key => ?_,
      fun change hmem hopen => ?_⟩
    · simp [hpruned]
    · simp only [Option.toList_none, List.map_nil, List.append_nil] at hmem
      exact List.mem_cons_of_mem _ (hchanges change hmem hrun)
    · rcases List.mem_cons.mp hmem with rfl | hmem
      · cases hkey
      · exact ⟨(h.own settlement hmem key hkey).1, List.mem_cons_of_mem _ (h.own settlement hmem key hkey).2⟩
    · simpa using h.single other key
    · simp only [Option.toList_none, List.map_nil, List.append_nil] at hmem
      refine hfates change hmem ?_
      simpa using hopen
  | some made =>
    refine ⟨?_, fun change hmem hrun => ?_, fun settlement hmem key hkey => ?_, fun other key => ?_,
      fun change hmem hopen => ?_⟩
    · simp only [Option.toList_some, List.map_cons, List.map_nil, List.filter_append, List.map_append, hpruned]
      rfl
    · rcases List.mem_append.mp hmem with hmem | hmem
      · exact List.mem_cons_of_mem _ (hchanges change hmem hrun)
      · obtain rfl := List.mem_singleton.mp hmem
        exact List.mem_cons_self
    · rcases List.mem_cons.mp hmem with rfl | hmem
      · cases hkey
        exact ⟨rfl, List.mem_cons_self⟩
      · exact ⟨(h.own settlement hmem key hkey).1, List.mem_cons_of_mem _ (h.own settlement hmem key hkey).2⟩
    · simp only [List.count_cons]
      by_cases heq : (⟨receiver, some ⟨run, id⟩⟩ : Settlement) = ⟨other, some key⟩
      · cases heq
        rw [List.count_eq_zero.mpr fun hmem => hfresh _ hmem rfl]
        simp
      · simpa [heq] using h.single other key
    · rcases List.mem_append.mp hmem with hmem | hmem
      · rcases List.mem_cons.mp hopen with heq | hopen
        · obtain ⟨-, hkey⟩ := Settlement.mk.inj heq
          have hused := hchanges change hmem (by rw [Option.some.inj hkey])
          rw [Option.some.inj hkey] at hused
          exact absurd hused hid
        · exact hfates change hmem hopen
      · obtain rfl := List.mem_singleton.mp hmem
        simp

theorem Balanced.settle (h : Balanced run s) {settlement : Settlement} (hopen : settlement ∈ s.unsettled)
    (dispatched : Bool) :
    Balanced run { s with
      books := s.books.settle settlement dispatched
      unsettled := s.unsettled.erase settlement
      changes := match settlement.key with
        | some key => s.changes.map (·.settle settlement.receiver key dispatched)
        | none => s.changes } := by
  obtain ⟨receiver, key⟩ := settlement
  have hsubset : ∀ other ∈ s.unsettled.erase ⟨receiver, key⟩, other ∈ s.unsettled := fun other hmem =>
    List.mem_of_mem_erase hmem
  have hsingle : ∀ other otherKey, (s.unsettled.erase ⟨receiver, key⟩).count ⟨other, some otherKey⟩ ≤ 1 :=
    fun other otherKey => (List.Sublist.count_le _ List.erase_sublist).trans (h.single other otherKey)
  cases key with
  | none => exact ⟨h.entries, h.judged, fun other hmem => h.own other (hsubset other hmem), hsingle,
      fun change hmem hother => h.unsettled change hmem (hsubset _ hother)⟩
  | some key =>
    refine ⟨?_, fun change hmem hrun => ?_, fun other hmem => h.own other (hsubset other hmem), hsingle,
      fun change hmem hother => ?_⟩
    · show (s.books.ledger.settle receiver key dispatched).entries = _
      cases dispatched with
      | true =>
        rw [counted_map (q := fun _ => true) (fun change => settle_entry change receiver key true)
          fun change _ => by rw [counted_settle_true, Bool.and_true]]
        rw [List.filter_true, ← h.entries, Ledger.settle_true]
      | false =>
        rw [Ledger.settle_false_entries, h.entries]
        refine (counted_map (fun change => settle_entry change receiver key false) fun change hmem => ?_).symm
        exact counted_settle fun hreceiver hkey =>
          h.unsettled change hmem (by rw [hreceiver, hkey]; exact hopen)
    · obtain ⟨old, hold, rfl⟩ := List.mem_map.mp hmem
      rw [settle_entry] at hrun ⊢
      exact h.judged old hold hrun
    · obtain ⟨old, hold, rfl⟩ := List.mem_map.mp hmem
      rw [settle_entry] at hother
      by_cases hmine : old.entry.receiver = receiver ∧ old.entry.key = key
      · -- The settled place was the only one under its key.
        rw [hmine.1, hmine.2] at hother
        have hpos := List.count_pos_iff.mpr hother
        rw [List.count_erase_self] at hpos
        have hle := h.single receiver key
        omega
      · rw [settle_fate_of_ne hmine]
        exact h.unsettled old hold (hsubset _ hother)

theorem Balanced.step (h : Balanced run s) {a : BookAction} (hstep : s.step run a = some s') :
    Balanced run s' := by
  cases a with
  | judge now config agent receiver intent state id =>
    simp only [BookRun.step] at hstep
    split_ifs at hstep with hid
    rcases judge_cases s.books run now config agent receiver intent state id with
      ⟨decision, precondition, hjudge⟩ | ⟨judged, hjudge, hnot⟩
    · rw [hjudge] at hstep
      cases hstep
      exact h.note now receiver intent state hid
    · rw [hjudge] at hstep
      obtain rfl : { s with used := id :: s.used } = s' := by
        cases judged with
        | allowed => cases hnot
        | refused | noEpoch => exact Option.some.inj hstep
      exact ⟨h.entries, fun change hmem hrun => List.mem_cons_of_mem _ (h.judged change hmem hrun),
        fun settlement hmem key hkey => ⟨(h.own settlement hmem key hkey).1,
          List.mem_cons_of_mem _ (h.own settlement hmem key hkey).2⟩, h.single, h.unsettled⟩
  | operatorWrite now receiver intent state id =>
    simp only [BookRun.step] at hstep
    split_ifs at hstep with hid
    cases hstep
    exact h.note now receiver intent state hid
  | settle settlement dispatched =>
    simp only [BookRun.step] at hstep
    split_ifs at hstep with hopen
    cases hstep
    exact h.settle hopen dispatched

/-- **What the ledger holds.** In every run it is the list of the changes that are reserved and unsettled, or
settled as possibly dispatched. -/
theorem balanced_of_reachable (h : (bookkeeping run).Reachable s) : Balanced run s := by
  refine Machine.Reachable.invariant (I := Balanced run) (fun s hinit => ?_)
    (fun s a s' _ hi hstep => hi.step hstep) h
  obtain ⟨hsingle, hchanges, hused, hopen⟩ := hinit
  have hcounted : ∀ change ∈ s.changes, change.counted = true := by
    intro change hmem
    rw [hchanges] at hmem
    obtain ⟨entry, -, rfl⟩ := List.mem_map.mp hmem
    unfold Change.counted
    split_ifs <;> rfl
  refine ⟨?_, fun change hmem hrun => ?_, hopen, hsingle, fun change hmem hunsettled => ?_⟩
  · rw [List.filter_eq_self.mpr hcounted, hchanges, List.map_map]
    exact (List.map_id _).symm
  · rw [hchanges] at hmem
    obtain ⟨entry, hentry, rfl⟩ := List.mem_map.mp hmem
    exact hused entry hentry hrun
  · rw [hchanges] at hmem
    obtain ⟨entry, hentry, rfl⟩ := List.mem_map.mp hmem
    simp [hunsettled]

end Balanced

/-! ### The budget over whole runs -/

/-- `judge` allows the request, or would allow it without approval if the receiver's state were established. -/
def Books.Allows (books : Books) (run now : WallTime) (config : PolicyConfig) (agent : String) (receiver : ReceiverId)
    (intent : ReceiverIntent) (state : ReceiverState) (id : OperationId) : Prop :=
  (books.judge run now config agent receiver intent state id).2.isAllowed = true ∨
    (books.evaluateIn now config agent receiver intent state).effect = .allow

/-- A request that is or would be allowed, under a policy in which a rule with nothing but a budget applies to it, is
no rise, or a rise of at most the budget above the observed level and above every level of each change of the
receiver that is still counted and no older than the window. -/
def WithinBudget (run : WallTime) (s : BookRun) (now : WallTime) (config : PolicyConfig) (agent : String)
    (receiver : ReceiverId) (intent : ReceiverIntent) (state : ReceiverState) (id : OperationId) : Prop :=
  s.books.Allows run now config agent receiver intent state id →
    ∀ rule ∈ config.rules, ∀ budget, BudgetOnly rule budget →
      applies (s.books.inputIn now config agent receiver intent state) rule = true →
        ∀ target, targetOf intent = some target →
          ∃ observed, observedVolume state = some observed ∧ (observed < target →
            target.above observed ≤ budget.rise.val ∧ ∀ change ∈ s.changes, change.counted = true →
              change.entry.receiver = receiver → WithinWindow now budget.window change.entry.change.time →
                ∀ level ∈ change.entry.change.levels, target.above level ≤ budget.rise.val)

/-- Two requests for one receiver, of which `judge` allowed the first some time before and the ledger still has it: if
the second is or would be allowed within the window and is a rise, it stays within the budget above the level at which
the first began, and above what the first asked for. -/
def TogetherWithinBudget (run : WallTime) (s : BookRun) (now : WallTime) (config : PolicyConfig) (agent : String)
    (receiver : ReceiverId) (intent : ReceiverIntent) (state : ReceiverState) (id : OperationId) : Prop :=
  ∀ start now₁ config₁ agent₁ intent₁ state₁ id₁ acts target₁, (bookkeeping run).Reachable start →
    (start.books.judge run now₁ config₁ agent₁ receiver intent₁ state₁ id₁).2.isAllowed = true →
    (bookkeeping run).exec start (.judge now₁ config₁ agent₁ receiver intent₁ state₁ id₁ :: acts) = some s →
    targetOf intent₁ = some target₁ → (∃ entry ∈ s.books.ledger.entries, entry.key = ⟨run, id₁⟩) →
    s.books.Allows run now config agent receiver intent state id →
      ∀ rule ∈ config.rules, ∀ budget, BudgetOnly rule budget →
        applies (s.books.inputIn now config agent receiver intent state) rule = true →
          WithinWindow now budget.window now₁ →
            ∀ target observed, targetOf intent = some target → observedVolume state = some observed → observed < target →
              target.above target₁ ≤ budget.rise.val ∧
                ∀ before, observedVolume state₁ = some before → target.above before ≤ budget.rise.val

section Budget
variable {run now : WallTime} {s s' : BookRun} {config : PolicyConfig} {agent : String} {receiver : ReceiverId}
  {intent : ReceiverIntent} {state : ReceiverState} {id : OperationId} {entry : LedgerEntry}

theorem Books.Allows.allow {books : Books} (h : books.Allows run now config agent receiver intent state id) :
    ∃ baseline, evaluate (books.inputIn now config agent receiver intent state) config = .allow baseline := by
  rcases h with hjudged | heffect
  · cases hcase : (books.judge run now config agent receiver intent state id).2 with
    | allowed decision precondition settlement =>
      obtain ⟨baseline, -, hallow, -⟩ := judge_allowed_iff.mp hcase
      exact ⟨baseline, hallow⟩
    | refused | noEpoch =>
      rw [hcase] at hjudged
      cases hjudged
  · unfold Books.evaluateIn at heffect
    cases hdecision : evaluate (books.inputIn now config agent receiver intent state) config with
    | allow baseline => exact ⟨baseline, rfl⟩
    | requireApproval | deny =>
      rw [hdecision] at heffect
      cases heffect

/-- The only change under the entry's key is the entry's. -/
structure Noted (run : WallTime) (entry : LedgerEntry) (s : BookRun) : Prop where
  run : entry.key.run = run
  used : entry.key.operation ∈ s.used
  only : ∀ change ∈ s.changes, change.entry.key = entry.key → change.entry = entry

/-- Another request's note changes nothing of it. -/
theorem Noted.note (h : Noted run entry s) (now : WallTime) (receiver : ReceiverId) (intent : ReceiverIntent)
    (state : ReceiverState) {id : OperationId} (hid : id ∉ s.used) (books : Books) (settlement : Settlement) :
    Noted run entry (s.note run now receiver intent state id books settlement) := by
  refine ⟨h.run, List.mem_cons_of_mem _ h.used, fun change hmem hkey => ?_⟩
  rcases List.mem_append.mp hmem with hpruned | hmade
  · obtain ⟨old, hold, rfl⟩ := List.mem_map.mp hpruned
    rw [prune_entry] at hkey ⊢
    exact h.only old hold hkey
  · obtain ⟨made, -, rfl⟩ := List.mem_map.mp hmade
    have hused := h.used
    rw [← hkey] at hused
    exact absurd hused hid

theorem Noted.step (h : Noted run entry s) {a : BookAction} (hstep : s.step run a = some s') : Noted run entry s' := by
  cases a with
  | judge now config agent receiver intent state id =>
    simp only [BookRun.step] at hstep
    split_ifs at hstep with hid
    split at hstep <;> obtain rfl := Option.some.inj hstep
    · exact h.note now receiver intent state hid _ _
    · exact ⟨h.run, List.mem_cons_of_mem _ h.used, h.only⟩
  | operatorWrite now receiver intent state id =>
    simp only [BookRun.step] at hstep
    split_ifs at hstep with hid
    obtain rfl := Option.some.inj hstep
    exact h.note now receiver intent state hid _ _
  | settle settlement dispatched =>
    simp only [BookRun.step] at hstep
    split_ifs at hstep
    obtain rfl := Option.some.inj hstep
    refine ⟨h.run, h.used, fun change hmem hkey => ?_⟩
    cases hsettled : settlement.key with
    | none =>
      rw [hsettled] at hmem
      exact h.only change hmem hkey
    | some key =>
      rw [hsettled] at hmem
      obtain ⟨old, hold, rfl⟩ := List.mem_map.mp hmem
      rw [settle_entry] at hkey ⊢
      exact h.only old hold hkey

/-- A request that is allowed leaves one change under its key. -/
theorem Noted.judged (h : Balanced run s) {target : Level} (htarget : targetOf intent = some target)
    (hallowed : (s.books.judge run now config agent receiver intent state id).2.isAllowed = true)
    (hstep : s.step run (.judge now config agent receiver intent state id) = some s') :
    Noted run ⟨receiver, ⟨run, id⟩, ⟨now, observedVolume state, target⟩⟩ s' := by
  simp only [BookRun.step] at hstep
  split_ifs at hstep with hid
  rcases judge_cases s.books run now config agent receiver intent state id with
    ⟨decision, precondition, hjudge⟩ | ⟨judged, hjudge, hnot⟩
  · rw [hjudge] at hstep
    obtain rfl := Option.some.inj hstep
    refine ⟨rfl, List.mem_cons_self, fun change hmem hkey => ?_⟩
    rcases List.mem_append.mp hmem with hpruned | hmade
    · obtain ⟨old, hold, rfl⟩ := List.mem_map.mp hpruned
      rw [prune_entry] at hkey
      have hused := h.judged old hold (by rw [hkey])
      rw [hkey] at hused
      exact absurd hused hid
    · obtain ⟨made, hchange, rfl⟩ := List.mem_map.mp hmade
      unfold Books.changeOf at hchange
      rw [htarget] at hchange
      obtain rfl : made = ⟨now, observedVolume state, target⟩ := List.mem_singleton.mp hchange
      rfl
  · rw [hjudge] at hallowed
    exact absurd hallowed (by rw [hnot]; decide)

theorem Noted.exec (h : Noted run entry s) {acts : List BookAction} (hexec : (bookkeeping run).exec s acts = some s') :
    Noted run entry s' :=
  Machine.exec_induction (bookkeeping run) (P := fun _ reached => Noted run entry reached) h
    (fun _ _ _ _ _ hnoted hstep => hnoted.step hstep) hexec

/-- What is within the budget of every counted change is within the budget of the first of two requests. -/
theorem WithinBudget.together (h : (bookkeeping run).Reachable s)
    (hwithin : WithinBudget run s now config agent receiver intent state id) :
    TogetherWithinBudget run s now config agent receiver intent state id := by
  intro start now₁ config₁ agent₁ intent₁ state₁ id₁ acts target₁ hstart hfirst hexec htarget₁ hentry hallows rule hrule
    budget hbudget happlies hwindow target observed htarget hobserved hrise
  obtain ⟨next, hstep, hexec⟩ := Option.bind_eq_some_iff.mp hexec
  have hnoted := (Noted.judged (balanced_of_reachable hstart) htarget₁ hfirst hstep).exec hexec
  obtain ⟨entry, hmem, hkey⟩ := hentry
  rw [(balanced_of_reachable h).entries] at hmem
  obtain ⟨change, hchange, rfl⟩ := List.mem_map.mp hmem
  obtain ⟨hchange, hcounted⟩ := List.mem_filter.mp hchange
  have hsame := hnoted.only change hchange hkey
  obtain ⟨observed', hobserved', hbound⟩ := hwithin hallows rule hrule budget hbudget happlies target htarget
  obtain rfl := Option.some.inj (hobserved.symm.trans hobserved')
  have hlevels := (hbound hrise).2 change hchange hcounted (by rw [hsame]) (by rw [hsame]; exact hwindow)
  rw [hsame] at hlevels
  refine ⟨hlevels target₁ (List.mem_append_right _ List.mem_cons_self), fun before hbefore => ?_⟩
  refine hlevels before (List.mem_append_left _ ?_)
  rw [hbefore]
  exact List.mem_singleton_self before

end Budget

/-- **The budget holds over whole runs.** After any judgements and settlements, what is or would be allowed is within
the budget of every change still counted, unless one is dated at the epoch and the window reaches back to it. So two
requests cannot together rise more than the budget. -/
theorem withinBudget_of_dated (run : WallTime) (s : BookRun) (h : (bookkeeping run).Reachable s) (now : WallTime)
    (config : PolicyConfig) (agent : String) (receiver : ReceiverId) (intent : ReceiverIntent)
    (state : ReceiverState) (id : OperationId)
    (hdated : ∀ change ∈ s.changes, change.counted = true → change.entry.receiver = receiver →
      0 < change.entry.change.time ∨ ∀ rule ∈ config.rules, ∀ budget, BudgetOnly rule budget →
        applies (s.books.inputIn now config agent receiver intent state) rule = true → budget.window ≤ now) :
    WithinBudget run s now config agent receiver intent state id ∧
      TogetherWithinBudget run s now config agent receiver intent state id := by
  suffices hwithin : WithinBudget run s now config agent receiver intent state id from ⟨hwithin, hwithin.together h⟩
  intro hallows rule hrule budget hbudget happlies target htarget
  obtain ⟨baseline, hallow⟩ := hallows.allow
  obtain ⟨observed, hobserved, hwithin⟩ := within_budget_of_allow hallow hrule happlies hbudget htarget
  have hlevel : ∀ {level : Level}, observed < target → floorInWindow observed
      (s.books.inputIn now config agent receiver intent state).recent now budget.window ≤ level →
        target.above level ≤ budget.rise.val := by
    intro level hrise hfloor
    have hfloor' := Level.le_iff.mp hfloor
    have hbound := hwithin hrise
    unfold Level.above at hbound ⊢
    change target.halfSteps - (floorInWindow observed
      (s.books.inputIn now config agent receiver intent state).recent now budget.window).halfSteps ≤ _ at hbound
    omega
  refine ⟨observed, hobserved, fun hrise => ⟨hlevel hrise (floorInWindow_le_observed _ _ _ _), ?_⟩⟩
  intro change hchange hcounted hreceiver hwindow level hmem
  have hdate : 0 < change.entry.change.time ∨ budget.window ≤ now :=
    (hdated change hchange hcounted hreceiver).imp_right fun hwide => hwide rule hrule budget hbudget happlies
  refine hlevel hrise (floorInWindow_le_of_mem observed ?_ ?_ hmem)
  · -- The change is in the ledger, and the longest window takes it in with this one.
    have hentry : change.entry ∈ s.books.ledger.entries := by
      rw [(balanced_of_reachable h).entries]
      exact List.mem_map.mpr ⟨change, List.mem_filter.mpr ⟨hchange, hcounted⟩, rfl⟩
    refine Ledger.mem_recent.mpr ⟨⟨change.entry.key, ?_⟩, ?_⟩
    · rw [← hreceiver]
      exact hentry
    · have hlongest := config.window_le_longestWindow hrule (by rw [hbudget.2])
      exact since_lt_mono hlongest le_rfl (since_lt_iff.mpr ⟨hwindow, hdate.symm⟩)
  · exact since_lt_iff.mpr ⟨hwindow, hdate.symm⟩

/-! ### Two rises -/

/-- The receiver of the runs shown here. -/
def den : ReceiverId := ⟨"den", rfl⟩

/-- A connected receiver that shows a volume. -/
def showing (steps : VolumeStep) : ReceiverState :=
  { quietReceiver den with
    mainZone.volume :=
      { lastGood := some ⟨den, 1, 0, 0, .receiverFrame, .dbHalfSteps steps⟩, validity := .current 10000 } }

def emptyBooks : BookRun := { books := { ready := true }, used := [], unsettled := [], changes := [] }

/-- A rise from -40 dB by `steps` half decibels, which the receiver is then told. -/
def oneRise (now : WallTime) (target : VolumeStep) : List BookAction :=
  [.judge now budgetedPolicy "kitchen" den (.volume (.dbHalfSteps target)) (showing minus40) 1,
    .settle ⟨den, some ⟨0, 1⟩⟩ true]

theorem emptyBooks_init : (bookkeeping 0).init emptyBooks :=
  ⟨fun _ _ => by simp [emptyBooks], rfl, by simp [emptyBooks], by simp [emptyBooks]⟩

def afterRise (now : WallTime) (target : VolumeStep) : Option BookRun :=
  (bookkeeping 0).exec emptyBooks (oneRise now target)

/-- With the clock at the epoch the first rise of 3 dB is not seen by the second one, to 6 dB above the start. -/
theorem not_withinBudget_atEpoch : ∃ run s now config agent receiver intent state id,
    (bookkeeping run).Reachable s ∧ ¬ WithinBudget run s now config agent receiver intent state id := by
  obtain ⟨s, hexec, hjudged, hchanges⟩ : ∃ s, afterRise 0 ⟨-74, by decide⟩ = some s ∧
      (s.books.judge 0 0 budgetedPolicy "kitchen" den (.volume (.dbHalfSteps ⟨-68, by decide⟩))
        (showing ⟨-74, by decide⟩) 2).2.isAllowed = true ∧
      s.changes = [⟨⟨den, ⟨0, 1⟩, ⟨0, some ⟨-80, by decide⟩, ⟨-74, by decide⟩⟩⟩, .dispatched⟩] := by
    decide
  refine ⟨0, s, 0, budgetedPolicy, "kitchen", den, .volume (.dbHalfSteps ⟨-68, by decide⟩),
    showing ⟨-74, by decide⟩, 2, Machine.reachable_of_exec _ _ emptyBooks_init hexec, fun hwithin => ?_⟩
  obtain ⟨observed, hobserved, hrise⟩ := hwithin (.inl hjudged) (budgetedRules[1]) (by decide) ⟨⟨6, by decide⟩, 10⟩
    (by decide) rfl ⟨-68, by decide⟩ rfl
  obtain rfl : (⟨-74, by decide⟩ : Level) = observed := Option.some.inj hobserved
  have hover := (hrise (by decide)).2 _ (by rw [hchanges]; exact List.mem_singleton_self _) rfl rfl (by decide)
    ⟨-80, by decide⟩ (by decide)
  exact absurd hover (by decide)

def secondRiseStart : BookRun := (afterRise 3600000 minus38).get (by decide)

theorem secondRiseStart_dated : ∀ change ∈ secondRiseStart.changes, 0 < change.entry.change.time := by decide

/-- A second rise an hour into the day, to the whole budget above the start. -/
theorem withinBudget_secondRise :
    WithinBudget 0 secondRiseStart 3660000 budgetedPolicy "kitchen" den (.volume (.dbHalfSteps ⟨-74, by decide⟩))
        (showing ⟨-76, by decide⟩) 2 ∧
      TogetherWithinBudget 0 secondRiseStart 3660000 budgetedPolicy "kitchen" den
        (.volume (.dbHalfSteps ⟨-74, by decide⟩)) (showing ⟨-76, by decide⟩) 2 :=
  withinBudget_of_dated 0 secondRiseStart (Machine.reachable_of_exec emptyBooks (oneRise 3600000 ⟨-76, by decide⟩)
    emptyBooks_init (Option.some_get _).symm) 3660000 budgetedPolicy "kitchen" den _ _ 2
    fun change hmem _ _ => .inl (secondRiseStart_dated change hmem)

end DenonAvr.Application
