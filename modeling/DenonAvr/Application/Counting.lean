import DenonAvr.Application.Books

/-!
# What the ledger leaves out

A judgement reads the changes of the longest window from a ledger that is pruned now and then. What it reads is
less than what is owed: every change that was ever reserved and not settled as undispatched since (`owed`). The
three cut-offs nest. A prune drops what is older than the retention, no window is longer than that, and no budget
of a policy has a longer window than the policy's longest one; so a decision is the same on everything that is owed
(`evaluateIn_eq_owed`), also under a policy loaded after the prunes.
-/

namespace DenonAvr.Application

open Domain Policy

/-- One change to the ledger. -/
inductive LedgerEvent
  | reserve (receiver : ReceiverId) (key : OpKey) (change : RecentChange)
  | settle (receiver : ReceiverId) (key : OpKey) (dispatched : Bool)
  | prune (now : WallTime)
deriving DecidableEq

namespace Ledger

def apply (ledger : Ledger) : LedgerEvent → Ledger
  | .reserve receiver key change => ledger.reserve receiver key change
  | .settle receiver key dispatched => ledger.settle receiver key dispatched
  | .prune now => ledger.prune now

/-- The ledger after a history of changes. -/
def after (ledger : Ledger) (history : List LedgerEvent) : Ledger := history.foldl apply ledger

end Ledger

/-- Some step settles the entry's operation as undispatched. -/
def Released (history : List LedgerEvent) (entry : LedgerEntry) : Prop :=
  .settle entry.receiver entry.key false ∈ history

instance (history : List LedgerEvent) (entry : LedgerEntry) : Decidable (Released history entry) :=
  inferInstanceAs (Decidable (_ ∈ _))

/-- The entries ever reserved and not settled as undispatched since. -/
def owed : List LedgerEvent → List LedgerEntry
  | [] => []
  | .reserve receiver key change :: history =>
    if Released history ⟨receiver, key, change⟩ then owed history else ⟨receiver, key, change⟩ :: owed history
  | _ :: history => owed history

/-- The changes to `receiver` that are owed. -/
def owedTo (receiver : ReceiverId) (history : List LedgerEvent) : List RecentChange :=
  ((owed history).filter (·.receiver == receiver)).map (·.change)

theorem mem_owedTo {receiver : ReceiverId} {history : List LedgerEvent} {change : RecentChange} :
    change ∈ owedTo receiver history ↔ ∃ key, ⟨receiver, key, change⟩ ∈ owed history := by
  simp only [owedTo, List.mem_map, List.mem_filter, beq_iff_eq]
  constructor
  · rintro ⟨entry, ⟨hmem, rfl⟩, rfl⟩
    exact ⟨entry.key, hmem⟩
  · rintro ⟨key, hmem⟩
    exact ⟨_, ⟨hmem, rfl⟩, rfl⟩

section After
variable {ledger : Ledger} {history : List LedgerEvent} {entry : LedgerEntry} {now : WallTime}

/-- What a history leaves in the ledger was there and is not released, or is owed. -/
theorem of_mem_after (h : entry ∈ (ledger.after history).entries) :
    (entry ∈ ledger.entries ∧ ¬ Released history entry) ∨ entry ∈ owed history := by
  induction history generalizing ledger with
  | nil => exact .inl ⟨h, List.not_mem_nil⟩
  | cons step history ih =>
    rcases ih h with ⟨hmem, hkept⟩ | howed
    · cases step with
      | reserve receiver key change =>
        rcases Ledger.mem_reserve.mp hmem with hmem | rfl
        · exact .inl ⟨hmem, fun hreleased => hkept (by simpa [Released] using hreleased)⟩
        · right
          rw [owed, if_neg hkept]
          exact List.mem_cons_self
      | settle receiver key dispatched =>
        refine .inl ⟨Ledger.mem_of_mem_settle hmem, fun hreleased => ?_⟩
        rcases List.mem_cons.mp hreleased with heq | hlater
        · cases heq
          exact (Ledger.mem_settle_false.mp hmem).2 ⟨rfl, rfl⟩
        · exact hkept hlater
      | prune time =>
        exact .inl ⟨(Ledger.mem_prune.mp hmem).1, fun hreleased => hkept (by simpa [Released] using hreleased)⟩
    · right
      cases step with
      | reserve receiver key change =>
        rw [owed]
        split_ifs
        · exact howed
        · exact List.mem_cons_of_mem _ howed
      | settle receiver key dispatched => exact howed
      | prune time => exact howed

/-- Only a prune takes something unreleased out of the ledger. -/
theorem mem_after_of_mem (hprunes : ∀ time, .prune time ∈ history → time ≤ now) (hmem : entry ∈ ledger.entries)
    (hkept : ¬ Released history entry) (hretained : now.saturatingSub retention ≤ entry.change.time) :
    entry ∈ (ledger.after history).entries := by
  induction history generalizing ledger with
  | nil => exact hmem
  | cons step history ih =>
    have hlater : ¬ Released history entry := fun h => hkept (List.mem_cons_of_mem _ h)
    refine ih (fun time htime => hprunes time (List.mem_cons_of_mem _ htime)) ?_ hlater
    cases step with
    | reserve receiver key change => exact Ledger.mem_reserve.mpr (.inl hmem)
    | settle receiver key dispatched =>
      cases dispatched with
      | true => exact hmem
      | false =>
        refine Ledger.mem_settle_false.mpr ⟨hmem, fun hmine => hkept ?_⟩
        obtain ⟨rfl, rfl⟩ := hmine
        exact List.mem_cons_self
    | prune time =>
      have htime := hprunes time List.mem_cons_self
      exact Ledger.mem_prune.mpr ⟨hmem, (tsub_le_tsub_right htime retention).trans hretained⟩

/-- What is owed and no older than the retention is in the ledger. -/
theorem mem_after_of_owed (hprunes : ∀ time, .prune time ∈ history → time ≤ now) (howed : entry ∈ owed history)
    (hretained : now.saturatingSub retention ≤ entry.change.time) : entry ∈ (ledger.after history).entries := by
  induction history generalizing ledger with
  | nil => cases howed
  | cons step history ih =>
    have hlater : ∀ time, .prune time ∈ history → time ≤ now :=
      fun time htime => hprunes time (List.mem_cons_of_mem _ htime)
    cases step with
    | reserve receiver key change =>
      rw [owed] at howed
      split_ifs at howed with hreleased
      · exact ih hlater howed
      · rcases List.mem_cons.mp howed with rfl | howed
        · have hmem : ⟨receiver, key, change⟩ ∈ (ledger.reserve receiver key change).entries :=
            Ledger.mem_reserve.mpr (.inr rfl)
          show _ ∈ ((ledger.reserve receiver key change).after history).entries
          exact mem_after_of_mem hlater hmem hreleased hretained
        · exact ih hlater howed
    | settle receiver key dispatched => exact ih hlater howed
    | prune time => exact ih hlater howed

/-- In a window no longer than the longest one, the ledger's prefiltered changes show the levels of all that is
owed. -/
theorem mem_levelsInWindow_recent {receiver : ReceiverId} {window longestWindow : ℕ} {level : Level}
    (hprunes : ∀ time, .prune time ∈ history → time ≤ now) (hwindow : window ≤ longestWindow)
    (hlongest : longestWindow ≤ retention) :
    level ∈ levelsInWindow ((Ledger.after {} history).recent receiver now longestWindow) now window ↔
      level ∈ levelsInWindow (owedTo receiver history) now window := by
  have hsince : now.saturatingSub longestWindow ≤ now.saturatingSub window := tsub_le_tsub_left hwindow now
  have hretention : now.saturatingSub retention ≤ now.saturatingSub longestWindow := tsub_le_tsub_left hlongest now
  simp only [mem_levelsInWindow]
  constructor
  · rintro ⟨change, hmem, htime, hlevel⟩
    obtain ⟨⟨key, hentry⟩, -⟩ := Ledger.mem_recent.mp hmem
    rcases of_mem_after hentry with ⟨hempty, -⟩ | howed
    · exact absurd hempty List.not_mem_nil
    · exact ⟨change, mem_owedTo.mpr ⟨key, howed⟩, htime, hlevel⟩
  · rintro ⟨change, hmem, htime, hlevel⟩
    obtain ⟨key, howed⟩ := mem_owedTo.mp hmem
    have hinside : now.saturatingSub longestWindow < change.time := hsince.trans_lt htime
    have hentry : _ ∈ (Ledger.after {} history).entries :=
      mem_after_of_owed hprunes howed (hretention.trans hinside.le)
    exact ⟨change, Ledger.mem_recent.mpr ⟨⟨key, hentry⟩, hinside⟩, htime, hlevel⟩

end After

/-- **Pruning and prefiltering lose nothing.** Under every policy, a request is decided on the ledger's changes of
the longest window as on everything that is owed, when nothing was pruned as of a later time. -/
theorem evaluateIn_eq_owed (config : PolicyConfig) (history : List LedgerEvent) (ready : Bool) (now : WallTime)
    (agent : String) (receiver : ReceiverId) (intent : ReceiverIntent) (state : ReceiverState)
    (hprunes : ∀ time, .prune time ∈ history → time ≤ now) :
    Books.evaluateIn ⟨Ledger.after {} history, ready⟩ now config agent receiver intent state =
      evaluate { agent, receiver, intent, state, recent := owedTo receiver history, now } config := by
  let input : PolicyInput := { agent, receiver, intent, state, recent := owedTo receiver history, now }
  have hlevels : ∀ rule ∈ config.rules, ∀ budget, rule.filter.conditions.budget = some budget → ∀ level,
      level ∈ levelsInWindow ((Ledger.after {} history).recent receiver now config.longestWindow) now budget.window ↔
        level ∈ levelsInWindow input.recent now budget.window :=
    fun rule hrule budget hbudget level =>
      mem_levelsInWindow_recent hprunes (config.window_le_longestWindow hrule hbudget) config.longestWindow_le
  exact @evaluate_congr_of_levels input config _ hlevels

/-- Two rises, of which one was released, and a prune between them. -/
def prunedHistory (receiver : ReceiverId) : List LedgerEvent :=
  [.reserve receiver ⟨7, 1⟩ ⟨900000, some (.of (.dbHalfSteps minus40)), .of (.dbHalfSteps minus38)⟩,
    .reserve receiver ⟨7, 2⟩ ⟨950000, none, .of (.dbHalfSteps minus38)⟩, .prune 960000,
    .settle receiver ⟨7, 1⟩ true, .settle receiver ⟨7, 2⟩ false]

theorem evaluateIn_eq_owed_prunedHistory :
    Books.evaluateIn ⟨Ledger.after {} (prunedHistory ⟨"avr", by decide⟩), true⟩ 1000000 budgetedPolicy "kitchen"
        ⟨"avr", by decide⟩ (.volume (.dbHalfSteps minus38)) (quietReceiver ⟨"avr", by decide⟩) =
      evaluate
        { agent := "kitchen", receiver := ⟨"avr", by decide⟩, intent := .volume (.dbHalfSteps minus38)
          state := quietReceiver ⟨"avr", by decide⟩
          recent := owedTo ⟨"avr", by decide⟩ (prunedHistory ⟨"avr", by decide⟩), now := 1000000 }
        budgetedPolicy :=
  evaluateIn_eq_owed _ _ _ _ _ _ _ _ (by simp [prunedHistory])

end DenonAvr.Application
