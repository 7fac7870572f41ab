import DenonAvr.Application.Operations

/-!
# The caps on agents

How many writes a label may make in a minute, and how many of its operations may be unfinished. A write that is
refused still takes what is older than the window out of the books.
-/

namespace DenonAvr.Application

open Domain

/-- A reading of the monotonic clock, in milliseconds. -/
abbrev Instant := ℕ

structure AgentLimits where
  writesPerMinute : ℕ := 30
  unfinishedOperations : ℕ := 8
deriving DecidableEq

/-- The writes of each label that are still in the window, oldest first. -/
abbrev Writes := AList (fun _ : AgentLabel => List Instant)

def sweepLabelsAbove : ℕ := 64
def writeWindow : ℕ := 60 * 1000

/-- Forget the labels that have not written for a window. -/
def sweepLabels (writes : Writes) (now : Instant) : Writes :=
  writes.keys.foldl (fun swept label =>
    let last := (writes.lookup label).bind List.getLast?
    if last.any fun at_ => decide (now - at_ < writeWindow) then swept else swept.erase label) writes

/-- Count a write by `label` against its allowance. -/
def chargeWrite (limits : AgentLimits) (writes : Writes) (label : AgentLabel) (now : Instant) :
    Writes × Except ControlError Unit :=
  let writes := if sweepLabelsAbove < writes.keys.length then sweepLabels writes now else writes
  let recent := ((writes.lookup label).getD []).dropWhile fun at_ => decide (writeWindow ≤ now - at_)
  if limits.writesPerMinute ≤ recent.length then
    (AList.insert label recent writes,
      .error (.rateLimited (some (recent.head?.elim writeWindow fun oldest => writeWindow - (now - oldest)))))
  else (AList.insert label (recent ++ [now]) writes, .ok ())

/-- How many operations of `owner` have not ended. -/
def unfinishedOf (operations : Operations) (owner : Principal) : ℕ :=
  operations.entries.entries.countP fun ⟨_, entry⟩ => entry.owner == owner && !entry.snapshot.status.isTerminal

/-- Admit a new write by `label`, or refuse it. -/
def admitWrite (limits : AgentLimits) (operations : Operations) (writes : Writes) (label : AgentLabel)
    (now : Instant) : Writes × Except ControlError Unit :=
  if limits.unfinishedOperations ≤ unfinishedOf operations (.agent label) then
    (writes, .error (.rateLimited none))
  else chargeWrite limits writes label now

/-- What a new operation of `owner` counts as. -/
def countNew (limits : AgentLimits) (operations : Operations) (writes : Writes) (owner : Principal)
    (now : Instant) : Writes × Except ControlError Unit :=
  match owner with
  | .operator => (writes, .ok ())
  | .agent label => admitWrite limits operations writes label now

/-- Record a new operation, or find the existing one a retry refers to. A retry is not counted against the caps. -/
def admitRequest (limits : AgentLimits) (retained : ℕ) (operations : Operations) (writes : Writes) (owner : Principal)
    (receiver : ReceiverId) (submission : OperationSubmission) (now : Instant) :
    Operations × Writes × Except ControlError Admission :=
  match operations.retried owner receiver submission with
  | .error error => (operations, writes, .error error)
  | .ok (some existing) => (operations, writes, .ok (.existing existing))
  | .ok none =>
    match countNew limits operations writes owner now with
    | (writes, .error error) => (operations, writes, .error error)
    | (writes, .ok ()) =>
      let (operations, snapshot) :=
        (operations.evictFinished retained).add owner receiver submission (Operations.firstStatus owner)
      (operations, writes, .ok (.new snapshot))

end DenonAvr.Application
