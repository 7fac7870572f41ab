import DenonAvr.Application.Control
import DenonAvr.Library.Machine

/-!
# The connection pool

One slot for each receiver, the leases that keep its session open, connecting on demand, and releasing a session when it
is idle, when its saved entry changes, or at the end.

The pool is a machine of tasks: calls that take a lease, leases and the operations that hold one, idle timers, calls of
`save_configuration` and of `shutdown`. A task takes one step from one await to the next, and whoever waits for a call
may stop waiting at any of them. A slot's lock is held by the tasks whose `lock` says so.
-/

namespace DenonAvr.Application.Connections

open Domain Library

inductive ConnectionStatus
  | released | connecting | connected
deriving DecidableEq

/-- An open session, and the address it connected to. -/
structure Held where
  session : ℕ
  host : String
deriving DecidableEq

/-- One receiver's connection. -/
structure Slot where
  locked : Bool := false
  held : Option Held := none
  /-- Leases alive. -/
  leases : ℕ := 0
  /-- How many of them belong to an operation. -/
  operations : ℕ := 0
  /-- Bumped whenever a lease is taken or dropped. -/
  activity : ℕ := 0
  status : ConnectionStatus := .released
deriving DecidableEq

/-- The addresses of the saved receivers. -/
abbrev Hosts := List (ReceiverId × String)

/-- Where dropping a lease has come to. -/
inductive DropStep
  | operations | activity | leases | timer
deriving DecidableEq

/-- What a task that closes a session goes on with. -/
inductive Agenda
  | call (operation : Bool)
  | idle
  | save (saved : Hosts) (rest : List ReceiverId)
  | shutdown (rest : List ReceiverId)
deriving DecidableEq

inductive Task
  /-- `run_operation`, before its lease. -/
  | submitted (receiver : ReceiverId)
  /-- `lease_as`: the receiver has no slot yet. -/
  | resolving (receiver : ReceiverId) (operation : Bool)
  /-- For the slot's lock. -/
  | waiting (receiver : ReceiverId) (operation : Bool)
  /-- `connect`: which address? -/
  | identifying (receiver : ReceiverId) (operation : Bool)
  | connecting (receiver : ReceiverId) (operation : Bool) (host : String)
  | synchronizing (receiver : ReceiverId) (operation : Bool) (host : String) (session : ℕ)
  | closing (receiver : ReceiverId) (session : ℕ) (agenda : Agenda)
  /-- The lease is held. -/
  | leased (receiver : ReceiverId) (operation : Bool) (session : ℕ)
  /-- The session's `operate`, under an operation's lease. -/
  | operating (receiver : ReceiverId) (session : ℕ)
  | dropping (receiver : ReceiverId) (operation : Bool) (step : DropStep)
  /-- An operation's task, after its lease. -/
  | finishing
  /-- An idle timer. -/
  | sleeping (receiver : ReceiverId) (armedAt : ℕ)
  /-- `save_configuration`: the file is written, then it was written. -/
  | saving (saved : Hosts)
  | stored (saved : Hosts)
  /-- The call was given up while it wrote the file, and the file system goes on with it. -/
  | installing (saved : Hosts)
  /-- `retire_changed`: these slots are to come. -/
  | retiring (saved : Hosts) (todo : List ReceiverId)
  /-- The session is to be closed once no operation is in flight. -/
  | draining (saved : Hosts) (receiver : ReceiverId) (rest : List ReceiverId)
  /-- `shutdown`: operations are in flight. -/
  | shutting
  | visiting (todo : List ReceiverId)
  | ended
deriving DecidableEq

/-- A session the connector returned. -/
structure Session where
  receiver : ReceiverId
  host : String
  closed : Bool
deriving DecidableEq

structure Pool where
  closed : Bool := false
  /-- The receivers that have a slot. -/
  known : List ReceiverId := []
  slots : ReceiverId → Slot := fun _ => {}
  stored : Hosts
  adHoc : Hosts := []
  tasks : List Task := []
  /-- Every session the connector returned so far. -/
  sessions : List Session := []
  /-- Operations whose task has not ended. -/
  inFlight : ℕ := 0
  /-- How many submissions were admitted, and how many calls of `operate` were made. -/
  admitted : ℕ := 0
  operates : ℕ := 0
  /-- A call of `shutdown` has returned. -/
  left : Bool := false

/-- The session the task has taken from the connector or out of its slot. -/
def Task.hand : Task → Option (ReceiverId × ℕ)
  | synchronizing r _ _ session => some (r, session)
  | closing r session _ => some (r, session)
  | _ => none

/-- The session is neither in its slot nor in a task's hands. -/
def Pool.lost (s : Pool) (k : ℕ) (session : Session) : Bool :=
  ((s.slots session.receiver).held.all fun held => held.session != k) &&
    s.tasks.all fun task => task.hand != some (session.receiver, k)

/-- The receiver's current address. -/
def Pool.address (s : Pool) (receiver : ReceiverId) : Option String :=
  if receiver.isAdHoc then s.adHoc.lookup receiver else s.stored.lookup receiver

/-! ### One step of a task -/

/-- How the await that a task is at ends. -/
inductive Choice
  | ok
  /-- With an error. Dropping a lease fails to arm a timer outside the runtime. -/
  | failed
  /-- The map of slots hands them out in this order. -/
  | order (todo : List ReceiverId)
  /-- Whoever waited for the call stopped waiting. -/
  | abandon
deriving DecidableEq

inductive PoolEvent
  | none
  | opened (host : String)
  | closed (session : ℕ)
  | operated
deriving DecidableEq

/-- What one step of a task at a slot leaves of both. -/
structure Outcome where
  slot : Slot
  task : Task
  event : PoolEvent := .none
  /-- A timer is armed, at this activity. -/
  timer : Option ℕ := none
deriving DecidableEq

/-- The slot a task is at. -/
def Task.place : Task → Option ReceiverId
  | waiting r _ => some r
  | identifying r _ => some r
  | connecting r _ _ => some r
  | synchronizing r _ _ _ => some r
  | closing r _ _ => some r
  | leased r _ _ => some r
  | operating r _ => some r
  | dropping r _ _ => some r
  | sleeping r _ => some r
  | retiring _ (r :: _) => some r
  | draining _ r _ => some r
  | visiting (r :: _) => some r
  | _ => none

/-- After a call of `lease_as` that failed, or a lease that was dropped. -/
def callOver (operation : Bool) : Task := if operation then .finishing else .ended

def Agenda.next : Agenda → Task
  | call operation => callOver operation
  | idle => .ended
  | save saved rest => .retiring saved rest
  | shutdown rest => .visiting rest

/-- A lease is counted. -/
def Slot.lease (slot : Slot) (operation : Bool) : Slot :=
  { slot with
    leases := slot.leases + 1,
    operations := if operation then slot.operations + 1 else slot.operations,
    activity := slot.activity + 1 }

/-- A connection attempt is over, or a session was closed. -/
def Slot.release (slot : Slot) : Slot := { slot with locked := false, status := .released }

/-- The slot when a call is given up, if somebody waits for it: the tasks of operations and of timers are the
service's own. -/
def abandoned (slot : Slot) : Task → Option Slot
  | .waiting _ false => some slot
  | .identifying _ false => some slot.release
  | .connecting _ false _ => some slot.release
  | .synchronizing _ false _ _ => some slot.release
  | .closing _ _ (.call false) => some slot.release
  | .closing _ _ (.save _ _) => some { slot with locked := false }
  | .closing _ _ (.shutdown _) => some { slot with locked := false }
  | .draining _ _ _ => some { slot with locked := false }
  | .retiring _ _ => some slot
  | .visiting _ => some slot
  | _ => none

/-- The next step of a task that nobody gave up, at its slot. -/
def stepAt (closed : Bool) (address : Option String) (fresh : ℕ) (choice : Choice) (slot : Slot) : Task → Option Outcome
  | .waiting r operation =>
    if slot.locked then none
    else if closed then some { slot, task := callOver operation }
    else
      match slot.held with
      | some held => some { slot := slot.lease operation, task := .leased r operation held.session }
      | none => some { slot := { slot with locked := true, status := .connecting }, task := .identifying r operation }
  | .identifying r operation =>
    match choice, address with
    | .ok, some host => some { slot, task := .connecting r operation host }
    | _, _ => some { slot := slot.release, task := callOver operation }
  | .connecting r operation host =>
    if choice = .ok then some { slot, task := .synchronizing r operation host fresh, event := .opened host }
    else some { slot := slot.release, task := callOver operation }
  | .synchronizing r operation host session =>
    if choice = .ok then
      some
        { slot := Slot.lease { slot with held := some ⟨session, host⟩, locked := false, status := .connected } operation,
          task := .leased r operation session }
    else some { slot, task := .closing r session (.call operation) }
  | .closing _ session agenda => some { slot := slot.release, task := agenda.next, event := .closed session }
  | .leased r true session =>
    if choice = .ok then some { slot, task := .operating r session, event := .operated }
    else some { slot, task := .dropping r true .operations }
  | .leased r false _ => some { slot, task := .dropping r false .operations }
  | .operating r _ => some { slot, task := .dropping r true .operations }
  | .dropping r operation .operations =>
    some
      { slot := { slot with operations := if operation then slot.operations - 1 else slot.operations },
        task := .dropping r operation .activity }
  | .dropping r operation .activity =>
    some { slot := { slot with activity := slot.activity + 1 }, task := .dropping r operation .leases }
  | .dropping r operation .leases =>
    some
      { slot := { slot with leases := slot.leases - 1 },
        task := if slot.leases = 1 then .dropping r operation .timer else callOver operation }
  | .dropping _ operation .timer =>
    some { slot, task := callOver operation, timer := if choice = .ok then some slot.activity else none }
  | .sleeping r armedAt =>
    if slot.locked then none
    else if slot.leases ≠ 0 ∨ slot.activity ≠ armedAt then some { slot, task := .ended }
    else
      match slot.held with
      | some held => some { slot := { slot with held := none, locked := true }, task := .closing r held.session .idle }
      | none => some { slot, task := .ended }
  | .retiring saved (r :: rest) =>
    if r.isAdHoc then some { slot, task := .retiring saved rest }
    else if slot.locked then none
    else if slot.held.all fun held => saved.lookup r == some held.host then some { slot, task := .retiring saved rest }
    else some { slot := { slot with locked := true }, task := .draining saved r rest }
  | .draining saved r rest =>
    if slot.operations ≠ 0 then none
    else
      match slot.held with
      | some held => some { slot := { slot with held := none }, task := .closing r held.session (.save saved rest) }
      | none => some { slot := { slot with locked := false }, task := .retiring saved rest }
  | .visiting (r :: rest) =>
    if slot.locked then none
    else
      match slot.held with
      | some held =>
        some { slot := { slot with held := none, locked := true }, task := .closing r held.session (.shutdown rest) }
      | none => some { slot, task := .visiting rest }
  | _ => none

def atSlot (closed : Bool) (address : Option String) (fresh : ℕ) (choice : Choice) (slot : Slot) (task : Task) :
    Option Outcome :=
  if choice = .abandon then (abandoned slot task).map fun slot => { slot, task := .ended }
  else stepAt closed address fresh choice slot task

/-- Only receivers that exist get a slot. -/
def Pool.ensureSlot (s : Pool) (receiver : ReceiverId) : Pool :=
  { s with known := if receiver ∈ s.known then s.known else s.known ++ [receiver] }

/-- The next step of a task that is not at a slot: what it does to the rest of the pool, and the task. -/
def elsewhere (s : Pool) (choice : Choice) : Task → Option (Pool × Task)
  | .submitted r =>
    if choice = .abandon then none
    else if choice ≠ .ok ∨ s.closed then some (s, .finishing)
    else some (s, if r ∈ s.known then .waiting r true else .resolving r true)
  | .resolving r operation =>
    if choice = .abandon then if operation then none else some (s, .ended)
    else if choice = .ok ∧ (s.address r).isSome then some (s.ensureSlot r, .waiting r operation)
    else some (s, callOver operation)
  | .finishing => if choice = .abandon then none else some ({ s with inFlight := s.inFlight - 1 }, .ended)
  | .saving saved =>
    if choice = .ok then some ({ s with stored := saved }, .stored saved)
    else some (s, if choice = .abandon then .installing saved else .ended)
  | .installing saved => some (if choice = .ok then { s with stored := saved } else s, .ended)
  | .stored saved =>
    match choice with
    | .order todo => if todo.Perm s.known then some (s, .retiring saved todo) else none
    | .abandon => some (s, .ended)
    | _ => none
  | .retiring _ [] => some (s, .ended)
  | .shutting =>
    match choice with
    | .order todo => if s.inFlight = 0 ∧ todo.Perm s.known then some (s, .visiting todo) else none
    | .abandon => some (s, .ended)
    | _ => none
  | .visiting [] => if choice = .abandon then some (s, .ended) else some ({ s with left := true }, .ended)
  | _ => none

/-! ### The machine -/

def endSession (k : ℕ) (sessions : List Session) : List Session :=
  sessions.modify k fun session => { session with closed := true }

def PoolEvent.sessions (event : PoolEvent) (receiver : ReceiverId) (sessions : List Session) : List Session :=
  match event with
  | opened host => sessions ++ [⟨receiver, host, false⟩]
  | closed session => endSession session sessions
  | _ => sessions

def Pool.apply (s : Pool) (i : ℕ) (receiver : ReceiverId) (out : Outcome) : Pool :=
  { s with
    slots := Function.update s.slots receiver out.slot,
    tasks := s.tasks.set i out.task ++ (out.timer.map (.sleeping receiver)).toList,
    sessions := out.event.sessions receiver s.sessions,
    operates := if out.event = .operated then s.operates + 1 else s.operates }

inductive PoolAction
  /-- A call that takes a lease. -/
  | call (receiver : ReceiverId)
  /-- A submission that is admitted as a new operation. -/
  | submit (receiver : ReceiverId)
  | save (saved : Hosts)
  | shutdown
  | registerAdHoc (receiver : ReceiverId) (host : String)
  /-- One step of a task. -/
  | advance (i : ℕ) (choice : Choice)
  /-- A session that was dropped ends by itself, when its actor sees that. -/
  | expire (k : ℕ)

def Pool.spawn (s : Pool) (task : Task) : Pool := { s with tasks := s.tasks ++ [task] }

def Pool.advance (s : Pool) (i : ℕ) (choice : Choice) : Option Pool :=
  s.tasks[i]?.bind fun task =>
    match task.place with
    | some r =>
      (atSlot s.closed (s.address r) s.sessions.length choice (s.slots r) task).map fun out => s.apply i r out
    | none => (elsewhere s choice task).map fun result => { result.1 with tasks := result.1.tasks.set i result.2 }

def Pool.expire (s : Pool) (k : ℕ) : Option Pool :=
  s.sessions[k]?.bind fun session =>
    if s.lost k session then some { s with sessions := endSession k s.sessions } else none

def pool : Machine Pool PoolAction where
  init := fun s => ∃ stored, s = { stored := stored }
  step := fun s action =>
    match action with
    | .call r =>
      if s.closed then none else some (s.spawn (if r ∈ s.known then .waiting r false else .resolving r false))
    | .submit r =>
      if s.closed then none
      else some (Pool.spawn { s with inFlight := s.inFlight + 1, admitted := s.admitted + 1 } (.submitted r))
    | .save saved => some (s.spawn (.saving saved))
    | .shutdown => some (Pool.spawn { s with closed := true } .shutting)
    | .registerAdHoc r host => if r.isAdHoc then some { s with adHoc := (r, host) :: s.adHoc } else none
    | .advance i choice => s.advance i choice
    | .expire k => s.expire k

/-! ### What a step at a slot can do -/

/-- The steps of `atSlot`, one by one. -/
inductive SlotStep (closed : Bool) (address : Option String) (fresh : ℕ) (slot : Slot) : Choice → Task → Outcome → Prop
  | abandonWaiting (r) : SlotStep closed address fresh slot .abandon (.waiting r false) { slot, task := .ended }
  | abandonIdentifying (r) :
      SlotStep closed address fresh slot .abandon (.identifying r false) { slot := slot.release, task := .ended }
  | abandonConnecting (r host) :
      SlotStep closed address fresh slot .abandon (.connecting r false host) { slot := slot.release, task := .ended }
  | abandonSynchronizing (r host session) :
      SlotStep closed address fresh slot .abandon (.synchronizing r false host session)
        { slot := slot.release, task := .ended }
  | abandonClosingCall (r session) :
      SlotStep closed address fresh slot .abandon (.closing r session (.call false))
        { slot := slot.release, task := .ended }
  | abandonClosingSave (r session saved rest) :
      SlotStep closed address fresh slot .abandon (.closing r session (.save saved rest))
        { slot := { slot with locked := false }, task := .ended }
  | abandonClosingShutdown (r session rest) :
      SlotStep closed address fresh slot .abandon (.closing r session (.shutdown rest))
        { slot := { slot with locked := false }, task := .ended }
  | abandonDraining (saved r rest) :
      SlotStep closed address fresh slot .abandon (.draining saved r rest)
        { slot := { slot with locked := false }, task := .ended }
  | abandonRetiring (saved r rest) :
      SlotStep closed address fresh slot .abandon (.retiring saved (r :: rest)) { slot, task := .ended }
  | abandonVisiting (r rest) :
      SlotStep closed address fresh slot .abandon (.visiting (r :: rest)) { slot, task := .ended }
  | refuse (choice r operation) (hfree : slot.locked = false) (hclosed : closed = true) :
      SlotStep closed address fresh slot choice (.waiting r operation) { slot, task := callOver operation }
  | take (choice r operation held) (hfree : slot.locked = false) (hopen : closed = false)
      (hheld : slot.held = some held) :
      SlotStep closed address fresh slot choice (.waiting r operation)
        { slot := slot.lease operation, task := .leased r operation held.session }
  | connect (choice r operation) (hfree : slot.locked = false) (hopen : closed = false) (hheld : slot.held = none) :
      SlotStep closed address fresh slot choice (.waiting r operation)
        { slot := { slot with locked := true, status := .connecting }, task := .identifying r operation }
  | identify (r operation host) (haddress : address = some host) :
      SlotStep closed address fresh slot .ok (.identifying r operation)
        { slot, task := .connecting r operation host }
  | identifyFails (choice r operation) :
      SlotStep closed address fresh slot choice (.identifying r operation)
        { slot := slot.release, task := callOver operation }
  | connected (r operation host) :
      SlotStep closed address fresh slot .ok (.connecting r operation host)
        { slot, task := .synchronizing r operation host fresh, event := .opened host }
  | connectFails (choice r operation host) :
      SlotStep closed address fresh slot choice (.connecting r operation host)
        { slot := slot.release, task := callOver operation }
  | synchronized (r operation host session) :
      SlotStep closed address fresh slot .ok (.synchronizing r operation host session)
        { slot := Slot.lease { slot with held := some ⟨session, host⟩, locked := false, status := .connected } operation,
          task := .leased r operation session }
  | synchronizeFails (choice r operation host session) :
      SlotStep closed address fresh slot choice (.synchronizing r operation host session)
        { slot, task := .closing r session (.call operation) }
  | close (choice r session agenda) :
      SlotStep closed address fresh slot choice (.closing r session agenda)
        { slot := slot.release, task := agenda.next, event := .closed session }
  | operate (r session) :
      SlotStep closed address fresh slot .ok (.leased r true session)
        { slot, task := .operating r session, event := .operated }
  | stop (choice r session) :
      SlotStep closed address fresh slot choice (.leased r true session) { slot, task := .dropping r true .operations }
  | drop (choice r session) :
      SlotStep closed address fresh slot choice (.leased r false session) { slot, task := .dropping r false .operations }
  | operated (choice r session) :
      SlotStep closed address fresh slot choice (.operating r session) { slot, task := .dropping r true .operations }
  | dropOperation (choice r operation) :
      SlotStep closed address fresh slot choice (.dropping r operation .operations)
        { slot := { slot with operations := if operation then slot.operations - 1 else slot.operations },
          task := .dropping r operation .activity }
  | dropActivity (choice r operation) :
      SlotStep closed address fresh slot choice (.dropping r operation .activity)
        { slot := { slot with activity := slot.activity + 1 }, task := .dropping r operation .leases }
  | dropLastLease (choice r operation) (hlast : slot.leases = 1) :
      SlotStep closed address fresh slot choice (.dropping r operation .leases)
        { slot := { slot with leases := slot.leases - 1 }, task := .dropping r operation .timer }
  | dropLease (choice r operation) (hmore : slot.leases ≠ 1) :
      SlotStep closed address fresh slot choice (.dropping r operation .leases)
        { slot := { slot with leases := slot.leases - 1 }, task := callOver operation }
  | armTimer (r operation) :
      SlotStep closed address fresh slot .ok (.dropping r operation .timer)
        { slot, task := callOver operation, timer := some slot.activity }
  | noRuntime (choice r operation) (hchoice : choice ≠ .ok) :
      SlotStep closed address fresh slot choice (.dropping r operation .timer) { slot, task := callOver operation }
  | timerStale (choice r armedAt) (hfree : slot.locked = false)
      (hstale : slot.leases ≠ 0 ∨ slot.activity ≠ armedAt) :
      SlotStep closed address fresh slot choice (.sleeping r armedAt) { slot, task := .ended }
  | timerCloses (choice r armedAt held) (hfree : slot.locked = false) (hleases : slot.leases = 0)
      (hactivity : slot.activity = armedAt) (hheld : slot.held = some held) :
      SlotStep closed address fresh slot choice (.sleeping r armedAt)
        { slot := { slot with held := none, locked := true }, task := .closing r held.session .idle }
  | timerFindsNone (choice r armedAt) (hfree : slot.locked = false) (hheld : slot.held = none) :
      SlotStep closed address fresh slot choice (.sleeping r armedAt) { slot, task := .ended }
  | skipAdHoc (choice saved r rest) (hadhoc : r.isAdHoc = true) :
      SlotStep closed address fresh slot choice (.retiring saved (r :: rest)) { slot, task := .retiring saved rest }
  | unchanged (choice saved r rest) (hfree : slot.locked = false)
      (hsame : ∀ held, slot.held = some held → saved.lookup r = some held.host) :
      SlotStep closed address fresh slot choice (.retiring saved (r :: rest)) { slot, task := .retiring saved rest }
  | drain (choice saved r rest held) (hsaved : r.isAdHoc = false) (hfree : slot.locked = false)
      (hheld : slot.held = some held) (hchanged : saved.lookup r ≠ some held.host) :
      SlotStep closed address fresh slot choice (.retiring saved (r :: rest))
        { slot := { slot with locked := true }, task := .draining saved r rest }
  | retire (choice saved r rest held) (hidle : slot.operations = 0) (hheld : slot.held = some held) :
      SlotStep closed address fresh slot choice (.draining saved r rest)
        { slot := { slot with held := none }, task := .closing r held.session (.save saved rest) }
  | drainedNone (choice saved r rest) (hheld : slot.held = none) :
      SlotStep closed address fresh slot choice (.draining saved r rest)
        { slot := { slot with locked := false }, task := .retiring saved rest }
  | shutDown (choice r rest held) (hfree : slot.locked = false) (hheld : slot.held = some held) :
      SlotStep closed address fresh slot choice (.visiting (r :: rest))
        { slot := { slot with held := none, locked := true }, task := .closing r held.session (.shutdown rest) }
  | pass (choice r rest) (hfree : slot.locked = false) (hheld : slot.held = none) :
      SlotStep closed address fresh slot choice (.visiting (r :: rest)) { slot, task := .visiting rest }

section Steps
variable {closed : Bool} {address : Option String} {fresh : ℕ} {choice : Choice} {slot : Slot} {task : Task}
  {out : Outcome} {r r' : ReceiverId}

theorem slotStep_of_abandoned (hplace : task.place = some r) {left : Slot} (h : abandoned slot task = some left) :
    SlotStep closed address fresh slot .abandon task { slot := left, task := .ended } := by
  unfold abandoned at h
  split at h <;> simp only [Option.some.injEq, reduceCtorEq] at h
  all_goals subst h
  · exact .abandonWaiting _
  · exact .abandonIdentifying _
  · exact .abandonConnecting _ _
  · exact .abandonSynchronizing _ _ _
  · exact .abandonClosingCall _ _
  · exact .abandonClosingSave _ _ _ _
  · exact .abandonClosingShutdown _ _ _
  · exact .abandonDraining _ _ _
  · rename_i saved todo
    cases todo with
    | nil => cases hplace
    | cons r rest => exact .abandonRetiring saved r rest
  · rename_i todo
    cases todo with
    | nil => cases hplace
    | cons r rest => exact .abandonVisiting r rest

theorem slotStep_of_stepAt (h : stepAt closed address fresh choice slot task = some out) :
    SlotStep closed address fresh slot choice task out := by
  unfold stepAt at h
  split at h
  · split_ifs at h with hlocked hclosed
    · cases h
      exact .refuse _ _ _ (by simpa using hlocked) hclosed
    · split at h <;> cases h
      · exact .take _ _ _ _ (by simpa using hlocked) (by simpa using hclosed) (by assumption)
      · exact .connect _ _ _ (by simpa using hlocked) (by simpa using hclosed) (by assumption)
  · split at h <;> cases h
    · exact .identify _ _ _ rfl
    · exact .identifyFails _ _ _
  · split_ifs at h with hchoice <;> cases h
    · subst hchoice
      exact .connected _ _ _
    · exact .connectFails _ _ _ _
  · split_ifs at h with hchoice <;> cases h
    · subst hchoice
      exact .synchronized _ _ _ _
    · exact .synchronizeFails _ _ _ _ _
  · cases h
    exact .close _ _ _ _
  · split_ifs at h with hchoice <;> cases h
    · subst hchoice
      exact .operate _ _
    · exact .stop _ _ _
  · cases h
    exact .drop _ _ _
  · cases h
    exact .operated _ _ _
  · cases h
    exact .dropOperation _ _ _
  · cases h
    exact .dropActivity _ _ _
  · cases h
    split_ifs with hlast
    · exact .dropLastLease _ _ _ hlast
    · exact .dropLease _ _ _ hlast
  · cases h
    split_ifs with hchoice
    · subst hchoice
      exact .armTimer _ _
    · exact .noRuntime _ _ _ hchoice
  · split_ifs at h with hlocked hstale
    · cases h
      exact .timerStale _ _ _ (by simpa using hlocked) hstale
    · obtain ⟨hleases, hactivity⟩ := not_or.mp hstale
      split at h <;> cases h
      · exact .timerCloses _ _ _ _ (by simpa using hlocked) (not_not.mp hleases) (not_not.mp hactivity) (by assumption)
      · exact .timerFindsNone _ _ _ (by simpa using hlocked) (by assumption)
  · split_ifs at h with hadhoc hlocked hsame <;> cases h
    · exact .skipAdHoc _ _ _ _ hadhoc
    · refine .unchanged _ _ _ _ (by simpa using hlocked) fun held hheld => ?_
      simpa [hheld] using hsame
    · have hsome : slot.held ≠ none := fun hnone => hsame (by rw [hnone]; rfl)
      obtain ⟨held, hheld⟩ := Option.ne_none_iff_exists'.mp hsome
      refine .drain _ _ _ _ held (by simpa using hadhoc) (by simpa using hlocked) hheld fun hlookup => hsame ?_
      simp [hheld, hlookup]
  · split_ifs at h with hbusy
    split at h <;> cases h
    · exact .retire _ _ _ _ _ (not_not.mp hbusy) (by assumption)
    · exact .drainedNone _ _ _ _ (by assumption)
  · split_ifs at h with hlocked
    split at h <;> cases h
    · exact .shutDown _ _ _ _ (by simpa using hlocked) (by assumption)
    · exact .pass _ _ _ (by simpa using hlocked) (by assumption)
  · cases h

/-- **The steps at a slot.** -/
theorem slotStep_of_atSlot (hplace : task.place = some r)
    (h : atSlot closed address fresh choice slot task = some out) :
    SlotStep closed address fresh slot choice task out := by
  unfold atSlot at h
  split_ifs at h with hchoice
  · obtain ⟨left, hleft, rfl⟩ := Option.map_eq_some_iff.mp h
    subst hchoice
    exact slotStep_of_abandoned hplace hleft
  · exact slotStep_of_stepAt h

end Steps

/-- The steps of `elsewhere`, one by one. -/
inductive OtherStep (s : Pool) : Choice → Task → Pool → Task → Prop
  | refuse (choice r) : OtherStep s choice (.submitted r) s .finishing
  | lease (choice r) (hopen : s.closed = false) (hknown : r ∈ s.known) :
      OtherStep s choice (.submitted r) s (.waiting r true)
  | lookUp (choice r) (hopen : s.closed = false) : OtherStep s choice (.submitted r) s (.resolving r true)
  | abandonResolving (r) : OtherStep s .abandon (.resolving r false) s .ended
  | resolve (choice r operation) :
      OtherStep s choice (.resolving r operation) (s.ensureSlot r) (.waiting r operation)
  | resolveFails (choice r operation) : OtherStep s choice (.resolving r operation) s (callOver operation)
  | finish (choice) : OtherStep s choice .finishing { s with inFlight := s.inFlight - 1 } .ended
  | store (saved) : OtherStep s .ok (.saving saved) { s with stored := saved } (.stored saved)
  | storeFails (choice saved) : OtherStep s choice (.saving saved) s .ended
  | abandonSaving (saved) : OtherStep s .abandon (.saving saved) s (.installing saved)
  | install (saved) : OtherStep s .ok (.installing saved) { s with stored := saved } .ended
  | installFails (choice saved) : OtherStep s choice (.installing saved) s .ended
  | list (saved todo) (horder : todo.Perm s.known) : OtherStep s (.order todo) (.stored saved) s (.retiring saved todo)
  | abandonStored (saved) : OtherStep s .abandon (.stored saved) s .ended
  | retired (choice saved) : OtherStep s choice (.retiring saved []) s .ended
  | visit (todo) (hidle : s.inFlight = 0) (horder : todo.Perm s.known) :
      OtherStep s (.order todo) .shutting s (.visiting todo)
  | abandonShutting : OtherStep s .abandon .shutting s .ended
  | abandonVisited : OtherStep s .abandon (.visiting []) s .ended
  | leave (choice) : OtherStep s choice (.visiting []) { s with left := true } .ended

theorem otherStep_of_elsewhere {s s' : Pool} {choice : Choice} {task task' : Task}
    (h : elsewhere s choice task = some (s', task')) : OtherStep s choice task s' task' := by
  unfold elsewhere at h
  split at h
  · split_ifs at h with habandon hrefuse hknown <;> cases h
    · exact .refuse _ _
    · exact .lease _ _ (by simpa using (not_or.mp hrefuse).2) hknown
    · exact .lookUp _ _ (by simpa using (not_or.mp hrefuse).2)
  · rename_i r operation
    split_ifs at h with habandon hoperation hok <;> cases h
    · rw [habandon, Bool.eq_false_iff.mpr hoperation]
      exact .abandonResolving _
    · exact .resolve _ _ _
    · exact .resolveFails _ _ _
  · split_ifs at h
    cases h
    exact .finish _
  · split_ifs at h with hok habandon <;> cases h
    · rw [hok]
      exact .store _
    · rw [habandon]
      exact .abandonSaving _
    · exact .storeFails _ _
  · cases h
    split_ifs with hok
    · rw [hok]
      exact .install _
    · exact .installFails _ _
  · split at h
    · split_ifs at h with horder
      cases h
      exact .list _ _ horder
    · cases h
      exact .abandonStored _
    · cases h
  · cases h
    exact .retired _ _
  · split at h
    · split_ifs at h with horder
      cases h
      exact .visit _ horder.1 horder.2
    · cases h
      exact .abandonShutting
    · cases h
  · split_ifs at h with habandon <;> cases h
    · rw [habandon]
      exact .abandonVisited
    · exact .leave _
  · cases h

/-- The steps of the pool. -/
inductive PoolStep (s : Pool) : PoolAction → Pool → Prop
  | call (r) (hopen : s.closed = false) (hknown : r ∈ s.known) : PoolStep s (.call r) (s.spawn (.waiting r false))
  | callUnknown (r) (hopen : s.closed = false) : PoolStep s (.call r) (s.spawn (.resolving r false))
  | submit (r) (hopen : s.closed = false) :
      PoolStep s (.submit r)
        (Pool.spawn { s with inFlight := s.inFlight + 1, admitted := s.admitted + 1 } (.submitted r))
  | save (saved) : PoolStep s (.save saved) (s.spawn (.saving saved))
  | shutdown : PoolStep s .shutdown (Pool.spawn { s with closed := true } .shutting)
  | registerAdHoc (r host) (hadhoc : r.isAdHoc = true) :
      PoolStep s (.registerAdHoc r host) { s with adHoc := (r, host) :: s.adHoc }
  | atSlot (i choice task r out) (htask : s.tasks[i]? = some task) (hplace : task.place = some r)
      (hstep : SlotStep s.closed (s.address r) s.sessions.length (s.slots r) choice task out) :
      PoolStep s (.advance i choice) (s.apply i r out)
  | elsewhere (i choice task next task') (htask : s.tasks[i]? = some task) (hplace : task.place = none)
      (hstep : OtherStep s choice task next task') :
      PoolStep s (.advance i choice) { next with tasks := next.tasks.set i task' }
  | expire (k session) (hsession : s.sessions[k]? = some session) (hlost : s.lost k session = true) :
      PoolStep s (.expire k) { s with sessions := endSession k s.sessions }

theorem poolStep_of_step {s s' : Pool} {action : PoolAction} (h : pool.step s action = some s') :
    PoolStep s action s' := by
  cases action with
  | call r =>
    have h : (if s.closed = true then none
        else some (s.spawn (if r ∈ s.known then .waiting r false else .resolving r false))) = some s' := h
    split_ifs at h with hclosed hknown <;> cases h
    · exact .call r (by simpa using hclosed) hknown
    · exact .callUnknown r (by simpa using hclosed)
  | submit r =>
    have h : (if s.closed = true then none
        else some (Pool.spawn { s with inFlight := s.inFlight + 1, admitted := s.admitted + 1 } (.submitted r))) =
      some s' := h
    split_ifs at h with hclosed
    cases h
    exact .submit r (by simpa using hclosed)
  | save saved =>
    cases h
    exact .save saved
  | shutdown =>
    cases h
    exact .shutdown
  | registerAdHoc r host =>
    have h : (if r.isAdHoc = true then some { s with adHoc := (r, host) :: s.adHoc } else none) = some s' := h
    split_ifs at h with hadhoc
    cases h
    exact .registerAdHoc r host hadhoc
  | advance i choice =>
    have h : s.advance i choice = some s' := h
    obtain ⟨task, htask, h⟩ := Option.bind_eq_some_iff.mp h
    split at h
    · rename_i r hplace
      obtain ⟨out, hout, rfl⟩ := Option.map_eq_some_iff.mp h
      exact .atSlot i choice task r out htask hplace (slotStep_of_atSlot hplace hout)
    · rename_i hplace
      obtain ⟨⟨next, task'⟩, hnext, rfl⟩ := Option.map_eq_some_iff.mp h
      exact .elsewhere i choice task next task' htask hplace (otherStep_of_elsewhere hnext)
  | expire k =>
    have h : s.expire k = some s' := h
    obtain ⟨session, hsession, h⟩ := Option.bind_eq_some_iff.mp h
    split_ifs at h with hlost
    cases h
    exact .expire k session hsession hlost

end DenonAvr.Application.Connections
