import DenonAvr.Library.Machine

/-!
# The one server of a data directory

Servers that start, fail to, serve, shut down, are dropped and are killed, in any order, with each call to the file
system a step of its own. A server holds the lock on `server.lock` from before it opens anything until its last step,
and it makes and removes sockets under that lock alone. The operating system releases the lock of a server that is
killed and leaves its sockets; the next server removes them.

Whoever else can write to a place may change it at any time. `touched` says that somebody did since a server last
looked there before an unlink, or bound its socket there.
-/

namespace DenonAvr.Server.Instance

open Library

/-! ### What `lstat` says -/

structure Facts where
  isDirectory : Bool := false
  isSocket : Bool := false
  isLink : Bool := false
  uid : ℕ
  mode : ℕ
  device : ℕ
  inode : ℕ
deriving DecidableEq

/-- Which file this is. -/
def Facts.identity (facts : Facts) : ℕ × ℕ := (facts.device, facts.inode)

/-- The group-write and other-write bits. -/
def writableByOthers : ℕ := 0o022

/-- Why `facts` is not a directory the Agent endpoint may use, if it is not. -/
def directoryProblem (facts : Facts) (serverUid : ℕ) : Option String :=
  if facts.isLink then some "is a link, not a directory"
  else if !facts.isDirectory then some "is not a directory"
  else if facts.uid ≠ serverUid then some "is not owned by the account that runs the server"
  else if facts.mode &&& writableByOthers ≠ 0 then some "is writable by its group or by everyone"
  else none

/-- Why the socket just bound, or the directory around it, is not what was checked. -/
def afterBindProblem (before directory socket : Facts) (serverUid : ℕ) : Option String :=
  if directory.identity ≠ before.identity then some "the directory was replaced while the socket was being made"
  else match directoryProblem directory serverUid with
    | some problem => some ("the directory changed and now " ++ problem)
    | none =>
      if !socket.isSocket || socket.uid ≠ serverUid then
        some "what is at the socket's path is not the socket this server made"
      else none

theorem eq_none_of_afterBindProblem {before directory socket : Facts} {uid : ℕ}
    (h : afterBindProblem before directory socket uid = none) : directoryProblem directory uid = none := by
  cases hproblem : directoryProblem directory uid with
  | none => rfl
  | some problem =>
    rw [afterBindProblem, hproblem] at h
    split_ifs at h

/-! ### The settings -/

/-- The longest path of a socket, with its terminating NUL. -/
def sunPathLen : ℕ := 108

/-- `AgentEndpointConfig`. -/
structure AgentEndpointConfig where
  directory : String
  uids : List ℕ
  mode : ℕ

def AgentEndpointConfig.socket (config : AgentEndpointConfig) : String :=
  config.directory ++ (if config.directory.endsWith "/" then "" else "/") ++ "agent.sock"

/-- Whether a path is longer than `sun_path` holds. -/
def pathTooLong (path : String) : Bool := decide (sunPathLen ≤ path.utf8ByteSize)

/-- A path that is not absolute, or hides a link from `lstat`. -/
def badlyWritten (directory : String) : Bool :=
  let dotted := (directory.toList.splitOn '/').any fun part => part == ['.', '.']
  let trailing := decide (1 < directory.length) && (directory.endsWith "/" || directory.endsWith "/.")
  !directory.startsWith "/" || trailing || dotted

abbrev ServerId := ℕ

structure Config where
  /-- The account that runs the servers. -/
  uid : ℕ
  operatorSocket : String
  agent : ServerId → Option AgentEndpointConfig
  /-- Whether the token store of a server can issue tokens. -/
  tokensUsable : ServerId → Bool

/-- The Agent endpoint of a server, unless it is not configured or not worth a look at its directory. -/
def Config.agentOf (cfg : Config) (id : ServerId) : Option AgentEndpointConfig :=
  (cfg.agent id).filter fun agent =>
    cfg.tokensUsable id && !agent.uids.isEmpty && !pathTooLong agent.socket && !badlyWritten agent.directory

/-! ### The file system -/

inductive Place
  | operator
  | agent
deriving DecidableEq

/-- What is at the path of a socket. -/
structure Node where
  facts : Facts
  /-- The server that bound it. -/
  maker : Option ServerId := none

/-- The socket to make: for the Agent endpoint, with the directory as `prepare` found it. -/
inductive Target
  | operator
  | agent (before : Facts)
deriving DecidableEq

def Target.place : Target → Place
  | .operator => .operator
  | .agent _ => .agent

/-- Where a server is. -/
inductive Phase
  | idle
  /-- `run/` is private; `take_lock` is next. -/
  | acquiring
  /-- The lock is taken; the metadata of its file is read. -/
  | owning
  /-- The files of the caller are opened, and the length of the path is checked. -/
  | opening
  | looking (target : Target)
  | unlinking (target : Target)
  | binding (target : Target)
  | restricting (target : Target)
  /-- The socket could not be given its mode. -/
  | discarding (target : Target)
  | directoryLook
  | directoryMake
  | directoryRelook
  | readingDirectory (before : Facts)
  | readingSocket (before : Facts) (now : Option Facts)
  | rereading (before : Facts)
  | reexamining (sameDirectory : Bool)
  | undoing
  | serving (agent : Bool)
  /-- In `shutdown`, up to the end of the service. -/
  | stopping (agent : Bool)
  | removing (agent : Bool)
  | removingAgent
  | releasing
  | ended
  | killed
deriving DecidableEq

structure Removal where
  server : ServerId
  node : Node
  touched : Bool

structure State where
  /-- Who holds the lock. -/
  lock : Option ServerId := none
  operator : Option Node := none
  /-- What is at the path of the agent directory. -/
  directory : Option Facts := none
  /-- What `agent.sock` is in each directory. -/
  inside : ℕ × ℕ → Option Node := fun _ => none
  phase : ServerId → Phase := fun _ => .idle
  touched : Place → Bool := fun _ => false
  removals : List Removal := []
  /-- Servers that could not remove their operator socket. -/
  unremoved : List ServerId := []

inductive Action
  | start (id : ServerId)
  /-- The next call of a server. `ok` is whether it succeeds as far as the file system is concerned; `fresh` names what
  it makes. -/
  | advance (id : ServerId) (ok : Bool) (fresh : ℕ × ℕ)
  | shutdown (id : ServerId)
  /-- The server, or the future of its shutdown, is dropped. -/
  | drop (id : ServerId)
  | kill (id : ServerId)
  /-- Somebody else changes what is at the operator's path. -/
  | replaceOperator (node : Option Facts)
  | replaceDirectory (facts : Option Facts)
  | replaceInside (directory : ℕ × ℕ) (node : Option Facts)

namespace State

/-- What a look at the path of a socket finds. -/
def lookup (s : State) : Place → Option Node
  | .operator => s.operator
  | .agent => s.directory.bind fun facts => s.inside facts.identity

def put (s : State) (place : Place) (node : Option Node) : State :=
  match place with
  | .operator => { s with operator := node }
  | .agent =>
    match s.directory with
    | some facts => { s with inside := Function.update s.inside facts.identity node }
    | none => s

def goTo (s : State) (id : ServerId) (phase : Phase) : State := { s with phase := Function.update s.phase id phase }

/-- `remove_file`, of anything but a directory. -/
def remove (s : State) (id : ServerId) (place : Place) (ok : Bool) : Option State :=
  match s.lookup place with
  | some node =>
    if ok && !node.facts.isDirectory then
      some { s.put place none with removals := s.removals ++ [⟨id, node, s.touched place⟩] }
    else none
  | none => none

/-- The error of a start: the lock goes with it, and the Agent endpoint alone is not worth an error. -/
def fail (s : State) (id : ServerId) : Target → State
  | .operator => { s with lock := none }.goTo id .ended
  | .agent _ => s.goTo id (.serving false)

/-- What follows a socket that has its mode. -/
def afterMade (cfg : Config) (id : ServerId) : Target → Phase
  | .operator => if (cfg.agentOf id).isSome then .directoryLook else .serving false
  | .agent before => .readingDirectory before

/-- What follows a look at the agent directory that finds it. -/
def afterLook (cfg : Config) (facts : Facts) : Phase :=
  if (directoryProblem facts cfg.uid).isSome then .serving false else .looking (.agent facts)

/-- The mode that a socket is to have. -/
def modeOf (cfg : Config) (id : ServerId) : Target → ℕ
  | .operator => 0o600
  | .agent _ => ((cfg.agentOf id).map AgentEndpointConfig.mode).getD 0

def advance (cfg : Config) (s : State) (id : ServerId) (ok : Bool) (fresh : ℕ × ℕ) : Option State :=
  match s.phase id with
  | .acquiring =>
    some (if ok && s.lock.isNone then { s with lock := some id }.goTo id .owning else s.goTo id .ended)
  | .owning => some (if ok then s.goTo id .opening else s.fail id .operator)
  | .opening => some (if ok && !pathTooLong cfg.operatorSocket then s.goTo id (.looking .operator) else s.fail id .operator)
  | .looking target =>
    some (if !ok then s.fail id target
      else match s.lookup target.place with
        | none => s.goTo id (.binding target)
        | some node =>
          if node.facts.isSocket && node.facts.uid == cfg.uid then
            { s with touched := Function.update s.touched target.place false }.goTo id (.unlinking target)
          else s.fail id target)
  | .unlinking target =>
    some (match s.remove id target.place ok with
      | some s => s.goTo id (.binding target)
      | none => s.fail id target)
  | .binding target =>
    some (if ok && (s.lookup target.place).isNone && (target.place == .operator || s.directory.isSome) then
        { s.put target.place (some ⟨{ isSocket := true, uid := cfg.uid, mode := 0o755, device := fresh.1, inode := fresh.2 },
            some id⟩) with
          touched := Function.update s.touched target.place false }.goTo id (.restricting target)
      else s.fail id target)
  | .restricting target =>
    some (match ok, s.lookup target.place with
      | true, some node =>
        (s.put target.place (some { node with facts := { node.facts with mode := modeOf cfg id target } })).goTo id
          (afterMade cfg id target)
      | _, _ => s.goTo id (.discarding target))
  | .discarding target => some (((s.remove id target.place ok).getD
      (if target = .operator then { s with unremoved := id :: s.unremoved } else s)).fail id target)
  | .directoryLook =>
    some (s.goTo id (if !ok then .serving false
      else match s.directory with
        | some facts => afterLook cfg facts
        | none => .directoryMake))
  | .directoryMake =>
    some (match ok, s.directory with
      | true, none =>
        { s with
          directory := some { isDirectory := true, uid := cfg.uid, mode := 0o700, device := fresh.1, inode := fresh.2 }
          inside := Function.update s.inside fresh none }.goTo id .directoryRelook
      | true, some facts => s.goTo id (if facts.isDirectory then .directoryRelook else .serving false)
      | false, _ => s.goTo id (.serving false))
  | .directoryRelook =>
    some (s.goTo id (match ok, s.directory with
      | true, some facts => afterLook cfg facts
      | _, _ => .serving false))
  | .readingDirectory before => some (s.goTo id (.readingSocket before (if ok then s.directory else none)))
  | .readingSocket before now =>
    some (s.goTo id (match now, (if ok then s.lookup .agent else none) with
      | some now, some made =>
        if (afterBindProblem before now made.facts cfg.uid).isSome then .rereading before else .serving true
      | _, _ => .rereading before))
  | .rereading before =>
    some (s.goTo id (.reexamining (ok && s.directory.any fun now => now.identity == before.identity)))
  | .reexamining sameDirectory =>
    let ours := ok && (s.lookup .agent).any fun node => node.facts.isSocket && node.facts.uid == cfg.uid
    some (if sameDirectory && ours then
        { s with touched := Function.update s.touched .agent false }.goTo id .undoing
      else s.goTo id (.serving false))
  | .undoing => some (((s.remove id .agent ok).getD s).goTo id (.serving false))
  | .stopping agent => some (s.goTo id (.removing agent))
  | .removing agent =>
    some (((s.remove id .operator ok).getD { s with unremoved := id :: s.unremoved }).goTo id
      (if agent then .removingAgent else .releasing))
  | .removingAgent => some (((s.remove id .agent ok).getD s).goTo id .releasing)
  | .releasing => some ({ s with lock := none }.goTo id .ended)
  | .idle | .serving _ | .ended | .killed => none

def step (cfg : Config) (s : State) : Action → Option State
  | .start id => if s.phase id = .idle then some (s.goTo id .acquiring) else none
  | .advance id ok fresh => s.advance cfg id ok fresh
  | .shutdown id =>
    match s.phase id with
    | .serving agent => some (s.goTo id (.stopping agent))
    | _ => none
  | .drop id =>
    match s.phase id with
    | .serving agent | .stopping agent => some (s.goTo id (.removing agent))
    | _ => none
  | .kill id =>
    match s.phase id with
    | .idle | .ended | .killed => none
    | _ => some ({ s with lock := if s.lock = some id then none else s.lock }.goTo id .killed)
  | .replaceOperator node =>
    some { s with
      operator := node.map fun facts => { facts }
      touched := Function.update s.touched .operator true }
  | .replaceDirectory facts =>
    some { s with
      directory := facts
      touched := Function.update s.touched .agent true }
  | .replaceInside directory node =>
    some { s with
      inside := Function.update s.inside directory (node.map fun facts => { facts })
      touched := Function.update s.touched .agent true }

end State

/-- The servers of a data directory, and whoever else writes to it. -/
def servers (cfg : Config) : Machine State Action where
  init s := s = {}
  step := State.step cfg

/-! ### What a server has at each of its places -/

namespace Phase

/-- The lock is held. -/
def holds : Phase → Bool
  | .idle | .acquiring | .ended | .killed => false
  | _ => true

def gone : Phase → Bool
  | .ended | .killed => true
  | _ => false

/-- The operator socket is bound. -/
def hasOperator : Phase → Bool
  | .idle | .acquiring | .owning | .opening | .looking .operator | .unlinking .operator | .binding .operator
  | .removingAgent | .releasing | .ended | .killed => false
  | _ => true

/-- It has its mode, too. -/
def madeOperator : Phase → Bool
  | .restricting .operator | .discarding .operator => false
  | phase => phase.hasOperator

/-- The agent socket is bound. -/
def hasAgent : Phase → Bool
  | .restricting (.agent _) | .discarding (.agent _) | .readingDirectory _ | .readingSocket _ _ | .serving true
  | .stopping true | .removing true | .removingAgent => true
  | _ => false

def madeAgent : Phase → Bool
  | .restricting _ | .discarding _ => false
  | phase => phase.hasAgent

/-- The agent directory was found in order after the socket was bound. -/
def checked : Phase → Bool
  | .serving true | .stopping true => true
  | _ => false

/-- The Agent endpoint is being made, or is there. -/
def forAgent : Phase → Bool
  | .looking target | .unlinking target | .binding target | .restricting target | .discarding target =>
    target.place == .agent
  | .directoryLook | .directoryMake | .directoryRelook | .readingDirectory _ | .readingSocket _ _ | .rereading _
  | .reexamining _ | .undoing | .serving true | .stopping true | .removing true | .removingAgent => true
  | _ => false

/-- The place of a socket that is about to be unlinked because it was found to be of the server's account. -/
def unlinks : Phase → Option Place
  | .unlinking target => some target.place
  | .undoing => some .agent
  | _ => none

end Phase

/-- What the server knows of the operator's path, unless somebody else touched it. -/
structure KnownOperator (s : State) (id : ServerId) (phase : Phase) : Prop where
  bound : phase.hasOperator = true → s.touched .operator = false → ∃ node, s.operator = some node ∧ node.maker = some id ∧
    (phase.madeOperator = true → node.facts.mode = 0o600)
  absent : phase.holds = true → phase.hasOperator = false → ∀ node, s.operator = some node → node.maker = some id →
    id ∈ s.unremoved

/-- And of the agents' path and its directory. -/
structure KnownAgent (cfg : Config) (s : State) (id : ServerId) (phase : Phase) : Prop where
  configured : phase.forAgent = true → ∃ agent, cfg.agentOf id = some agent
  bound : phase.hasAgent = true → s.touched .agent = false → ∃ node, s.lookup .agent = some node ∧ node.maker = some id ∧
    (phase.madeAgent = true → ∀ agent, cfg.agentOf id = some agent → node.facts.mode = agent.mode)
  seen : ∀ before now, phase = .readingSocket before (some now) → s.touched .agent = false → s.directory = some now
  checked : phase.checked = true → s.touched .agent = false → ∃ now, s.directory = some now ∧ directoryProblem now cfg.uid = none

/-- A socket about to be unlinked is one of the account, unless somebody else touched the place. -/
def KnownStale (cfg : Config) (s : State) (phase : Phase) : Prop :=
  ∀ place, phase.unlinks = some place → s.touched place = false → ∃ node, s.lookup place = some node ∧
    node.facts.isSocket = true ∧ node.facts.uid = cfg.uid

/-- What is on disk and in the log. -/
structure Base (cfg : Config) (s : State) : Prop where
  lock : ∀ id, s.lock = some id ↔ (s.phase id).holds = true
  /-- A socket of a server is of the account, and the server holds the lock or is gone. -/
  maker : ∀ node, (s.operator = some node ∨ ∃ directory, s.inside directory = some node) → ∀ id, node.maker = some id →
    node.facts.isSocket = true ∧ node.facts.uid = cfg.uid ∧ ((s.phase id).holds = true ∨ (s.phase id).gone = true)
  removals : ∀ removal ∈ s.removals,
    (removal.touched = true ∨ removal.node.facts.isSocket = true ∧ removal.node.facts.uid = cfg.uid) ∧
      ∀ id, removal.node.maker = some id → id = removal.server ∨ (s.phase id).gone = true
  left : ∀ node, s.operator = some node → ∀ id, node.maker = some id →
    (s.phase id).holds = true ∨ s.phase id = .killed ∨ id ∈ s.unremoved

structure Kept (cfg : Config) (s : State) : Prop extends Base cfg s where
  operator : ∀ id, KnownOperator s id (s.phase id)
  agent : ∀ id, KnownAgent cfg s id (s.phase id)
  stale : ∀ id, KnownStale cfg s (s.phase id)

section Known
@[simp] theorem phase_goTo_self (s : State) (id : ServerId) (phase : Phase) : (s.goTo id phase).phase id = phase :=
  Function.update_self _ _ _

theorem phase_goTo_of_ne {s : State} {id other : ServerId} {phase : Phase} (hne : other ≠ id) :
    (s.goTo id phase).phase other = s.phase other :=
  Function.update_of_ne hne _ _

variable {cfg : Config} {s s' : State} {id other : ServerId} {phase next : Phase} {place : Place} {node : Node}

theorem Phase.holds_of_hasOperator (h : phase.hasOperator = true) : phase.holds = true := by
  cases phase <;> first | rfl | simp [Phase.hasOperator] at h

theorem Phase.holds_of_hasAgent (h : phase.hasAgent = true) : phase.holds = true := by
  cases phase <;> first | rfl | simp [Phase.hasAgent] at h

theorem Phase.holds_of_forAgent (h : phase.forAgent = true) : phase.holds = true := by
  cases phase <;> first | rfl | simp [Phase.forAgent] at h

theorem Phase.hasAgent_of_checked (h : phase.checked = true) : phase.hasAgent = true := by
  unfold Phase.checked at h
  split at h <;> first | rfl | cases h

theorem Phase.holds_of_unlinks (h : phase.unlinks = some place) : phase.holds = true := by
  cases phase <;> first | rfl | cases h

/-- A server without the lock knows nothing. -/
theorem knownOperator_of_not_holds (h : phase.holds = false) : KnownOperator s id phase where
  bound hhas := by rw [Phase.holds_of_hasOperator hhas] at h; cases h
  absent hholds := by rw [hholds] at h; cases h

theorem knownAgent_of_not_bound (h : phase.hasAgent = false)
    (hconfigured : phase.forAgent = true → ∃ agent, cfg.agentOf id = some agent) : KnownAgent cfg s id phase where
  configured := hconfigured
  bound hhas := by rw [hhas] at h; cases h
  seen before now heq := by rw [heq] at h; cases h
  checked hchecked := by rw [Phase.hasAgent_of_checked hchecked] at h; cases h

theorem knownAgent_of_not_holds (h : phase.holds = false) : KnownAgent cfg s id phase :=
  knownAgent_of_not_bound (eq_false_of_ne_true fun hhas => by rw [Phase.holds_of_hasAgent hhas] at h; cases h)
    fun hfor => by rw [Phase.holds_of_forAgent hfor] at h; cases h

theorem knownStale_of_not_unlinks (h : phase.unlinks = none) : KnownStale cfg s phase := fun place hplace => by
  rw [hplace] at h; cases h

theorem knownStale_of_not_holds (h : phase.holds = false) : KnownStale cfg s phase := fun place hplace => by
  rw [Phase.holds_of_unlinks hplace] at h; cases h

/-- What is known of the operator's path outlives a step that leaves the path alone. -/
theorem KnownOperator.mono (h : KnownOperator s id phase) (hoperator : s'.operator = s.operator)
    (htouched : s'.touched .operator = s.touched .operator) (hunremoved : s'.unremoved = s.unremoved)
    (hhas : next.hasOperator = phase.hasOperator) (hmade : next.madeOperator = phase.madeOperator)
    (hholds : next.holds = phase.holds) : KnownOperator s' id next := by
  refine ⟨fun hnext huntouched => ?_, fun hnext hnot => ?_⟩
  · rw [hoperator, hmade]
    exact h.bound (hhas ▸ hnext) (htouched ▸ huntouched)
  · rw [hoperator, hunremoved]
    exact h.absent (hholds ▸ hnext) (hhas ▸ hnot)

/-- And so does what is known of the agents' path. -/
theorem KnownAgent.mono (h : KnownAgent cfg s id phase) (hlookup : s'.lookup .agent = s.lookup .agent)
    (hdirectory : s'.directory = s.directory) (htouched : s'.touched .agent = s.touched .agent)
    (hfor : next.forAgent = true → phase.forAgent = true) (hhas : next.hasAgent = true → phase.hasAgent = true) (hmade : next.madeAgent = true → phase.madeAgent = true)
    (hseen : ∀ before now, next ≠ .readingSocket before (some now)) (hchecked : next.checked = true → phase.checked = true) :
    KnownAgent cfg s' id next := by
  refine ⟨fun hnext => h.configured (hfor hnext), fun hnext huntouched => ?_,
    fun before now heq => absurd heq (hseen before now), fun hnext huntouched => ?_⟩
  · obtain ⟨node, hnode, hmaker, hmode⟩ := h.bound (hhas hnext) (htouched ▸ huntouched)
    exact ⟨node, hlookup ▸ hnode, hmaker, fun hdone => hmode (hmade hdone)⟩
  · rw [hdirectory]
    exact h.checked (hchecked hnext) (htouched ▸ huntouched)

/-! ### Steps on the disk -/

/-- What is on disk and in the log depends on these fields alone. -/
theorem Base.congr (h : Base cfg s) (hlock : s'.lock = s.lock) (hoperator : s'.operator = s.operator)
    (hinside : s'.inside = s.inside) (hphase : s'.phase = s.phase) (hremovals : s'.removals = s.removals)
    (hunremoved : s.unremoved ⊆ s'.unremoved) : Base cfg s' where
  lock := hlock ▸ hphase ▸ h.lock
  maker := hoperator ▸ hinside ▸ hphase ▸ h.maker
  removals := hremovals ▸ hphase ▸ h.removals
  left node hnode id hmaker := by
    rw [hphase]
    exact (h.left node (hoperator ▸ hnode) id hmaker).imp_right (Or.imp_right fun hmem => hunremoved hmem)

theorem Base.goTo (h : Base cfg s) (hholds : next.holds = (s.phase id).holds) (hgone : (s.phase id).gone = false) :
    Base cfg (s.goTo id next) := by
  have hother : ∀ other, other ≠ id → (s.goTo id next).phase other = s.phase other := fun other hne =>
    phase_goTo_of_ne hne
  have hself : (s.goTo id next).phase id = next := phase_goTo_self _ _ _
  refine ⟨fun other => ?_, fun node hnode other hmaker => ?_, fun removal hmem => ?_, fun node hnode other hmaker => ?_⟩
  · rw [show (s.goTo id next).lock = s.lock from rfl, h.lock other]
    by_cases heq : other = id
    · rw [heq, hself, hholds]
    · rw [hother other heq]
  · obtain ⟨hsocket, huid, hlives⟩ := h.maker node hnode other hmaker
    refine ⟨hsocket, huid, ?_⟩
    by_cases heq : other = id
    · subst heq
      rw [hgone] at hlives
      rw [hself, hholds]
      exact .inl (hlives.resolve_right (by simp))
    · rwa [hother other heq]
  · obtain ⟨hstale, hmaker⟩ := h.removals removal hmem
    refine ⟨hstale, fun other hother' => (hmaker other hother').imp_right fun hover => ?_⟩
    by_cases heq : other = id
    · rw [heq, hgone] at hover
      cases hover
    · rwa [hother other heq]
  · refine (h.left node hnode other hmaker).imp (fun hother' => ?_) (Or.imp_left fun hkilled => ?_)
    · by_cases heq : other = id
      · rw [heq, hself, hholds, ← heq]
        exact hother'
      · rwa [hother other heq]
    · by_cases heq : other = id
      · rw [heq] at hkilled
        rw [hkilled] at hgone
        cases hgone
      · rwa [hother other heq]

theorem Base.acquire (h : Base cfg s) (hfree : s.lock = none) (hphase : s.phase id = .acquiring) :
    Base cfg ({ s with lock := some id }.goTo id .owning) := by
  have hnobody : ∀ other, (s.phase other).holds = false := fun other => eq_false_of_ne_true fun hholds => by
    rw [← h.lock other, hfree] at hholds
    cases hholds
  have hother : ∀ other, other ≠ id → ({ s with lock := some id }.goTo id .owning : State).phase other = s.phase other :=
    fun other hne => phase_goTo_of_ne hne
  have hself : ({ s with lock := some id }.goTo id .owning : State).phase id = .owning := phase_goTo_self _ _ _
  have hnot : ∀ other, (s.phase other).gone = true → other ≠ id := fun other hgone heq => by
    rw [heq, hphase] at hgone
    cases hgone
  refine ⟨fun other => ?_, fun node hnode other hmaker => ?_, fun removal hmem => ?_, fun node hnode other hmaker => ?_⟩
  · change some id = some other ↔ _
    by_cases heq : other = id
    · rw [heq, hself]
      exact ⟨fun _ => rfl, fun _ => rfl⟩
    · rw [hother other heq, hnobody other]
      exact ⟨fun hsome => absurd (Option.some.inj hsome).symm heq, fun hfalse => by cases hfalse⟩
  · obtain ⟨hsocket, huid, hlives⟩ := h.maker node hnode other hmaker
    rw [hnobody other] at hlives
    have hgone := hlives.resolve_left (by simp)
    exact ⟨hsocket, huid, .inr (by rwa [hother other (hnot other hgone)])⟩
  · obtain ⟨hstale, hmaker⟩ := h.removals removal hmem
    exact ⟨hstale, fun other hother' => (hmaker other hother').imp_right fun hgone => by
      rwa [hother other (hnot other hgone)]⟩
  · refine .inr ((h.left node hnode other hmaker).resolve_left (by simp [hnobody other]) |>.imp_left fun hkilled => ?_)
    rwa [hother other (hnot other (by rw [hkilled]; rfl))]

theorem Base.release (h : Base cfg s) (hholds : (s.phase id).holds = true) (hnext : next.gone = true)
    (hleft : next = .killed ∨ ∀ node, s.operator = some node → node.maker = some id → id ∈ s.unremoved) :
    Base cfg ({ s with lock := none }.goTo id next) := by
  have hother : ∀ other, other ≠ id → ({ s with lock := none }.goTo id next : State).phase other = s.phase other :=
    fun other hne => phase_goTo_of_ne hne
  have hself : ({ s with lock := none }.goTo id next : State).phase id = next := phase_goTo_self _ _ _
  have hmine : s.lock = some id := (h.lock id).mpr hholds
  have hnobody : ∀ other, other ≠ id → (s.phase other).holds = false := fun other hne => eq_false_of_ne_true fun hother' => by
    rw [← h.lock other, hmine] at hother'
    exact hne (Option.some.inj hother').symm
  have hdown : next.holds = false := by cases next <;> first | rfl | cases hnext
  refine ⟨fun other => ?_, fun node hnode other hmaker => ?_, fun removal hmem => ?_, fun node hnode other hmaker => ?_⟩
  · refine ⟨fun hnone => (by cases hnone), fun hother' => ?_⟩
    by_cases heq : other = id
    · rw [heq, hself, hdown] at hother'
      cases hother'
    · rw [hother other heq, hnobody other heq] at hother'
      cases hother'
  · obtain ⟨hsocket, huid, hlives⟩ := h.maker node hnode other hmaker
    refine ⟨hsocket, huid, .inr ?_⟩
    by_cases heq : other = id
    · rwa [heq, hself]
    · rw [hnobody other heq] at hlives
      rw [hother other heq]
      exact hlives.resolve_left (by simp)
  · obtain ⟨hstale, hmaker⟩ := h.removals removal hmem
    refine ⟨hstale, fun other hother' => (hmaker other hother').imp_right fun hgone => ?_⟩
    by_cases heq : other = id
    · rwa [heq, hself]
    · rwa [hother other heq]
  · by_cases heq : other = id
    · subst heq
      rw [hself]
      exact .inr (hleft.imp_right fun hunremoved => hunremoved node hnode hmaker)
    · rw [hother other heq]
      exact h.left node hnode other hmaker

/-- What is at the path of a socket is on disk. -/
theorem onDisk_of_lookup (h : s.lookup place = some node) : s.operator = some node ∨ ∃ directory, s.inside directory = some node := by
  cases place with
  | operator => exact .inl h
  | agent =>
    obtain ⟨facts, -, hinside⟩ := Option.bind_eq_some_iff.mp h
    exact .inr ⟨_, hinside⟩

/-- What is on disk after something is put at a path. -/
theorem onDisk_of_put {new : Option Node} (h : (s.put place new).operator = some node ∨
    ∃ directory, (s.put place new).inside directory = some node) :
    new = some node ∨ s.operator = some node ∨ ∃ directory, s.inside directory = some node := by
  cases place with
  | operator => exact h.imp_right .inr
  | agent =>
    unfold State.put at h
    dsimp only at h
    split at h
    · rename_i facts hfacts
      rcases h with h | ⟨directory, h⟩
      · exact .inr (.inl h)
      · change Function.update s.inside facts.identity new directory = some node at h
        by_cases heq : directory = facts.identity
        · rw [heq, Function.update_self] at h
          exact .inl h
        · rw [Function.update_of_ne heq] at h
          exact .inr (.inr ⟨directory, h⟩)
    · exact .inr h

section Put
variable (s : State) (place : Place) (new : Option Node)

@[simp] theorem lock_put : (s.put place new).lock = s.lock := by
  unfold State.put
  split <;> first | rfl | (split <;> rfl)

@[simp] theorem phase_put : (s.put place new).phase = s.phase := by
  unfold State.put
  split <;> first | rfl | (split <;> rfl)

@[simp] theorem touched_put : (s.put place new).touched = s.touched := by
  unfold State.put
  split <;> first | rfl | (split <;> rfl)

@[simp] theorem directory_put : (s.put place new).directory = s.directory := by
  unfold State.put
  split <;> first | rfl | (split <;> rfl)

@[simp] theorem removals_put : (s.put place new).removals = s.removals := by
  unfold State.put
  split <;> first | rfl | (split <;> rfl)

@[simp] theorem unremoved_put : (s.put place new).unremoved = s.unremoved := by
  unfold State.put
  split <;> first | rfl | (split <;> rfl)

@[simp] theorem operator_put_agent : (s.put .agent new).operator = s.operator := by
  unfold State.put
  dsimp only
  split <;> rfl

/-- What is put at a path that is there is found there. -/
theorem lookup_put (h : place = .agent → s.directory ≠ none) : (s.put place new).lookup place = new := by
  cases place with
  | operator => rfl
  | agent =>
    obtain ⟨facts, hfacts⟩ := Option.ne_none_iff_exists'.mp (h rfl)
    simp [State.put, State.lookup, hfacts]

end Put

theorem Base.put (h : Base cfg s) (new : Option Node)
    (hmaker : ∀ node, new = some node → ∀ id, node.maker = some id →
      node.facts.isSocket = true ∧ node.facts.uid = cfg.uid ∧ ((s.phase id).holds = true ∨ (s.phase id).gone = true))
    (hleft : place = .operator → ∀ node, new = some node → ∀ id, node.maker = some id →
      (s.phase id).holds = true ∨ s.phase id = .killed ∨ id ∈ s.unremoved) : Base cfg (s.put place new) := by
  refine ⟨fun id => ?_, fun node hnode id hid => ?_, fun removal hmem => ?_, fun node hnode id hid => ?_⟩
  · rw [lock_put, phase_put]
    exact h.lock id
  · rw [phase_put]
    exact (onDisk_of_put hnode).elim (fun hnew => hmaker node hnew id hid) fun hold => h.maker node hold id hid
  · rw [phase_put]
    exact h.removals removal (by simpa using hmem)
  · rw [phase_put, unremoved_put]
    cases place with
    | operator => exact hleft rfl node hnode id hid
    | agent => exact h.left node (by simpa using hnode) id hid

theorem remove_eq_some {ok : Bool} (h : s.remove id place ok = some s') :
    ∃ node, s.lookup place = some node ∧
      s' = { s.put place none with removals := s.removals ++ [⟨id, node, s.touched place⟩] } := by
  unfold State.remove at h
  split at h
  · rename_i node hnode
    split_ifs at h
    exact ⟨node, hnode, (Option.some.inj h).symm⟩
  · cases h

theorem Base.remove (h : Base cfg s) (hholds : (s.phase id).holds = true) {ok : Bool}
    (hknown : s.touched place = false → ∃ node, s.lookup place = some node ∧
      (node.maker = some id ∨ node.facts.isSocket = true ∧ node.facts.uid = cfg.uid))
    (hremove : s.remove id place ok = some s') : Base cfg s' := by
  obtain ⟨node, hnode, rfl⟩ := remove_eq_some hremove
  have hput : Base cfg (s.put place none) := h.put none (fun _ hnone => by cases hnone) fun _ _ hnone => by cases hnone
  have hmine : s.lock = some id := (h.lock id).mpr hholds
  refine ⟨hput.lock, hput.maker, fun removal hmem => ?_, hput.left⟩
  change (_ ∧ ∀ other, _ → _ ∨ ((s.put place none).phase other).gone = true)
  rw [phase_put]
  rcases List.mem_append.mp hmem with hmem | hmem
  · exact h.removals removal hmem
  · obtain rfl := List.mem_singleton.mp hmem
    dsimp only
    refine ⟨?_, fun other hother => ?_⟩
    · cases htouched : s.touched place with
      | true => exact .inl rfl
      | false =>
        obtain ⟨found, hfound, hwhose⟩ := hknown htouched
        obtain rfl := Option.some.inj (hnode.symm.trans hfound)
        refine .inr (hwhose.elim (fun hown => ?_) fun hstale => hstale)
        obtain ⟨hsocket, huid, -⟩ := h.maker node (onDisk_of_lookup hnode) id hown
        exact ⟨hsocket, huid⟩
    · refine (h.maker node (onDisk_of_lookup hnode) other hother).2.2.imp_left fun hlives => ?_
      rw [← h.lock other, hmine] at hlives
      exact (Option.some.inj hlives).symm

/-! ### The steps of a server -/

/-- A step of the server that holds the lock: the others know nothing that it could spoil. -/
theorem Kept.of_holder (h : Kept cfg s) (hholds : (s.phase id).holds = true) (hbase : Base cfg (s'.goTo id next))
    (hphase : s'.phase = s.phase) (hoperator : KnownOperator s' id next) (hagent : KnownAgent cfg s' id next)
    (hstale : KnownStale cfg s' next) : Kept cfg (s'.goTo id next) := by
  have hself : (s'.goTo id next).phase id = next := phase_goTo_self _ _ _
  have hothers : ∀ other, other ≠ id → ((s'.goTo id next).phase other).holds = false := by
    intro other hne
    rw [phase_goTo_of_ne hne, hphase]
    refine eq_false_of_ne_true fun hother => hne ?_
    rw [← h.lock other, (h.lock id).mpr hholds] at hother
    exact (Option.some.inj hother).symm
  refine { toBase := hbase, operator := fun other => ?_, agent := fun other => ?_, stale := fun other => ?_ } <;>
    by_cases heq : other = id
  · rw [heq, hself]
    exact ⟨hoperator.bound, hoperator.absent⟩
  · exact knownOperator_of_not_holds (hothers other heq)
  · rw [heq, hself]
    exact ⟨hagent.configured, hagent.bound, hagent.seen, hagent.checked⟩
  · exact knownAgent_of_not_holds (hothers other heq)
  · rw [heq, hself]
    exact hstale
  · exact knownStale_of_not_holds (hothers other heq)

theorem Kept.goTo (h : Kept cfg s) (hholds : (s.phase id).holds = true) (hnext : next.holds = true)
    (hhas : next.hasOperator = (s.phase id).hasOperator) (hmade : next.madeOperator = (s.phase id).madeOperator)
    (hagent : KnownAgent cfg s id next) (hstale : KnownStale cfg s next) : Kept cfg (s.goTo id next) := by
  have hgone : (s.phase id).gone = false := by
    cases hphase : s.phase id <;> first | rfl | (rw [hphase] at hholds; cases hholds)
  exact h.of_holder hholds (h.toBase.goTo (hnext.trans hholds.symm) hgone) rfl
    ((h.operator id).mono rfl rfl rfl hhas hmade (hnext.trans hholds.symm)) hagent hstale

theorem Kept.release (h : Kept cfg s) (hholds : (s.phase id).holds = true) (hnext : next.gone = true)
    (hleft : next = .killed ∨ ∀ node, s.operator = some node → node.maker = some id → id ∈ s.unremoved) :
    Kept cfg ({ s with lock := none }.goTo id next) := by
  have hdown : next.holds = false := by cases next <;> first | rfl | cases hnext
  exact h.of_holder hholds (h.toBase.release hholds hnext hleft) rfl (knownOperator_of_not_holds hdown)
    (knownAgent_of_not_holds hdown) (knownStale_of_not_holds hdown)

/-- The error of a start, before the operator's socket is bound or once the agents' is not to be. -/
theorem Kept.fail (h : Kept cfg s) (target : Target) (hholds : (s.phase id).holds = true)
    (hoperator : target = .operator → (s.phase id).hasOperator = false)
    (hagent : ∀ before, target = .agent before →
      (s.phase id).hasOperator = true ∧ (s.phase id).madeOperator = true) : Kept cfg (s.fail id target) := by
  cases target with
  | operator => exact h.release hholds rfl (.inr ((h.operator id).absent hholds (hoperator rfl)))
  | agent before =>
    obtain ⟨hhas, hmade⟩ := hagent before rfl
    exact h.goTo hholds rfl hhas.symm hmade.symm (knownAgent_of_not_bound rfl fun hfor => by cases hfor)
      (knownStale_of_not_unlinks rfl)

theorem Phase.gone_of_holds (h : phase.holds = true) : phase.gone = false := by
  cases phase <;> first | rfl | cases h

theorem Kept.wait (h : Kept cfg s) (hholds : (s.phase id).holds = false) (hgone : (s.phase id).gone = false)
    (hnext : next.holds = false) : Kept cfg (s.goTo id next) := by
  have hself : (s.goTo id next).phase id = next := phase_goTo_self _ _ _
  have hother : ∀ other, other ≠ id → (s.goTo id next).phase other = s.phase other := fun other hne =>
    phase_goTo_of_ne hne
  refine { toBase := h.toBase.goTo (hnext.trans hholds.symm) hgone, operator := fun other => ?_, agent := fun other => ?_,
           stale := fun other => ?_ } <;> by_cases heq : other = id
  · rw [heq, hself]
    exact knownOperator_of_not_holds hnext
  · rw [hother other heq]
    exact ⟨(h.operator other).bound, (h.operator other).absent⟩
  · rw [heq, hself]
    exact knownAgent_of_not_holds hnext
  · rw [hother other heq]
    exact ⟨(h.agent other).configured, (h.agent other).bound, (h.agent other).seen, (h.agent other).checked⟩
  · rw [heq, hself]
    exact knownStale_of_not_holds hnext
  · rw [hother other heq]
    exact h.stale other

theorem Kept.acquire (h : Kept cfg s) (hfree : s.lock = none) (hphase : s.phase id = .acquiring) :
    Kept cfg ({ s with lock := some id }.goTo id .owning) := by
  have hself : ({ s with lock := some id }.goTo id .owning : State).phase id = .owning := phase_goTo_self _ _ _
  have hothers : ∀ other, other ≠ id → (({ s with lock := some id }.goTo id .owning : State).phase other).holds = false := by
    intro other hne
    rw [phase_goTo_of_ne hne]
    exact eq_false_of_ne_true fun hholds => by
      rw [← h.lock other, hfree] at hholds
      cases hholds
  refine { toBase := h.toBase.acquire hfree hphase, operator := fun other => ?_, agent := fun other => ?_,
           stale := fun other => ?_ } <;> by_cases heq : other = id
  · rw [heq, hself]
    refine ⟨fun hhas => (by cases hhas), fun _ _ node hnode hmaker => ?_⟩
    obtain ⟨-, -, hlives⟩ := h.maker node (.inl hnode) id hmaker
    rw [hphase] at hlives
    rcases hlives with hfalse | hfalse <;> cases hfalse
  · exact knownOperator_of_not_holds (hothers other heq)
  · rw [heq, hself]
    exact knownAgent_of_not_bound rfl fun hfor => by cases hfor
  · exact knownAgent_of_not_holds (hothers other heq)
  · rw [heq, hself]
    exact knownStale_of_not_unlinks rfl
  · exact knownStale_of_not_holds (hothers other heq)

theorem Kept.removedAgent (h : Kept cfg s) (hholds : (s.phase id).holds = true) {ok : Bool}
    (hknown : s.touched .agent = false → ∃ node, s.lookup .agent = some node ∧
      (node.maker = some id ∨ node.facts.isSocket = true ∧ node.facts.uid = cfg.uid))
    (hremove : s.remove id .agent ok = some s') (hnext : next.holds = true)
    (hhas : next.hasOperator = (s.phase id).hasOperator) (hmade : next.madeOperator = (s.phase id).madeOperator)
    (hagent : next.hasAgent = false) (hfor : next.forAgent = true → (s.phase id).forAgent = true)
    (hstale : next.unlinks = none) : Kept cfg (s'.goTo id next) := by
  have hbase := h.toBase.remove hholds hknown hremove
  obtain ⟨node, -, rfl⟩ := remove_eq_some hremove
  refine h.of_holder hholds (hbase.goTo ?_ ?_) (by simp) ?_
    (knownAgent_of_not_bound hagent fun hnext => (h.agent id).configured (hfor hnext)) (knownStale_of_not_unlinks hstale)
  · simp [hnext, hholds]
  · simpa using Phase.gone_of_holds hholds
  · exact (h.operator id).mono (by simp) (by simp) (by simp) hhas hmade (hnext.trans hholds.symm)

/-- The socket at the operator's path is removed, or it is known not to be. -/
theorem Kept.removedOperator (h : Kept cfg s) (hholds : (s.phase id).holds = true) (ok : Bool)
    (hknown : s.touched .operator = false → ∃ node, s.operator = some node ∧
      (node.maker = some id ∨ node.facts.isSocket = true ∧ node.facts.uid = cfg.uid)) :
    ∃ removed, (s.remove id .operator ok).getD { s with unremoved := id :: s.unremoved } = removed ∧ Base cfg removed ∧
      removed.phase = s.phase ∧ removed.lookup .agent = s.lookup .agent ∧ removed.directory = s.directory ∧
      removed.touched = s.touched ∧
      ∀ node, removed.operator = some node → node.maker = some id → id ∈ removed.unremoved := by
  refine ⟨_, rfl, ?_⟩
  cases hremove : s.remove id .operator ok with
  | none =>
    exact ⟨h.toBase.congr rfl rfl rfl rfl rfl (List.subset_cons_self _ _), rfl, rfl, rfl, rfl,
      fun _ _ _ => List.mem_cons_self⟩
  | some removed =>
    have hbase := h.toBase.remove hholds hknown hremove
    obtain ⟨node, -, rfl⟩ := remove_eq_some hremove
    exact ⟨hbase, rfl, rfl, rfl, rfl, fun _ hnone => by cases hnone⟩

theorem Kept.looked (h : Kept cfg s) {target : Target} (hphase : s.phase id = .looking target)
    (hnode : s.lookup target.place = some node) (hsocket : node.facts.isSocket = true) (huid : node.facts.uid = cfg.uid) :
    Kept cfg ({ s with touched := Function.update s.touched target.place false }.goTo id (.unlinking target)) := by
  have hholds : (s.phase id).holds = true := by rw [hphase]; rfl
  have hbase : Base cfg { s with touched := Function.update s.touched target.place false } :=
    h.toBase.congr rfl rfl rfl rfl rfl (List.Subset.refl _)
  refine h.of_holder hholds (hbase.goTo (by rw [hphase]; rfl) (by rw [hphase]; rfl)) rfl ?_
    (knownAgent_of_not_bound rfl fun hfor => (h.agent id).configured (by rw [hphase]; exact hfor)) fun place hplace _ => ?_
  · cases target with
    | operator => exact ⟨fun hhas => (by cases hhas), fun _ _ => (h.operator id).absent hholds (by rw [hphase]; rfl)⟩
    | agent before =>
      exact (h.operator id).mono rfl (by simp [Target.place]) rfl (by rw [hphase]; rfl) (by rw [hphase]; rfl)
        (by rw [hphase]; rfl)
  · obtain rfl := Option.some.inj hplace
    exact ⟨node, hnode, hsocket, huid⟩

theorem Kept.bound (h : Kept cfg s) {target : Target} (hphase : s.phase id = .binding target)
    (hthere : target.place = .agent → s.directory ≠ none) {made : Node} (hmaker : made.maker = some id)
    (hsocket : made.facts.isSocket = true) (huid : made.facts.uid = cfg.uid) :
    Kept cfg ({ s.put target.place (some made) with touched := Function.update s.touched target.place false }.goTo id
      (.restricting target)) := by
  have hholds : (s.phase id).holds = true := by rw [hphase]; rfl
  have hput : Base cfg (s.put target.place (some made)) := by
    refine h.toBase.put _ (fun node hnode other hother => ?_) fun _ node hnode other hother => ?_ <;>
      obtain rfl := Option.some.inj hnode <;> obtain rfl := Option.some.inj (hmaker.symm.trans hother)
    · exact ⟨hsocket, huid, .inl hholds⟩
    · exact .inl hholds
  have hbase : Base cfg { s.put target.place (some made) with touched := Function.update s.touched target.place false } :=
    hput.congr rfl rfl rfl rfl rfl (List.Subset.refl _)
  have hfound : ∃ node, ({ s.put target.place (some made) with
      touched := Function.update s.touched target.place false } : State).lookup target.place = some node ∧
        node.maker = some id := ⟨made, lookup_put s target.place _ hthere, hmaker⟩
  refine h.of_holder hholds (hbase.goTo ?_ ?_) (by simp) ?_ ⟨fun hfor => ?_, fun hhas _ => ?_, fun _ _ heq => (by cases heq),
    fun hchecked => (by cases hchecked)⟩ (knownStale_of_not_unlinks rfl)
  · simp [hphase, Phase.holds]
  · simp [hphase, Phase.gone]
  · cases target with
    | operator =>
      obtain ⟨node, hnode, hown⟩ := hfound
      exact ⟨fun _ _ => ⟨node, hnode, hown, fun hmade => by cases hmade⟩, fun _ hhas => by cases hhas⟩
    | agent before =>
      exact (h.operator id).mono (by simp [Target.place]) (by simp [Target.place]) (by simp)
        (by rw [hphase]; rfl) (by rw [hphase]; rfl) (by rw [hphase]; rfl)
  · exact (h.agent id).configured (by rw [hphase]; exact hfor)
  · cases target with
    | operator => cases hhas
    | agent before =>
      obtain ⟨node, hnode, hown⟩ := hfound
      exact ⟨node, hnode, hown, fun hmade => by cases hmade⟩

theorem Kept.restricted (h : Kept cfg s) {target : Target} (hphase : s.phase id = .restricting target)
    (hnode : s.lookup target.place = some node) :
    Kept cfg ((s.put target.place
      (some { node with facts := { node.facts with mode := State.modeOf cfg id target } })).goTo id
        (State.afterMade cfg id target)) := by
  have hholds : (s.phase id).holds = true := by rw [hphase]; rfl
  have hnext : (State.afterMade cfg id target).holds = true := by
    unfold State.afterMade
    split <;> first | rfl | (split_ifs <;> rfl)
  have hbase : Base cfg (s.put target.place
      (some { node with facts := { node.facts with mode := State.modeOf cfg id target } })) := by
    refine h.toBase.put _ (fun new hnew other hother => ?_) fun hplace new hnew other hother => ?_ <;>
      obtain rfl := Option.some.inj hnew
    · exact h.maker node (onDisk_of_lookup hnode) other hother
    · rw [hplace] at hnode
      exact h.left node hnode other hother
  refine h.of_holder hholds (hbase.goTo ?_ ?_) (by simp) ?_ ?_ (knownStale_of_not_unlinks ?_)
  · rw [hnext, phase_put, hholds]
  · rw [phase_put]
    exact Phase.gone_of_holds hholds
  · cases target with
    | operator =>
      refine ⟨fun _ huntouched => ?_, fun _ hhas => ?_⟩
      · obtain ⟨found, hfound, hmaker, -⟩ := (h.operator id).bound (by rw [hphase]; rfl) huntouched
        obtain rfl := Option.some.inj (hfound.symm.trans hnode)
        exact ⟨_, rfl, hmaker, fun _ => rfl⟩
      · unfold State.afterMade at hhas
        dsimp only at hhas
        split_ifs at hhas <;> cases hhas
    | agent before =>
      exact (h.operator id).mono (by simp [Target.place]) (by simp) (by simp) (by rw [hphase]; rfl) (by rw [hphase]; rfl)
        (by rw [hphase]; rfl)
  · cases target with
    | operator =>
      unfold State.afterMade
      dsimp only
      split_ifs with hagent
      · exact knownAgent_of_not_bound rfl fun _ => Option.isSome_iff_exists.mp hagent
      · exact knownAgent_of_not_bound rfl fun hfor => by cases hfor
    | agent before =>
      have hconfigured := (h.agent id).configured (by rw [hphase]; rfl)
      refine ⟨fun _ => hconfigured, fun _ huntouched => ?_, fun _ _ heq => (by cases heq), fun hchecked => (by cases hchecked)⟩
      obtain ⟨found, hfound, hmaker, -⟩ := (h.agent id).bound (by rw [hphase]; rfl) (by simpa using huntouched)
      obtain rfl := Option.some.inj (hfound.symm.trans hnode)
      refine ⟨_, lookup_put s .agent _ fun _ hnone => ?_, hmaker, fun _ agent hagent => ?_⟩
      · rw [State.lookup, hnone] at hfound
        cases hfound
      · simp [State.modeOf, hagent]
  · unfold State.afterMade
    split <;> first | rfl | (split_ifs <;> rfl)

theorem Kept.lookedAt (h : Kept cfg s) (hphase : s.phase id = .directoryLook ∨ s.phase id = .directoryRelook)
    (facts : Facts) : Kept cfg (s.goTo id (State.afterLook cfg facts)) := by
  have hholds : (s.phase id).holds = true := by rcases hphase with hphase | hphase <;> rw [hphase] <;> rfl
  have hfor : (s.phase id).forAgent = true := by rcases hphase with hphase | hphase <;> rw [hphase] <;> rfl
  unfold State.afterLook
  split_ifs
  · refine h.goTo hholds rfl ?_ ?_ (knownAgent_of_not_bound rfl fun hfalse => by cases hfalse) (knownStale_of_not_unlinks rfl) <;>
      rcases hphase with hphase | hphase <;> rw [hphase] <;> rfl
  · refine h.goTo hholds rfl ?_ ?_ (knownAgent_of_not_bound rfl fun _ => (h.agent id).configured hfor)
      (knownStale_of_not_unlinks rfl) <;> rcases hphase with hphase | hphase <;> rw [hphase] <;> rfl

/-- The start goes on without the Agent endpoint. -/
theorem Kept.without (h : Kept cfg s) (hhas : (s.phase id).hasOperator = true) (hmade : (s.phase id).madeOperator = true) :
    Kept cfg (s.goTo id (.serving false)) :=
  h.goTo (Phase.holds_of_hasOperator hhas) rfl hhas.symm hmade.symm (knownAgent_of_not_bound rfl fun hfor => by cases hfor)
    (knownStale_of_not_unlinks rfl)

theorem Kept.advance (h : Kept cfg s) {ok : Bool} {fresh : ℕ × ℕ} (hstep : s.advance cfg id ok fresh = some s') :
    Kept cfg s' := by
  unfold State.advance at hstep
  cases hphase : s.phase id with
  | idle | serving | ended | killed =>
    rw [hphase] at hstep
    cases hstep
  | acquiring =>
    rw [hphase] at hstep
    obtain rfl := Option.some.inj hstep
    split_ifs with hfree
    · rw [Bool.and_eq_true, Option.isNone_iff_eq_none] at hfree
      exact h.acquire hfree.2 hphase
    · exact h.wait (by rw [hphase]; rfl) (by rw [hphase]; rfl) rfl
  | owning | opening =>
    rw [hphase] at hstep
    obtain rfl := Option.some.inj hstep
    have hholds : (s.phase id).holds = true := by rw [hphase]; rfl
    split_ifs
    · exact h.goTo hholds rfl (by rw [hphase]; rfl) (by rw [hphase]; rfl) (knownAgent_of_not_bound rfl fun hfor => by cases hfor)
        (knownStale_of_not_unlinks rfl)
    · exact h.fail .operator hholds (fun _ => by rw [hphase]; rfl) fun _ heq => by cases heq
  | looking target =>
    rw [hphase] at hstep
    obtain rfl := Option.some.inj hstep
    have hholds : (s.phase id).holds = true := by rw [hphase]; rfl
    have hfail : Kept cfg (s.fail id target) :=
      h.fail target hholds (fun heq => by rw [hphase, heq]; rfl) fun before heq => by rw [hphase, heq]; exact ⟨rfl, rfl⟩
    split
    · exact hfail
    · split
      · exact h.goTo hholds rfl (by rw [hphase]; cases target <;> rfl) (by rw [hphase]; cases target <;> rfl)
          (knownAgent_of_not_bound rfl fun hfor => (h.agent id).configured (by rw [hphase]; exact hfor))
          (knownStale_of_not_unlinks rfl)
      · rename_i node hnode
        split_ifs with hstale
        · rw [Bool.and_eq_true, beq_iff_eq] at hstale
          exact h.looked hphase hnode hstale.1 hstale.2
        · exact hfail
  | unlinking target =>
    rw [hphase] at hstep
    obtain rfl := Option.some.inj hstep
    have hholds : (s.phase id).holds = true := by rw [hphase]; rfl
    split
    · rename_i removed hremove
      have hknown : s.touched target.place = false → ∃ node, s.lookup target.place = some node ∧
          (node.maker = some id ∨ node.facts.isSocket = true ∧ node.facts.uid = cfg.uid) := fun huntouched => by
        obtain ⟨node, hnode, hstale⟩ := h.stale id target.place (by rw [hphase]; rfl) huntouched
        exact ⟨node, hnode, .inr hstale⟩
      cases target with
      | operator =>
        have hbase := h.toBase.remove hholds hknown hremove
        obtain ⟨node, -, rfl⟩ := remove_eq_some hremove
        refine h.of_holder hholds (hbase.goTo ?_ ?_) rfl ⟨fun hhas => (by cases hhas), fun _ _ _ hnone => (by cases hnone)⟩
          (knownAgent_of_not_bound rfl fun hfor => by cases hfor) (knownStale_of_not_unlinks rfl)
        · simpa [State.put, Target.place, Phase.holds] using hholds.symm
        · simpa [State.put, Target.place] using Phase.gone_of_holds hholds
      | agent before =>
        exact h.removedAgent hholds hknown hremove rfl (by rw [hphase]; rfl) (by rw [hphase]; rfl) rfl
          (fun _ => by rw [hphase]; rfl) rfl
    · exact h.fail target hholds (fun heq => by rw [hphase, heq]; rfl) fun before heq => by rw [hphase, heq]; exact ⟨rfl, rfl⟩
  | binding target =>
    rw [hphase] at hstep
    obtain rfl := Option.some.inj hstep
    split_ifs with hbind
    · simp only [Bool.and_eq_true, Bool.or_eq_true, beq_iff_eq] at hbind
      refine h.bound hphase (fun hplace hnone => ?_) rfl rfl rfl
      rw [hplace, hnone] at hbind
      rcases hbind.2 with hfalse | hfalse <;> cases hfalse
    · exact h.fail target (by rw [hphase]; rfl) (fun heq => by rw [hphase, heq]; rfl) fun before heq => by
        rw [hphase, heq]; exact ⟨rfl, rfl⟩
  | restricting target =>
    rw [hphase] at hstep
    obtain rfl := Option.some.inj hstep
    split
    · rename_i node hnode
      exact h.restricted hphase hnode
    · refine h.goTo (by rw [hphase]; rfl) rfl (by rw [hphase]; cases target <;> rfl) (by rw [hphase]; cases target <;> rfl)
        ((h.agent id).mono rfl rfl rfl ?_ ?_ ?_ (fun _ _ heq => by cases heq) ?_) (knownStale_of_not_unlinks rfl) <;>
        rw [hphase] <;> cases target <;> exact fun hsame => hsame
  | discarding target =>
    rw [hphase] at hstep
    obtain rfl := Option.some.inj hstep
    have hholds : (s.phase id).holds = true := by rw [hphase]; rfl
    cases target with
    | operator =>
      obtain ⟨removed, heq, hbase, hsame, -, -, -, hleft⟩ := h.removedOperator hholds ok fun huntouched => by
        obtain ⟨node, hnode, hmaker, -⟩ := (h.operator id).bound (by rw [hphase]; rfl) huntouched
        exact ⟨node, hnode, .inl hmaker⟩
      rw [if_pos rfl]
      change Kept cfg (State.fail ((s.remove id .operator ok).getD _) id .operator)
      rw [heq]
      have hreleased : Base cfg (({ removed with lock := none } : State).goTo id .ended) :=
        hbase.release (by rw [hsame]; exact hholds) rfl (.inr hleft)
      exact h.of_holder hholds hreleased hsame (knownOperator_of_not_holds rfl) (knownAgent_of_not_holds rfl) (knownStale_of_not_holds rfl)
    | agent before =>
      have hhas : (s.phase id).hasOperator = true := by rw [hphase]; rfl
      have hmade : (s.phase id).madeOperator = true := by rw [hphase]; rfl
      rw [if_neg (by simp)]
      change Kept cfg (((s.remove id .agent ok).getD s).goTo id (.serving false))
      cases hremove : s.remove id .agent ok with
      | none => exact h.without hhas hmade
      | some removed =>
        refine h.removedAgent hholds (fun huntouched => ?_) hremove rfl hhas.symm hmade.symm rfl (fun hfor => by cases hfor) rfl
        obtain ⟨node, hnode, hmaker, -⟩ := (h.agent id).bound (by rw [hphase]; rfl) huntouched
        exact ⟨node, hnode, .inl hmaker⟩
  | directoryLook =>
    rw [hphase] at hstep
    obtain rfl := Option.some.inj hstep
    have hhas : (s.phase id).hasOperator = true := by rw [hphase]; rfl
    have hmade : (s.phase id).madeOperator = true := by rw [hphase]; rfl
    split
    · exact h.without hhas hmade
    · split
      · exact h.lookedAt (.inl hphase) _
      · exact h.goTo (Phase.holds_of_hasOperator hhas) rfl hhas.symm hmade.symm
          (knownAgent_of_not_bound rfl fun _ => (h.agent id).configured (by rw [hphase]; rfl)) (knownStale_of_not_unlinks rfl)
  | directoryMake =>
    rw [hphase] at hstep
    obtain rfl := Option.some.inj hstep
    have hhas : (s.phase id).hasOperator = true := by rw [hphase]; rfl
    have hmade : (s.phase id).madeOperator = true := by rw [hphase]; rfl
    have hholds := Phase.holds_of_hasOperator hhas
    have hconfigured := (h.agent id).configured (by rw [hphase]; rfl)
    split
    · have hbase : Base cfg { s with
          directory := some { isDirectory := true, uid := cfg.uid, mode := 0o700, device := fresh.1, inode := fresh.2 }
          inside := Function.update s.inside fresh none } := by
        refine ⟨h.lock, fun node hnode => h.maker node (hnode.imp_right fun ⟨directory, hinside⟩ => ?_), h.removals, h.left⟩
        by_cases heq : directory = fresh
        · rw [heq] at hinside
          simp at hinside
        · exact ⟨directory, by simpa [Function.update_of_ne heq] using hinside⟩
      exact h.of_holder hholds (hbase.goTo hholds.symm (Phase.gone_of_holds hholds)) rfl
        ((h.operator id).mono rfl rfl rfl hhas.symm hmade.symm hholds.symm)
        (knownAgent_of_not_bound rfl fun _ => hconfigured) (knownStale_of_not_unlinks rfl)
    · split_ifs
      · exact h.goTo hholds rfl hhas.symm hmade.symm (knownAgent_of_not_bound rfl fun _ => hconfigured)
          (knownStale_of_not_unlinks rfl)
      · exact h.without hhas hmade
    · exact h.without hhas hmade
  | directoryRelook =>
    rw [hphase] at hstep
    obtain rfl := Option.some.inj hstep
    split
    · exact h.lookedAt (.inr hphase) _
    · exact h.without (by rw [hphase]; rfl) (by rw [hphase]; rfl)
  | readingDirectory before =>
    rw [hphase] at hstep
    obtain rfl := Option.some.inj hstep
    have hagent := h.agent id
    rw [hphase] at hagent
    refine h.goTo (by rw [hphase]; rfl) rfl (by rw [hphase]; rfl) (by rw [hphase]; rfl)
      ⟨fun _ => hagent.configured rfl, fun _ => hagent.bound rfl, fun _ now heq _ => ?_, fun hchecked => by cases hchecked⟩
      (knownStale_of_not_unlinks rfl)
    obtain ⟨-, hnow⟩ := Phase.readingSocket.inj heq
    split_ifs at hnow
    exact hnow
  | readingSocket before now =>
    rw [hphase] at hstep
    obtain rfl := Option.some.inj hstep
    have hagent := h.agent id
    rw [hphase] at hagent
    have hhas : (s.phase id).hasOperator = true := by rw [hphase]; rfl
    have hmade : (s.phase id).madeOperator = true := by rw [hphase]; rfl
    have hholds := Phase.holds_of_hasOperator hhas
    have hagain : Kept cfg (s.goTo id (.rereading before)) :=
      h.goTo hholds rfl hhas.symm hmade.symm (knownAgent_of_not_bound rfl fun _ => hagent.configured rfl)
        (knownStale_of_not_unlinks rfl)
    split
    · rename_i now made _
      split_ifs with hproblem
      · exact hagain
      · refine h.goTo hholds rfl hhas.symm hmade.symm ⟨fun _ => hagent.configured rfl, fun _ => hagent.bound rfl,
          fun _ _ heq => (by cases heq), fun _ huntouched => ⟨now, hagent.seen before now rfl huntouched, ?_⟩⟩
          (knownStale_of_not_unlinks rfl)
        exact eq_none_of_afterBindProblem (Option.not_isSome_iff_eq_none.mp hproblem)
    · exact hagain
  | rereading before =>
    rw [hphase] at hstep
    obtain rfl := Option.some.inj hstep
    exact h.goTo (by rw [hphase]; rfl) rfl (by rw [hphase]; rfl) (by rw [hphase]; rfl)
      (knownAgent_of_not_bound rfl fun _ => (h.agent id).configured (by rw [hphase]; rfl)) (knownStale_of_not_unlinks rfl)
  | reexamining sameDirectory =>
    rw [hphase] at hstep
    obtain rfl := Option.some.inj hstep
    have hhas : (s.phase id).hasOperator = true := by rw [hphase]; rfl
    have hmade : (s.phase id).madeOperator = true := by rw [hphase]; rfl
    have hholds := Phase.holds_of_hasOperator hhas
    split_ifs with hours
    · have hbase : Base cfg { s with touched := Function.update s.touched .agent false } :=
        h.toBase.congr rfl rfl rfl rfl rfl (List.Subset.refl _)
      refine h.of_holder hholds (hbase.goTo hholds.symm (Phase.gone_of_holds hholds)) rfl
        ((h.operator id).mono rfl (by simp) rfl hhas.symm hmade.symm hholds.symm)
        (knownAgent_of_not_bound rfl fun _ => (h.agent id).configured (by rw [hphase]; rfl)) fun place hplace _ => ?_
      obtain rfl := Option.some.inj hplace
      simp only [Bool.and_eq_true, Option.any_eq_true, beq_iff_eq] at hours
      obtain ⟨node, hnode, hsocket, huid⟩ := hours.2.2
      exact ⟨node, hnode, hsocket, huid⟩
    · exact h.without hhas hmade
  | undoing =>
    rw [hphase] at hstep
    obtain rfl := Option.some.inj hstep
    have hhas : (s.phase id).hasOperator = true := by rw [hphase]; rfl
    have hmade : (s.phase id).madeOperator = true := by rw [hphase]; rfl
    cases hremove : s.remove id .agent ok with
    | none => exact h.without hhas hmade
    | some removed =>
      refine h.removedAgent (Phase.holds_of_hasOperator hhas) (fun huntouched => ?_) hremove rfl hhas.symm hmade.symm rfl
        (fun hfor => by cases hfor) rfl
      obtain ⟨node, hnode, hstale⟩ := h.stale id .agent (by rw [hphase]; rfl) huntouched
      exact ⟨node, hnode, .inr hstale⟩
  | stopping agent =>
    rw [hphase] at hstep
    obtain rfl := Option.some.inj hstep
    exact h.goTo (by rw [hphase]; rfl) rfl (by rw [hphase]; rfl) (by rw [hphase]; rfl)
      ((h.agent id).mono rfl rfl rfl (by rw [hphase]; cases agent <;> exact fun hsame => hsame)
        (by rw [hphase]; cases agent <;> exact fun hsame => hsame) (by rw [hphase]; cases agent <;> exact fun hsame => hsame)
        (fun _ _ heq => by cases heq) fun hchecked => by cases hchecked) (knownStale_of_not_unlinks rfl)
  | removing agent =>
    rw [hphase] at hstep
    obtain rfl := Option.some.inj hstep
    have hholds : (s.phase id).holds = true := by rw [hphase]; rfl
    obtain ⟨removed, heq, hbase, hsame, hlookup, hdirectory, htouched, hleft⟩ := h.removedOperator hholds ok
      fun huntouched => by
        obtain ⟨node, hnode, hmaker, -⟩ := (h.operator id).bound (by rw [hphase]; rfl) huntouched
        exact ⟨node, hnode, .inl hmaker⟩
    rw [heq]
    cases agent with
    | true =>
      exact h.of_holder hholds (hbase.goTo (by rw [hsame, hholds]; rfl) (by rw [hsame]; exact Phase.gone_of_holds hholds)) hsame
        ⟨fun hhas => (by cases hhas), fun _ _ => hleft⟩
        ((h.agent id).mono hlookup hdirectory (by rw [htouched]) (fun _ => by rw [hphase]; rfl) (fun _ => by rw [hphase]; rfl)
          (fun _ => by rw [hphase]; rfl) (fun _ _ heq => by cases heq) fun hchecked => by cases hchecked)
        (knownStale_of_not_unlinks rfl)
    | false =>
      exact h.of_holder hholds (hbase.goTo (by rw [hsame, hholds]; rfl) (by rw [hsame]; exact Phase.gone_of_holds hholds)) hsame
        ⟨fun hhas => (by cases hhas), fun _ _ => hleft⟩ (knownAgent_of_not_bound rfl fun hfor => by cases hfor)
        (knownStale_of_not_unlinks rfl)
  | removingAgent =>
    rw [hphase] at hstep
    obtain rfl := Option.some.inj hstep
    have hholds : (s.phase id).holds = true := by rw [hphase]; rfl
    cases hremove : s.remove id .agent ok with
    | none =>
      exact h.goTo hholds rfl (by rw [hphase]; rfl) (by rw [hphase]; rfl)
        (knownAgent_of_not_bound rfl fun hfor => by cases hfor) (knownStale_of_not_unlinks rfl)
    | some removed =>
      refine h.removedAgent hholds (fun huntouched => ?_) hremove rfl (by rw [hphase]; rfl) (by rw [hphase]; rfl) rfl
        (fun hfor => by cases hfor) rfl
      obtain ⟨node, hnode, hmaker, -⟩ := (h.agent id).bound (by rw [hphase]; rfl) huntouched
      exact ⟨node, hnode, .inl hmaker⟩
  | releasing =>
    rw [hphase] at hstep
    obtain rfl := Option.some.inj hstep
    have hholds : (s.phase id).holds = true := by rw [hphase]; rfl
    exact h.release hholds rfl (.inr ((h.operator id).absent hholds (by rw [hphase]; rfl)))

/-- Somebody else changes the place, which no server then takes for its own. -/
theorem Kept.replaced (h : Kept cfg s) (hlock : s'.lock = s.lock) (hphase : s'.phase = s.phase)
    (hremovals : s'.removals = s.removals) (hunremoved : s'.unremoved = s.unremoved)
    (hdisk : ∀ node, (s'.operator = some node ∨ ∃ directory, s'.inside directory = some node) →
      node.maker = none ∨ s.operator = some node ∨ ∃ directory, s.inside directory = some node)
    (hoperator : s'.operator = s.operator ∧ s'.touched .operator = s.touched .operator ∨
      s'.touched .operator = true ∧ ∀ node, s'.operator = some node → node.maker = none)
    (hagent : s'.lookup .agent = s.lookup .agent ∧ s'.directory = s.directory ∧ s'.touched .agent = s.touched .agent ∨
      s'.touched .agent = true) : Kept cfg s' := by
  refine { lock := hlock ▸ hphase ▸ h.lock, maker := fun node hnode id hid => ?_, removals := hremovals ▸ hphase ▸ h.removals,
           left := fun node hnode id hid => ?_, operator := fun id => ?_, agent := fun id => ?_, stale := fun id => ?_ }
  · rw [hphase]
    rcases hdisk node hnode with hnone | hold
    · rw [hnone] at hid
      cases hid
    · exact h.maker node hold id hid
  · rw [hphase, hunremoved]
    rcases hoperator with ⟨hsame, -⟩ | ⟨-, hnone⟩
    · exact h.left node (hsame ▸ hnode) id hid
    · rw [hnone node hnode] at hid
      cases hid
  · rw [hphase]
    rcases hoperator with ⟨hsame, htouched⟩ | ⟨htouched, hnone⟩
    · exact (h.operator id).mono hsame htouched hunremoved rfl rfl rfl
    · refine ⟨fun _ huntouched => ?_, fun _ _ node hnode hid => ?_⟩
      · rw [htouched] at huntouched
        cases huntouched
      · rw [hnone node hnode] at hid
        cases hid
  · rw [hphase]
    rcases hagent with ⟨hlookup, hdirectory, htouched⟩ | htouched
    · refine ⟨(h.agent id).configured, fun hhas huntouched => ?_, fun before now heq huntouched => ?_,
        fun hchecked huntouched => ?_⟩
      · rw [hlookup]
        exact (h.agent id).bound hhas (htouched ▸ huntouched)
      · rw [hdirectory]
        exact (h.agent id).seen before now heq (htouched ▸ huntouched)
      · rw [hdirectory]
        exact (h.agent id).checked hchecked (htouched ▸ huntouched)
    · refine ⟨(h.agent id).configured, fun _ huntouched => ?_, fun _ _ _ huntouched => ?_, fun _ huntouched => ?_⟩ <;>
      · rw [htouched] at huntouched
        cases huntouched
  · rw [hphase]
    intro place hplace huntouched
    cases place with
    | operator =>
      rcases hoperator with ⟨hsame, htouched⟩ | ⟨htouched, -⟩
      · obtain ⟨node, hnode, hstale⟩ := h.stale id .operator hplace (htouched ▸ huntouched)
        exact ⟨node, hsame.trans hnode, hstale⟩
      · rw [htouched] at huntouched
        cases huntouched
    | agent =>
      rcases hagent with ⟨hlookup, -, htouched⟩ | htouched
      · obtain ⟨node, hnode, hstale⟩ := h.stale id .agent hplace (htouched ▸ huntouched)
        exact ⟨node, hlookup.trans hnode, hstale⟩
      · rw [htouched] at huntouched
        cases huntouched

theorem Kept.leave (h : Kept cfg s) {agent : Bool} (hphase : s.phase id = .serving agent ∨ s.phase id = .stopping agent)
    (hnext : next = .stopping agent ∨ next = .removing agent) : Kept cfg (s.goTo id next) := by
  have hholds : (s.phase id).holds = true := by rcases hphase with hphase | hphase <;> rw [hphase] <;> rfl
  refine h.goTo hholds ?_ ?_ ?_ ((h.agent id).mono rfl rfl rfl ?_ ?_ ?_ ?_ ?_) (knownStale_of_not_unlinks ?_) <;>
    rcases hphase with hphase | hphase <;> rcases hnext with rfl | rfl <;> (try rw [hphase]) <;> cases agent <;>
    first | rfl | exact fun hsame => hsame | exact fun _ => rfl | exact fun _ _ heq => by cases heq

theorem Kept.step (h : Kept cfg s) {a : Action} (hstep : s.step cfg a = some s') : Kept cfg s' := by
  cases a with
  | start id =>
    simp only [State.step] at hstep
    split_ifs at hstep with hphase
    obtain rfl := Option.some.inj hstep
    exact h.wait (by rw [hphase]; rfl) (by rw [hphase]; rfl) rfl
  | advance id ok fresh => exact h.advance hstep
  | shutdown id =>
    simp only [State.step] at hstep
    split at hstep
    · rename_i agent hphase
      obtain rfl := Option.some.inj hstep
      exact h.leave (.inl hphase) (.inl rfl)
    · cases hstep
  | drop id =>
    simp only [State.step] at hstep
    split at hstep
    · rename_i agent hphase
      obtain rfl := Option.some.inj hstep
      exact h.leave (.inl hphase) (.inr rfl)
    · rename_i agent hphase
      obtain rfl := Option.some.inj hstep
      exact h.leave (.inr hphase) (.inr rfl)
    · cases hstep
  | kill id =>
    simp only [State.step] at hstep
    split at hstep
    · cases hstep
    · cases hstep
    · cases hstep
    · rename_i hidle hended hkilled
      obtain rfl := Option.some.inj hstep
      cases hholds : (s.phase id).holds with
      | true =>
        rw [if_pos ((h.lock id).mpr hholds)]
        exact h.release hholds rfl (.inl rfl)
      | false =>
        have hnot : s.lock ≠ some id := fun hmine => by
          rw [(h.lock id).mp hmine] at hholds
          cases hholds
        rw [if_neg hnot]
        refine h.wait hholds ?_ rfl
        cases hphase : s.phase id <;> first | rfl | exact absurd hphase hended | exact absurd hphase hkilled
  | replaceOperator node =>
    obtain rfl := Option.some.inj hstep
    have hmaker : ∀ found, (node.map fun facts => ({ facts } : Node)) = some found → found.maker = none := by
      intro found hfound
      obtain ⟨facts, -, rfl⟩ := Option.map_eq_some_iff.mp hfound
      rfl
    exact h.replaced rfl rfl rfl rfl (fun found hfound => hfound.imp (hmaker found) fun hinside => .inr hinside)
      (.inr ⟨by simp, hmaker⟩) (.inl ⟨rfl, rfl, by simp⟩)
  | replaceDirectory facts =>
    obtain rfl := Option.some.inj hstep
    exact h.replaced rfl rfl rfl rfl (fun found hfound => .inr hfound) (.inl ⟨rfl, by simp⟩) (.inr (by simp))
  | replaceInside directory node =>
    obtain rfl := Option.some.inj hstep
    refine h.replaced rfl rfl rfl rfl (fun found hfound => ?_) (.inl ⟨rfl, by simp⟩) (.inr (by simp))
    rcases hfound with hfound | ⟨other, hfound⟩
    · exact .inr (.inl hfound)
    · change Function.update s.inside directory _ other = some found at hfound
      by_cases heq : other = directory
      · rw [heq, Function.update_self] at hfound
        obtain ⟨facts, -, rfl⟩ := Option.map_eq_some_iff.mp hfound
        exact .inl rfl
      · rw [Function.update_of_ne heq] at hfound
        exact .inr (.inr ⟨other, hfound⟩)

theorem kept_of_reachable (h : (servers cfg).Reachable s) : Kept cfg s := by
  refine Machine.Reachable.invariant (I := Kept cfg) (fun s hinit => ?_) (fun s a s' _ hi hstep => hi.step hstep) h
  obtain rfl : s = {} := hinit
  refine { lock := fun id => ⟨fun hnone => (by cases hnone), fun hholds => (by cases hholds)⟩,
           maker := fun node hnode => ?_, removals := fun _ hmem => (by cases hmem),
           left := fun _ hnone => (by cases hnone), operator := fun _ => knownOperator_of_not_holds rfl,
           agent := fun _ => knownAgent_of_not_holds rfl, stale := fun _ => knownStale_of_not_holds rfl }
  rcases hnode with hnone | ⟨directory, hnone⟩ <;> cases hnone

/-! ### A server that starts alone -/

/-- The server starts, or makes its next call. -/
inductive Action.Own (id : ServerId) : Action → Prop
  | start : Own id (.start id)
  | advance (ok : Bool) (fresh : ℕ × ℕ) : Own id (.advance id ok fresh)

/-- Steps of its own lead the server to serve. -/
def ComesToServe (cfg : Config) (s : State) (id : ServerId) : Prop :=
  ∃ acts s' agent, (∀ a ∈ acts, Action.Own id a) ∧ (servers cfg).exec s acts = some s' ∧ s'.phase id = .serving agent

theorem comesToServe_of_serving {agent : Bool} (hphase : s.phase id = .serving agent) : ComesToServe cfg s id :=
  ⟨[], s, agent, fun _ hmem => (by cases hmem), rfl, hphase⟩

theorem ComesToServe.of_step {a : Action} (hown : Action.Own id a) (hstep : s.step cfg a = some s')
    (h : ComesToServe cfg s' id) : ComesToServe cfg s id := by
  obtain ⟨acts, later, agent, hacts, hexec, hserving⟩ := h
  refine ⟨a :: acts, later, agent, fun a' hmem => ?_, ?_, hserving⟩
  · rcases List.mem_cons.mp hmem with rfl | hmem
    · exact hown
    · exact hacts a' hmem
  · rw [Machine.exec_cons]
    exact Option.bind_eq_some_iff.mpr ⟨s', hstep, hexec⟩

/-- A call that goes through, for the files made here under any name. -/
def through (id : ServerId) : Action := .advance id true (0, 0)

theorem own_through (id : ServerId) : Action.Own id (through id) := .advance true (0, 0)

theorem comesToServe_of_restricting (hphase : s.phase id = .restricting .operator) (hnode : s.operator = some node) :
    ComesToServe cfg s id := by
  have hstep : s.step cfg (through id) = some ((s.put .operator
      (some { node with facts := { node.facts with mode := 0o600 } })).goTo id (State.afterMade cfg id .operator)) := by
    simp [through, State.step, State.advance, State.lookup, State.modeOf, Target.place, hphase, hnode]
  refine .of_step (own_through id) hstep ?_
  generalize s.put .operator (some { node with facts := { node.facts with mode := 0o600 } }) = m
  unfold State.afterMade
  dsimp only
  split_ifs
  · have hwithout : (m.goTo id .directoryLook).step cfg (.advance id false (0, 0)) =
        some ((m.goTo id .directoryLook).goTo id (.serving false)) := by
      simp [State.step, State.advance]
    exact .of_step (.advance false (0, 0)) hwithout (comesToServe_of_serving (phase_goTo_self _ _ _))
  · exact comesToServe_of_serving (phase_goTo_self _ _ _)

theorem comesToServe_of_binding (hphase : s.phase id = .binding .operator) (hnone : s.operator = none) :
    ComesToServe cfg s id := by
  have hstep : s.step cfg (through id) = some ({ s with
      operator := some ⟨{ isSocket := true, uid := cfg.uid, mode := 0o755, device := 0, inode := 0 }, some id⟩
      touched := Function.update s.touched .operator false }.goTo id (.restricting .operator)) := by
    simp [through, State.step, State.advance, State.lookup, State.put, Target.place, hphase, hnone]
  exact .of_step (own_through id) hstep (comesToServe_of_restricting (phase_goTo_self _ _ _) rfl)

/-- What a server leaves that was killed. -/
def Stale (cfg : Config) (node : Node) : Prop :=
  node.facts.isSocket = true ∧ node.facts.uid = cfg.uid ∧ node.facts.isDirectory = false

theorem comesToServe_of_unlinking (hphase : s.phase id = .unlinking .operator) (hnode : s.operator = some node)
    (hfile : node.facts.isDirectory = false) : ComesToServe cfg s id := by
  have hstep : s.step cfg (through id) = some ({ s with
      operator := none
      removals := s.removals ++ [(⟨id, node, s.touched .operator⟩ : Removal)] }.goTo id (.binding .operator)) := by
    simp [through, State.step, State.advance, State.remove, State.lookup, State.put, Target.place, hphase, hnode, hfile]
  exact .of_step (own_through id) hstep (comesToServe_of_binding (phase_goTo_self _ _ _) rfl)

theorem comesToServe_of_looking (hphase : s.phase id = .looking .operator)
    (hstale : ∀ node, s.operator = some node → Stale cfg node) : ComesToServe cfg s id := by
  cases hnode : s.operator with
  | none =>
    have hstep : s.step cfg (through id) = some (s.goTo id (.binding .operator)) := by
      simp [through, State.step, State.advance, State.lookup, Target.place, hphase, hnode]
    exact .of_step (own_through id) hstep (comesToServe_of_binding (phase_goTo_self _ _ _) hnode)
  | some node =>
    obtain ⟨hsocket, huid, hfile⟩ := hstale node hnode
    have hstep : s.step cfg (through id) =
        some ({ s with touched := Function.update s.touched .operator false }.goTo id (.unlinking .operator)) := by
      simp [through, State.step, State.advance, State.lookup, Target.place, hphase, hnode, hsocket, huid]
    exact .of_step (own_through id) hstep (comesToServe_of_unlinking (phase_goTo_self _ _ _) hnode hfile)

theorem comesToServe_of_idle (hphase : s.phase id = .idle) (hfree : s.lock = none)
    (hfits : pathTooLong cfg.operatorSocket = false) (hstale : ∀ node, s.operator = some node → Stale cfg node) :
    ComesToServe cfg s id := by
  have hstart : s.step cfg (.start id) = some (s.goTo id .acquiring) := by simp [State.step, hphase]
  have hacquire : (s.goTo id .acquiring).step cfg (through id) =
      some ({ s.goTo id .acquiring with lock := some id }.goTo id .owning) := by
    simp [through, State.step, State.advance, show (s.goTo id .acquiring).lock = none from hfree]
  generalize hm : ({ s.goTo id .acquiring with lock := some id } : State) = m at hacquire
  have hsame : m.operator = s.operator := by rw [← hm]; rfl
  have hown : (m.goTo id .owning).step cfg (through id) = some ((m.goTo id .owning).goTo id .opening) := by
    simp [through, State.step, State.advance]
  have hopen : ((m.goTo id .owning).goTo id .opening).step cfg (through id) =
      some (((m.goTo id .owning).goTo id .opening).goTo id (.looking .operator)) := by
    simp [through, State.step, State.advance, hfits]
  have hserves : ComesToServe cfg (((m.goTo id .owning).goTo id .opening).goTo id (.looking .operator)) id :=
    comesToServe_of_looking (phase_goTo_self _ _ _) fun node hnode => hstale node (hsame ▸ hnode)
  exact .of_step .start hstart (.of_step (own_through id) hacquire (.of_step (own_through id) hown
    (.of_step (own_through id) hopen hserves)))

/-! ### One server -/

/-- What the servers of a data directory can rely on. -/
structure OneServer (cfg : Config) (s : State) : Prop where
  exclusive : ∀ id other, (s.phase id).holds = true → (s.phase other).holds = true → id = other
  /-- A server that serves is reached at the operator's path. -/
  serving : ∀ id agent, s.phase id = .serving agent → s.touched .operator = false →
    ∃ node, s.operator = some node ∧ node.maker = some id ∧ node.facts.isSocket = true ∧ node.facts.uid = cfg.uid ∧
      node.facts.mode = 0o600
  /-- And at the agents', in a directory that passes the checks. -/
  servingAgents : ∀ id, s.phase id = .serving true → ∃ agent, cfg.agentOf id = some agent ∧
    (s.touched .agent = false → ∃ directory node, s.directory = some directory ∧ directoryProblem directory cfg.uid = none ∧
      s.inside directory.identity = some node ∧ node.maker = some id ∧ node.facts.isSocket = true ∧
      node.facts.mode = agent.mode)
  /-- Nothing is removed but a socket of the account, and of no other server that still holds the lock. -/
  removals : ∀ removal ∈ s.removals,
    (removal.touched = true ∨ removal.node.facts.isSocket = true ∧ removal.node.facts.uid = cfg.uid) ∧
      ∀ id, removal.node.maker = some id → id = removal.server ∨ (s.phase id).gone = true
  /-- Only a server that was killed, or whose call failed, leaves its operator socket. -/
  left : ∀ node, s.operator = some node → ∀ id, node.maker = some id →
    (s.phase id).holds = true ∨ s.phase id = .killed ∨ id ∈ s.unremoved
  /-- Once the lock is free the next server can serve, unless something else is at the operator's path. -/
  next : ∀ id, s.phase id = .idle → (∀ other, (s.phase other).holds = false) → pathTooLong cfg.operatorSocket = false →
    (∀ node, s.operator = some node → Stale cfg node) → ComesToServe cfg s id

/-- **One server of a data directory.** Whatever servers start, fail, serve, shut down, are dropped or killed, in any order
of their steps, and whatever others do to the places they can write to. -/
theorem one_server (cfg : Config) (s : State) (h : (servers cfg).Reachable s) : OneServer cfg s := by
  have hkept := kept_of_reachable h
  refine ⟨fun id other hholds hother => ?_, fun id agent hphase huntouched => ?_, fun id hphase => ?_, hkept.removals,
    hkept.left, fun id hphase hfree hfits hstale => comesToServe_of_idle hphase ?_ hfits hstale⟩
  · rw [← hkept.lock id] at hholds
    rw [← hkept.lock other, hholds] at hother
    exact Option.some.inj hother
  · obtain ⟨node, hnode, hmaker, hmode⟩ := (hkept.operator id).bound (by rw [hphase]; rfl) huntouched
    obtain ⟨hsocket, huid, -⟩ := hkept.maker node (.inl hnode) id hmaker
    exact ⟨node, hnode, hmaker, hsocket, huid, hmode (by rw [hphase]; rfl)⟩
  · obtain ⟨agent, hagent⟩ := (hkept.agent id).configured (by rw [hphase]; rfl)
    refine ⟨agent, hagent, fun huntouched => ?_⟩
    obtain ⟨directory, hdirectory, hproper⟩ := (hkept.agent id).checked (by rw [hphase]; rfl) huntouched
    obtain ⟨node, hnode, hmaker, hmode⟩ := (hkept.agent id).bound (by rw [hphase]; rfl) huntouched
    have hinside : s.inside directory.identity = some node := by simpa [State.lookup, hdirectory] using hnode
    exact ⟨directory, node, hdirectory, hproper, hinside, hmaker,
      (hkept.maker node (.inr ⟨_, hinside⟩) id hmaker).1, hmode (by rw [hphase]; rfl) agent hagent⟩
  · refine Option.eq_none_iff_forall_ne_some.mpr fun other hlock => ?_
    have hholds := (hkept.lock other).mp hlock
    rw [hfree other] at hholds
    cases hholds

/-- Servers without an Agent endpoint. -/
def plainConfig : Config where
  uid := 501
  operatorSocket := "run/operator.sock"
  agent _ := none
  tokensUsable _ := true

/-- A server is killed while it serves; the next one removes its socket and serves. -/
def succession : State :=
  ((servers plainConfig).exec {} (.start 0 :: List.replicate 6 (through 0) ++ .kill 0 :: .start 1 ::
    List.replicate 7 (through 1))).get (by decide)

theorem one_server_succession : succession.phase 0 = .killed ∧ succession.phase 1 = .serving false ∧
    succession.removals.map (·.node.maker) = [some 0] ∧ OneServer plainConfig succession :=
  ⟨by decide, by decide, by decide, one_server plainConfig succession
    (Machine.reachable_of_exec (M := servers plainConfig) {} _ rfl (Option.some_get _).symm)⟩

end Known

end DenonAvr.Server.Instance
