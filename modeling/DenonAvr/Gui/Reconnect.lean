import DenonAvr.Gui.Supplemental

/-!
# Reads across reconnects

The window with one chosen receiver, whatever its bridge reports and whenever the reads that it started end. A flag
keeps a second read of a kind from being started while the first is under way, and a result that is stamped with another
generation than the window's is discarded. So a connection that begins while a read of the connection before is under
way never gets its own: the request is skipped, and what was read is thrown away (`not_readsKept`). In runs in which no
read of another generation is under way when a connection begins, or when the source catalog is marked as read, none is
lost (`reads_kept`).
-/

namespace DenonAvr.Gui

open Domain Library

/-! ### The window and its reads -/

/-- A read that the window started, with the generation that it had then. -/
structure StartedRead where
  kind : ReadKind
  generation : ℕ
deriving DecidableEq

def BridgeCommand.startedRead? : BridgeCommand → Option StartedRead
  | .read kind _ generation => some ⟨kind, generation⟩
  | _ => none

structure ReconnectRun where
  window : Window
  /-- The reads under way. -/
  reading : List StartedRead := []
  ended : List StartedRead := []
  /-- Those that ended since the connection began. -/
  since : List StartedRead := []

inductive ReconnectAction
  | message (message : Message)
  /-- The bridge reports something, though no read's end. -/
  | event (requestId : ℕ) (event : PortEvent)
  /-- A read under way ends. -/
  | ended (i : ℕ) (requestId : ℕ) (result : ReadResult)

def Message.choosesReceiver : Message → Bool
  | .configLoaded _ | .select _ => true
  | _ => false

def PortEvent.isRead : PortEvent → Bool
  | .read _ _ => true
  | _ => false

/-- The connection that begins with an event. -/
def Window.begins (window : Window) : PortEvent → Option ℕ
  | .state state =>
    state.epoch.bind fun epoch =>
      if window.closing = false ∧
          (window.isConnected = false ∨ window.generation ≠ 0 ∧ window.generation < epoch) then some epoch
      else none
  | _ => none

/-- The generation for which an event marks the source catalog as read. -/
def Window.marksCatalog (window : Window) : PortEvent → Option ℕ
  | .state state =>
    if window.closing = false ∧ (window.launchReady = true ∨ state.epoch.isSome) ∧ window.sourceCatalogRead = true ∧
        ((window.numberOf state.epoch).2 = true ∨ window.sourceCatalog.freshness = .unknown ∨
          window.sourceCatalog.freshness = .invalidated) ∧
        (projectMainZone state).power.value?.isSome ∧
        window.supplemental.catalogAutoGeneration ≠ some (window.numberOf state.epoch).1 then
      some (window.numberOf state.epoch).1
    else none
  | _ => none

/-- The window after an update, whose reads are started. -/
def ReconnectRun.adopt (run : ReconnectRun) (window : Window) : ReconnectRun :=
  { run with
    window := { window with tasks := [] }
    reading := run.reading ++ window.tasks.filterMap BridgeCommand.startedRead? }

def ReconnectRun.endRead (run : ReconnectRun) (i : ℕ) (read : StartedRead) : ReconnectRun :=
  { run with reading := run.reading.eraseIdx i, ended := run.ended ++ [read], since := run.since ++ [read] }

/-- The window from the choice of an X3800H on. -/
def reconnectMachine : Machine ReconnectRun ReconnectAction where
  init := fun run => ∃ (before : Window) (selection : Selection), before.selection = some selection ∧
    selection.receiverId.isSome ∧ selection.model.any isX3800h = true ∧
    run = { window := { before.connectTo selection with tasks := [] } }
  step := fun run action =>
    match action with
    | .message message =>
      if message.choosesReceiver then none else some (run.adopt (run.window.update message))
    | .event requestId event =>
      if event.isRead then none
      else
        some { run.adopt (run.window.onBridge ⟨requestId, run.window.subscription, event⟩) with
          since := if (run.window.begins event).isSome then [] else run.since }
    | .ended i requestId result =>
      match run.reading[i]? with
      | none => none
      | some read =>
        if result.kind = read.kind then
          some ((run.endRead i read).adopt
            (run.window.onBridge ⟨requestId, run.window.subscription, .read read.generation result⟩))
        else none

/-- No connection is without its reads: the window waits for a read of its connection, or one has ended. -/
structure ReadsKept (run : ReconnectRun) : Prop where
  names : ∀ generation, run.window.lifecycle = .connected generation →
    run.window.supplemental.namesReadInFlight = false → ⟨.quickSelectNames, generation⟩ ∈ run.since
  catalog : ∀ generation, run.window.supplemental.catalogAutoGeneration = some generation →
    run.window.supplemental.catalogReadInFlight = false → ⟨.sourceCatalog, generation⟩ ∈ run.ended

/-- The reads of a kind that are under way are all of one generation. -/
def ReconnectRun.onlyReads (run : ReconnectRun) (kind : ReadKind) (generation : ℕ) : Bool :=
  run.reading.all fun read => read.kind ≠ kind || read.generation == generation

/-- A connection begins, and a catalog is marked as read, while no read of another generation is under way. -/
def timely (run : ReconnectRun) : ReconnectAction → Bool
  | .event _ event =>
    ((run.window.begins event).all fun generation => run.onlyReads .quickSelectNames generation) &&
      ((run.window.marksCatalog event).all fun generation => run.onlyReads .sourceCatalog generation)
  | _ => true

/-! ### One update -/

/-- The numbers of the reads of a kind. -/
def ofKind (kind : ReadKind) (reads : List StartedRead) : List ℕ :=
  reads.filterMap fun read => if read.kind = kind then some read.generation else none

@[simp] theorem ofKind_append {kind : ReadKind} {reads reads' : List StartedRead} :
    ofKind kind (reads ++ reads') = ofKind kind reads ++ ofKind kind reads' := List.filterMap_append

namespace Window

def inFlight (window : Window) : ReadKind → Bool
  | .sourceCatalog => window.supplemental.catalogReadInFlight
  | .quickSelectNames => window.supplemental.namesReadInFlight
  | .httpInformation => window.supplemental.httpReadInFlight

/-- The reads of a kind that an update started. -/
def started (window : Window) (kind : ReadKind) : List ℕ :=
  ofKind kind (window.tasks.filterMap BridgeCommand.startedRead?)

end Window

section Update
variable {window window' window'' : Window} {kind : ReadKind} {generation : ℕ}

/-- No read of the kind is started, nor one that is in flight ended. -/
structure Idle (kind : ReadKind) (window window' : Window) : Prop where
  inFlight : window'.inFlight kind = window.inFlight kind
  started : window'.started kind = window.started kind

/-- A read of the kind is started when there is none. -/
structure Starts (kind : ReadKind) (generation : ℕ) (window window' : Window) : Prop where
  free : window.inFlight kind = false
  inFlight : window'.inFlight kind = true
  started : window'.started kind = window.started kind ++ [generation]

theorem Idle.refl : Idle kind window window := ⟨rfl, rfl⟩

theorem Idle.trans (h : Idle kind window window') (h' : Idle kind window' window'') : Idle kind window window'' :=
  ⟨h'.inFlight.trans h.inFlight, h'.started.trans h.started⟩

theorem Idle.after (h' : Idle kind window' window'') (h : Idle kind window window') : Idle kind window window'' :=
  h.trans h'

theorem Starts.trans_idle (h : Starts kind generation window window') (h' : Idle kind window' window'') :
    Starts kind generation window window'' :=
  ⟨h.free, h'.inFlight.trans h.inFlight, h'.started.trans h.started⟩

theorem Starts.after (h' : Starts kind generation window' window'') (h : Idle kind window window') :
    Starts kind generation window window'' :=
  ⟨h.inFlight ▸ h'.free, h'.inFlight, by rw [h'.started, h.started]⟩

/-- What the window does with a request for a read. -/
def Asked (kind : ReadKind) (generation : ℕ) (window window' : Window) : Prop :=
  Idle kind window window' ∨ Starts kind generation window window'

theorem Asked.trans_idle (h : Asked kind generation window window') (h' : Idle kind window' window'') :
    Asked kind generation window window'' := h.imp h'.after (·.trans_idle h')

theorem Asked.after (h' : Asked kind generation window' window'') (h : Idle kind window window') :
    Asked kind generation window window'' := h'.imp (·.after h) (·.after h)

/-- The parts of the window that the reads of names and sources depend on are the same. -/
structure Beside (window window' : Window) : Prop where
  selection : window'.selection = window.selection
  lifecycle : window'.lifecycle = window.lifecycle
  generation : window'.generation = window.generation
  launchReady : window'.launchReady = window.launchReady
  sourceCatalog : window'.sourceCatalog = window.sourceCatalog
  power : window'.snapshot.power = window.snapshot.power
  mark : window'.supplemental.catalogAutoGeneration = window.supplemental.catalogAutoGeneration
  idle : ∀ kind, kind ≠ .httpInformation → Idle kind window window'

theorem Beside.after (h' : Beside window' window'') (h : Beside window window') : Beside window window'' :=
  ⟨h'.selection.trans h.selection, h'.lifecycle.trans h.lifecycle, h'.generation.trans h.generation,
    h'.launchReady.trans h.launchReady, h'.sourceCatalog.trans h.sourceCatalog, h'.power.trans h.power,
    h'.mark.trans h.mark, fun kind hkind => (h'.idle kind hkind).after (h.idle kind hkind)⟩

theorem Beside.refl : Beside window window := ⟨rfl, rfl, rfl, rfl, rfl, rfl, rfl, fun _ _ => .refl⟩

namespace Window

theorem started_request {command : ℕ → BridgeCommand} (read : StartedRead)
    (h : (command (window.requestId + 1)).startedRead? = some read) (kind : ReadKind) :
    (window.request command).started kind =
      window.started kind ++ if read.kind = kind then [read.generation] else [] := by
  unfold started request
  rw [List.filterMap_append, ofKind_append]
  congr 1
  simp only [List.filterMap_cons, List.filterMap_nil, h, ofKind]
  split_ifs <;> rfl

theorem requestHttpInformation_beside : Beside window window.requestHttpInformation := by
  unfold requestHttpInformation
  split_ifs
  · exact .refl
  · exact ⟨rfl, rfl, rfl, rfl, rfl, rfl, rfl, fun kind _ => ⟨by cases kind <;> rfl, rfl⟩⟩
  · refine ⟨rfl, rfl, rfl, rfl, rfl, rfl, rfl, fun kind hkind => ⟨?_, rfl⟩⟩
    cases kind with
    | httpInformation => exact absurd rfl hkind
    | _ => rfl
  · refine ⟨rfl, rfl, rfl, rfl, rfl, rfl, rfl, fun kind hkind => ⟨?_, ?_⟩⟩
    · cases kind with
      | httpInformation => exact absurd rfl hkind
      | _ => rfl
    · rw [started_request ⟨.httpInformation, window.generation⟩ rfl, if_neg hkind.symm, List.append_nil]
      rfl

theorem requestSourceCatalog_asked : Asked .sourceCatalog window.generation window window.requestSourceCatalog := by
  unfold requestSourceCatalog
  split_ifs with hskip
  · exact .inl .refl
  · refine .inr ⟨?_, rfl, started_request ⟨.sourceCatalog, window.generation⟩ rfl _⟩
    by_contra hflight
    exact hskip (.inr (.inl (eq_true_of_ne_false hflight)))

theorem requestSourceCatalog_idle : Idle .quickSelectNames window window.requestSourceCatalog := by
  unfold requestSourceCatalog
  split_ifs
  · exact .refl
  · refine ⟨rfl, ?_⟩
    rw [started_request ⟨.sourceCatalog, window.generation⟩ rfl]
    exact List.append_nil _

theorem requestSourceCatalog_inFlight (hread : window.sourceCatalogRead = true) :
    window.requestSourceCatalog.inFlight .sourceCatalog = true := by
  unfold requestSourceCatalog
  split_ifs with hskip
  · obtain hselection | hflight | hcapability := hskip
    · rw [sourceCatalogRead, hselection] at hread
      cases hread
    · exact hflight
    · rw [hread] at hcapability
      cases hcapability
  · rfl

theorem requestQuickSelectNames_asked :
    Asked .quickSelectNames window.generation window window.requestQuickSelectNames := by
  unfold requestQuickSelectNames
  split_ifs with hskip
  · exact .inl .refl
  · refine .inr ⟨?_, rfl, started_request ⟨.quickSelectNames, window.generation⟩ rfl _⟩
    by_contra hflight
    exact hskip (.inr (.inl (eq_true_of_ne_false hflight)))

variable (window) in
theorem requestQuickSelectNames_idle : Idle .sourceCatalog window window.requestQuickSelectNames := by
  unfold requestQuickSelectNames
  split_ifs
  · exact .refl
  · refine ⟨rfl, ?_⟩
    rw [started_request ⟨.quickSelectNames, window.generation⟩ rfl]
    exact List.append_nil _

theorem requestQuickSelectNames_inFlight (hread : window.quickSelectNamesRead = true) :
    window.requestQuickSelectNames.inFlight .quickSelectNames = true := by
  unfold requestQuickSelectNames
  split_ifs with hskip
  · obtain hselection | hflight | hcapability := hskip
    · rw [quickSelectNamesRead, hselection] at hread
      cases hread
    · exact hflight
    · rw [hread] at hcapability
      cases hcapability
  · rfl

end Window

/-! #### The user's messages -/

/-- An update that neither begins a connection nor marks the source catalog as read. -/
structure Carries (window window' : Window) : Prop where
  selection : window'.selection = window.selection
  lifecycle : ∀ generation, window'.lifecycle = .connected generation → window.lifecycle = .connected generation
  mark : window'.supplemental.catalogAutoGeneration = window.supplemental.catalogAutoGeneration
  asked : ∀ kind, kind ≠ .httpInformation → ∃ generation, Asked kind generation window window'

/-- An update that does not touch the reads at all. -/
structure Apart (window window' : Window) : Prop where
  selection : window'.selection = window.selection
  lifecycle : window'.lifecycle = window.lifecycle
  supplemental : window'.supplemental = window.supplemental
  started : ∀ kind, window'.started kind = window.started kind

theorem Apart.refl : Apart window window := ⟨rfl, rfl, rfl, fun _ => rfl⟩

theorem Apart.after (h' : Apart window' window'') (h : Apart window window') : Apart window window'' :=
  ⟨h'.selection.trans h.selection, h'.lifecycle.trans h.lifecycle, h'.supplemental.trans h.supplemental,
    fun kind => (h'.started kind).trans (h.started kind)⟩

theorem Apart.idle (h : Apart window window') (kind : ReadKind) : Idle kind window window' := by
  refine ⟨?_, h.started kind⟩
  unfold Window.inFlight
  rw [h.supplemental]

theorem Apart.carries (h : Apart window window') : Carries window window' :=
  ⟨h.selection, fun _ hconnected => h.lifecycle.symm.trans hconnected, by rw [h.supplemental],
    fun kind _ => ⟨0, .inl (h.idle kind)⟩⟩

theorem Beside.carries (h : Beside window window') : Carries window window' :=
  ⟨h.selection, fun _ hconnected => h.lifecycle.symm.trans hconnected, h.mark,
    fun kind hkind => ⟨0, .inl (h.idle kind hkind)⟩⟩

theorem Carries.refl : Carries window window := Apart.refl.carries

namespace Window

theorem request_apart {command : ℕ → BridgeCommand} (h : (command (window.requestId + 1)).startedRead? = none) :
    Apart window (window.request command) := by
  refine ⟨rfl, rfl, rfl, fun kind => ?_⟩
  unfold started request
  rw [List.filterMap_append, List.filterMap_cons_none h, List.filterMap_nil, List.append_nil]

theorem control_apart (intent : ReceiverIntent) : Apart window (window.control intent) := request_apart rfl

theorem controlSoundMode_apart (intent : SoundModeIntent) : Apart window (window.controlSoundMode intent) :=
  (control_apart _).after ⟨rfl, rfl, rfl, fun _ => rfl⟩

theorem submitVolume_apart (level : ℤ) : Apart window (window.submitVolume level) :=
  (control_apart _).after ⟨rfl, rfl, rfl, fun _ => rfl⟩

theorem commitVolume_apart : Apart window window.commitVolume := by
  unfold commitVolume
  split_ifs
  · split
    · exact submitVolume_apart _
    · exact .refl
  · exact .refl

theorem adjustVolume_apart (delta : ℤ) : Apart window (window.adjustVolume delta) := by
  unfold adjustVolume
  dsimp only
  split_ifs
  · exact .refl
  · exact (submitVolume_apart _).after ⟨rfl, rfl, rfl, fun _ => rfl⟩
  · exact .refl
  · split
    · exact (submitVolume_apart _).after ⟨rfl, rfl, rfl, fun _ => rfl⟩
    · exact ⟨rfl, rfl, rfl, fun _ => rfl⟩

theorem toggle_apart (power : Option PowerState) (intent : PowerState → ReceiverIntent) :
    Apart window (power.elim window fun power => window.control (intent power)) := by
  cases power with
  | none => exact .refl
  | some power => exact control_apart _

theorem resetPendingControls_apart : Apart window window.resetPendingControls := ⟨rfl, rfl, rfl, fun _ => rfl⟩

theorem requestSourceCatalog_carries : Carries window window.requestSourceCatalog := by
  have hframe : window.requestSourceCatalog.selection = window.selection ∧
      window.requestSourceCatalog.lifecycle = window.lifecycle ∧
      window.requestSourceCatalog.supplemental.catalogAutoGeneration =
        window.supplemental.catalogAutoGeneration := by
    unfold requestSourceCatalog
    split_ifs
    · exact ⟨rfl, rfl, rfl⟩
    · exact ⟨rfl, rfl, rfl⟩
  refine ⟨hframe.1, fun _ hconnected => hframe.2.1.symm.trans hconnected, hframe.2.2, fun kind hkind => ?_⟩
  cases kind with
  | sourceCatalog => exact ⟨_, requestSourceCatalog_asked⟩
  | quickSelectNames => exact ⟨0, .inl requestSourceCatalog_idle⟩
  | httpInformation => exact absurd rfl hkind

/-- **A message that does not choose a receiver.** -/
theorem update_carries {message : Message} (h : message.choosesReceiver = false) :
    Carries window (window.update message) := by
  unfold update
  cases message with
  | configLoaded current => cases h
  | select selection => cases h
  | configLoadFailed => exact Apart.carries ⟨rfl, rfl, rfl, fun _ => rfl⟩
  | commandFailed => exact resetPendingControls_apart.carries
  | refresh =>
    refine ⟨rfl, fun generation hconnected => ?_, rfl, fun kind _ => ⟨0, .inl ⟨by cases kind <;> rfl, ?_⟩⟩⟩
    · replace hconnected : (if window.lifecycle = Lifecycle.disconnected then Lifecycle.connecting
          else window.lifecycle) = .connected generation := hconnected
      split_ifs at hconnected
      exact hconnected
    · exact Apart.started (request_apart rfl) kind
  | httpTick =>
    dsimp only
    split_ifs
    · exact requestHttpInformation_beside.carries
    · exact .refl
  | toggleMainZonePower => exact (toggle_apart _ _).carries
  | toggleZone2Power => exact (toggle_apart _ _).carries
  | setMainZonePower power => exact (control_apart _).carries
  | setZone2Power power => exact (control_apart _).carries
  | mute => exact (control_apart _).carries
  | unmute => exact (control_apart _).carries
  | volumeChanged value =>
    dsimp only
    split_ifs
    · exact Apart.carries ⟨rfl, rfl, rfl, fun _ => rfl⟩
    · exact .refl
  | commitVolume => exact commitVolume_apart.carries
  | adjustVolume delta => exact (adjustVolume_apart delta).carries
  | soundModeControlTimedOut requestId =>
    dsimp only
    split_ifs
    · exact Apart.carries ⟨rfl, rfl, rfl, fun _ => rfl⟩
    · exact .refl
  | selectSoundModeCategory category =>
    dsimp only
    split_ifs
    · exact .refl
    · exact (controlSoundMode_apart _).carries
  | selectSurroundMode mode =>
    dsimp only
    split_ifs
    · exact .refl
    · cases nonBlank mode with
      | none => exact .refl
      | some mode => exact (controlSoundMode_apart _).carries
  | openSourcePicker =>
    dsimp only
    split_ifs
    · exact requestSourceCatalog_carries
    · exact .refl
  | selectInput value =>
    dsimp only
    split_ifs
    · cases SourceId.new value with
      | ok source => exact (control_apart _).carries
      | error message => exact .refl
    · exact .refl
  | refreshSourceCatalog => exact requestSourceCatalog_carries
  | closeRequested => exact Apart.carries ⟨rfl, rfl, rfl, fun _ => rfl⟩

end Window

/-! #### The bridge's events -/

/-- The connection begins: the window asks for the names. -/
structure Begins (generation : ℕ) (window window' : Window) : Prop where
  lifecycle : window'.lifecycle = .connected generation
  asked : Asked .quickSelectNames generation window window'
  inFlight : window.quickSelectNamesRead = true → window'.inFlight .quickSelectNames = true

/-- The source catalog is marked as read: the window asks for it. -/
structure Marks (generation : ℕ) (window window' : Window) : Prop where
  mark : window'.supplemental.catalogAutoGeneration = some generation
  asked : Asked .sourceCatalog generation window window'
  inFlight : window'.inFlight .sourceCatalog = true

/-- A read of the kind ends. -/
structure Ends (kind : ReadKind) (window window' : Window) : Prop where
  selection : window'.selection = window.selection
  lifecycle : window'.lifecycle = window.lifecycle
  mark : window'.supplemental.catalogAutoGeneration = window.supplemental.catalogAutoGeneration
  idle : ∀ other, other ≠ .httpInformation → other ≠ kind → Idle other window window'
  inFlight : kind ≠ .httpInformation → window'.inFlight kind = false
  started : ∀ other, other ≠ .httpInformation → window'.started other = window.started other

namespace Window

/-- What a state's epoch makes of the connection. -/
theorem followEpoch_cases (state : ReceiverState) (hclosing : window.closing = false) :
    (window.followEpoch state.epoch = window ∧ window.begins (.state state) = none ∧
        window.numberOf state.epoch = (window.generation, false) ∧ window.isConnected = state.epoch.isSome) ∨
      (window.followEpoch state.epoch = window.connectionLost ∧ state.epoch = none ∧
        window.numberOf state.epoch = (nextGeneration window.generation, true)) ∨
      ∃ (epoch : Epoch) (lost : Window) (ended : Bool), state.epoch = some epoch ∧
        window.begins (.state state) = some epoch ∧ window.numberOf state.epoch = (epoch, ended) ∧
        (lost = window ∧ ended = false ∨ lost = window.connectionLost ∧ ended = true) ∧
        window.followEpoch state.epoch =
          { lost with generation := epoch, lifecycle := .connected epoch }.requestQuickSelectNames := by
  have hbegins : window.begins (.state state) = state.epoch.bind fun epoch =>
      if window.isConnected = false ∨ window.generation ≠ 0 ∧ window.generation < epoch then some epoch else none := by
    unfold begins
    simp only [hclosing, true_and]
  rw [hbegins]
  unfold followEpoch numberOf
  cases state.epoch with
  | none =>
    dsimp only
    by_cases hreconnecting : window.isReconnecting = true
    · rw [if_pos hreconnecting, if_pos hreconnecting]
      refine .inl ⟨rfl, rfl, rfl, ?_⟩
      by_contra hconnected
      rw [isReconnecting_of_isConnected (eq_true_of_ne_false hconnected)] at hreconnecting
      cases hreconnecting
    · rw [if_neg hreconnecting, if_neg hreconnecting]
      exact .inr (.inl ⟨rfl, rfl, rfl⟩)
  | some epoch =>
    dsimp only [Option.bind_some]
    by_cases hconnected : window.isConnected = true
    · rw [if_pos hconnected, isReconnecting_of_isConnected hconnected, hconnected]
      by_cases hhigher : window.generation ≠ 0 ∧ window.generation < epoch
      · rw [if_pos hhigher, decide_eq_true hhigher.1, decide_eq_true hhigher.2]
        exact .inr (.inr ⟨epoch, window.connectionLost, true, rfl, if_pos (.inr hhigher), rfl, .inr ⟨rfl, rfl⟩, rfl⟩)
      · rw [if_neg hhigher]
        have hsame : (decide (window.generation ≠ 0) && decide (window.generation < epoch)) = false := by
          simpa using hhigher
        rw [Bool.true_and, hsame]
        exact .inl ⟨rfl, if_neg (by simpa using hhigher), rfl, rfl⟩
    · rw [if_neg hconnected, eq_false_of_ne_true hconnected, Bool.and_false, if_neg Bool.false_ne_true]
      exact .inr (.inr ⟨epoch, window, false, rfl, if_pos (.inl rfl), rfl, .inl ⟨rfl, rfl⟩, rfl⟩)

variable (window) in
/-- The request for the names touches nothing else. -/
theorem requestQuickSelectNames_frame :
    window.requestQuickSelectNames.selection = window.selection ∧
      window.requestQuickSelectNames.lifecycle = window.lifecycle ∧
      window.requestQuickSelectNames.launchReady = window.launchReady ∧
      window.requestQuickSelectNames.sourceCatalog = window.sourceCatalog ∧
      window.requestQuickSelectNames.supplemental.catalogAutoGeneration =
        window.supplemental.catalogAutoGeneration := by
  unfold requestQuickSelectNames
  split_ifs
  · exact ⟨rfl, rfl, rfl, rfl, rfl⟩
  · exact ⟨rfl, rfl, rfl, rfl, rfl⟩

theorem connectionLost_idle (kind : ReadKind) : Idle kind window window.connectionLost :=
  ⟨by cases kind <;> rfl, rfl⟩

/-- What the reads of names take from a state's epoch. -/
theorem followEpoch_names (state : ReceiverState) (hclosing : window.closing = false) :
    (∃ generation, window.begins (.state state) = some generation ∧
        Begins generation window (window.followEpoch state.epoch)) ∨
      window.begins (.state state) = none ∧ Idle .quickSelectNames window (window.followEpoch state.epoch) ∧
        ∀ generation, (window.followEpoch state.epoch).lifecycle = .connected generation →
          window.lifecycle = .connected generation := by
  obtain ⟨hsame, hbegins, -, -⟩ | ⟨hlost, hepoch, -⟩ | ⟨epoch, lost, ended, -, hbegins, -, hlost, hfollowed⟩ :=
    followEpoch_cases state hclosing
  · rw [hsame]
    exact .inr ⟨hbegins, .refl, fun _ h => h⟩
  · rw [hlost]
    refine .inr ⟨by rw [begins, hepoch]; rfl, connectionLost_idle _, fun generation hconnected => ?_⟩
    cases hconnected
  · rw [hfollowed]
    refine .inl ⟨epoch, hbegins, (requestQuickSelectNames_frame _).2.1, ?_,
      fun hread => requestQuickSelectNames_inFlight ?_⟩
    · obtain ⟨rfl, -⟩ | ⟨rfl, -⟩ := hlost
      · exact requestQuickSelectNames_asked.after ⟨rfl, rfl⟩
      · exact requestQuickSelectNames_asked.after ⟨rfl, rfl⟩
    · obtain ⟨rfl, -⟩ | ⟨rfl, -⟩ := hlost
      · exact hread
      · exact hread

/-- What the catalog's read takes from a state's epoch. -/
structure Readies (state : ReceiverState) (window window' : Window) : Prop where
  selection : window'.selection = window.selection
  launchReady : window'.launchReady = window.launchReady
  mark : window'.supplemental.catalogAutoGeneration = window.supplemental.catalogAutoGeneration
  idle : Idle .sourceCatalog window window'
  isConnected : window'.isConnected = state.epoch.isSome
  freshness : (window.numberOf state.epoch).2 = true ∧ window'.sourceCatalog.freshness = .invalidated ∨
    (window.numberOf state.epoch).2 = false ∧ window'.sourceCatalog = window.sourceCatalog

theorem followEpoch_readies (state : ReceiverState) (hclosing : window.closing = false) :
    Readies state window (window.followEpoch state.epoch) := by
  obtain ⟨hsame, -, hnumber, hconnected⟩ | ⟨hlost, hepoch, hnumber⟩ |
      ⟨epoch, lost, ended, hepoch, -, hnumber, hlost, hfollowed⟩ :=
    followEpoch_cases state hclosing
  · rw [hsame]
    exact ⟨rfl, rfl, rfl, .refl, hconnected, .inr ⟨by rw [hnumber], rfl⟩⟩
  · rw [hlost]
    exact ⟨rfl, rfl, rfl, connectionLost_idle _, by rw [hepoch]; rfl, .inl ⟨by rw [hnumber], rfl⟩⟩
  · rw [hfollowed]
    obtain ⟨hselection, hlifecycle, hready, hcatalog, hmark⟩ := requestQuickSelectNames_frame
      { lost with generation := epoch, lifecycle := .connected epoch }
    have hidle := requestQuickSelectNames_idle { lost with generation := epoch, lifecycle := .connected epoch }
    have hon : { lost with
          generation := epoch
          lifecycle := .connected epoch }.requestQuickSelectNames.isConnected = state.epoch.isSome := by
      rw [isConnected, hlifecycle, hepoch]
      rfl
    obtain ⟨rfl, rfl⟩ | ⟨rfl, rfl⟩ := hlost
    · exact ⟨hselection, hready, hmark, hidle.after ⟨rfl, rfl⟩, hon, .inr ⟨by rw [hnumber], hcatalog⟩⟩
    · refine ⟨hselection, hready, hmark, hidle.after ⟨rfl, rfl⟩, hon, .inl ⟨by rw [hnumber], ?_⟩⟩
      rw [hcatalog]
      rfl

theorem readChanged_beside (previous : MainZoneSnapshot) : Beside window (window.readChanged previous) := by
  unfold readChanged
  dsimp only
  split_ifs
  · exact requestHttpInformation_beside
  · exact .refl

variable (window) in
/-- The window with a state taken in, before the catalog's turn. -/
theorem applyState_eq (state : ReceiverState) :
    ∃ shown : Window, window.applyState state = shown.readCatalogOnce ∧
      Beside ((window.followEpoch state.epoch).showState state) shown :=
  ⟨_, rfl, readChanged_beside _⟩

variable (window) in
/-- The catalog's turn leaves the rest as it is. -/
theorem readCatalogOnce_frame : window.readCatalogOnce.selection = window.selection ∧
    window.readCatalogOnce.lifecycle = window.lifecycle ∧ Idle .quickSelectNames window window.readCatalogOnce := by
  unfold readCatalogOnce
  split_ifs
  · refine ⟨?_, ?_, requestSourceCatalog_idle.after ⟨rfl, rfl⟩⟩
    · exact requestSourceCatalog_carries.selection
    · unfold requestSourceCatalog
      split_ifs <;> rfl
  · exact ⟨rfl, rfl, .refl⟩

theorem applyState_names (state : ReceiverState) (hclosing : window.closing = false) :
    (∃ generation, window.begins (.state state) = some generation ∧
        Begins generation window (window.applyState state)) ∨
      window.begins (.state state) = none ∧ Idle .quickSelectNames window (window.applyState state) ∧
        ∀ generation, (window.applyState state).lifecycle = .connected generation →
          window.lifecycle = .connected generation := by
  obtain ⟨shown, happly, hshown⟩ := applyState_eq window state
  obtain ⟨-, hlifecycle, hidle⟩ := readCatalogOnce_frame shown
  have hafter : Idle .quickSelectNames (window.followEpoch state.epoch) shown.readCatalogOnce :=
    hidle.after ((hshown.idle .quickSelectNames (by decide)).after ⟨rfl, rfl⟩)
  have hsame : shown.readCatalogOnce.lifecycle = (window.followEpoch state.epoch).lifecycle :=
    hlifecycle.trans hshown.lifecycle
  rw [happly]
  obtain ⟨generation, hbegins, hbegun⟩ | ⟨hbegins, hkept, hconnected⟩ := followEpoch_names state hclosing
  · exact .inl ⟨generation, hbegins, hsame.trans hbegun.lifecycle, hbegun.asked.trans_idle hafter,
      fun hread => hafter.inFlight.trans (hbegun.inFlight hread)⟩
  · refine .inr ⟨hbegins, hafter.after hkept, fun generation h => hconnected generation ?_⟩
    rw [← hsame]
    exact h

theorem applyState_catalog (state : ReceiverState) (hclosing : window.closing = false) :
    (window.applyState state).selection = window.selection ∧
      ((∃ generation, window.marksCatalog (.state state) = some generation ∧
          Marks generation window (window.applyState state)) ∨
        window.marksCatalog (.state state) = none ∧ Idle .sourceCatalog window (window.applyState state) ∧
          (window.applyState state).supplemental.catalogAutoGeneration =
            window.supplemental.catalogAutoGeneration) := by
  obtain ⟨shown, happly, hshown⟩ := applyState_eq window state
  have hreadies := followEpoch_readies state hclosing
  have hgeneration : shown.generation = (window.numberOf state.epoch).1 :=
    hshown.generation.trans (followEpoch_follows window state.epoch).generation
  have hselection : shown.selection = window.selection := hshown.selection.trans hreadies.selection
  have hread : shown.sourceCatalogRead = window.sourceCatalogRead := by
    rw [sourceCatalogRead, hselection, sourceCatalogRead]
  have hmark : shown.supplemental.catalogAutoGeneration = window.supplemental.catalogAutoGeneration :=
    hshown.mark.trans hreadies.mark
  have hidle : Idle .sourceCatalog window shown :=
    (hshown.idle .sourceCatalog (by decide)).after (hreadies.idle.trans ⟨rfl, rfl⟩)
  have hready : shown.launchReady = (window.launchReady || (window.selection.isSome && state.epoch.isSome)) := by
    rw [hshown.launchReady, ← hreadies.isConnected, ← hreadies.launchReady, ← hreadies.selection]
    rfl
  have hfresh : (shown.sourceCatalog.freshness = .unknown ∨ shown.sourceCatalog.freshness = .invalidated) ↔
      ((window.numberOf state.epoch).2 = true ∨ window.sourceCatalog.freshness = .unknown ∨
        window.sourceCatalog.freshness = .invalidated) := by
    have hcatalog : shown.sourceCatalog = (window.followEpoch state.epoch).sourceCatalog := hshown.sourceCatalog
    rw [hcatalog]
    obtain ⟨hended, hinvalidated⟩ | ⟨hended, hsame⟩ := hreadies.freshness
    · rw [hended, hinvalidated]
      simp
    · rw [hended, hsame]
      simp
  have hpower : shown.snapshot.power = (projectMainZone state).power := hshown.power
  have hcond : (shown.launchReady = true ∧ shown.sourceCatalogRead = true ∧
        (shown.sourceCatalog.freshness = .unknown ∨ shown.sourceCatalog.freshness = .invalidated) ∧
        shown.snapshot.power.value?.isSome = true ∧ shown.supplemental.catalogAutoGeneration ≠ some shown.generation) ↔
      (window.launchReady = true ∨ state.epoch.isSome) ∧ window.sourceCatalogRead = true ∧
        ((window.numberOf state.epoch).2 = true ∨ window.sourceCatalog.freshness = .unknown ∨
          window.sourceCatalog.freshness = .invalidated) ∧
        (projectMainZone state).power.value?.isSome ∧
        window.supplemental.catalogAutoGeneration ≠ some (window.numberOf state.epoch).1 := by
    rw [hread, hfresh, hready, hpower, hmark, hgeneration]
    have hsome : window.sourceCatalogRead = true → window.selection.isSome = true := by
      intro h
      by_contra hnone
      rw [sourceCatalogRead, Option.not_isSome_iff_eq_none.mp hnone] at h
      cases h
    simp only [Bool.or_eq_true, Bool.and_eq_true]
    tauto
  rw [happly]
  refine ⟨(readCatalogOnce_frame shown).1.trans hselection, ?_⟩
  unfold readCatalogOnce marksCatalog
  by_cases h : shown.launchReady = true ∧ shown.sourceCatalogRead = true ∧
      (shown.sourceCatalog.freshness = .unknown ∨ shown.sourceCatalog.freshness = .invalidated) ∧
      shown.snapshot.power.value?.isSome = true ∧ shown.supplemental.catalogAutoGeneration ≠ some shown.generation
  · rw [if_pos h]
    refine .inl ⟨_, if_pos ⟨hclosing, hcond.mp h⟩,
      requestSourceCatalog_carries.mark.trans (congrArg some hgeneration), ?_, requestSourceCatalog_inFlight h.2.1⟩
    rw [← hgeneration]
    exact requestSourceCatalog_asked.after (hidle.trans ⟨rfl, rfl⟩)
  · rw [if_neg h]
    exact .inr ⟨if_neg fun hmarks => h (hcond.mpr hmarks.2), hidle, hmark⟩

end Window

/-- What the window does with an event that is no read's end. -/
structure Reacts (event : PortEvent) (window window' : Window) : Prop where
  selection : window'.selection = window.selection
  names : (∃ generation, window.begins event = some generation ∧ Begins generation window window') ∨
    window.begins event = none ∧ (∃ generation, Asked .quickSelectNames generation window window') ∧
      ∀ generation, window'.lifecycle = .connected generation → window.lifecycle = .connected generation
  catalog : (∃ generation, window.marksCatalog event = some generation ∧ Marks generation window window') ∨
    window.marksCatalog event = none ∧ (∃ generation, Asked .sourceCatalog generation window window') ∧
      window'.supplemental.catalogAutoGeneration = window.supplemental.catalogAutoGeneration

theorem Carries.reacts {event : PortEvent} (h : Carries window window') (hbegins : window.begins event = none)
    (hmarks : window.marksCatalog event = none) : Reacts event window window' :=
  ⟨h.selection, .inr ⟨hbegins, h.asked .quickSelectNames (by decide), h.lifecycle⟩,
    .inr ⟨hmarks, h.asked .sourceCatalog (by decide), h.mark⟩⟩

namespace Window

theorem onControl_carries (requestId : ℕ) (report : ControlReport) :
    Carries window (window.onControl requestId report) := by
  have hended : Apart window (window.endPending requestId) := ⟨rfl, rfl, rfl, fun _ => rfl⟩
  have hbeside : Beside (window.endPending requestId) (window.endPending requestId).requestHttpInformation :=
    requestHttpInformation_beside
  unfold onControl
  split
  · split_ifs
    · exact ⟨hbeside.selection, fun _ hconnected => hbeside.lifecycle.symm.trans hconnected, hbeside.mark,
        fun kind hkind => ⟨0, .inl ((hbeside.idle kind hkind).after (hended.idle kind))⟩⟩
    · exact hended.carries
  · exact hended.carries

theorem onBridge_reacts {requestId : ℕ} {event : PortEvent} (h : event.isRead = false) :
    Reacts event window (window.onBridge ⟨requestId, window.subscription, event⟩) := by
  by_cases hclosing : window.closing = true
  · rw [onBridge_of_left (.inr hclosing)]
    have hopen : ¬window.closing = false := by simp [hclosing]
    refine Carries.refl.reacts ?_ ?_
    · unfold begins
      split
      · simp [hopen]
      · rfl
    · unfold marksCatalog
      split
      · exact if_neg fun hmarks => hopen hmarks.1
      · rfl
  · have hopen : window.closing = false := eq_false_of_ne_true hclosing
    unfold onBridge
    rw [if_neg (by simp [hopen])]
    cases event with
    | state state =>
      obtain ⟨hselection, hcatalog⟩ := applyState_catalog state hopen
      refine ⟨hselection, (applyState_names state hopen).imp_right ?_, hcatalog.imp_right ?_⟩
      · rintro ⟨hbegins, hidle, hlifecycle⟩
        exact ⟨hbegins, ⟨0, .inl hidle⟩, hlifecycle⟩
      · rintro ⟨hmarks, hidle, hmark⟩
        exact ⟨hmarks, ⟨0, .inl hidle⟩, hmark⟩
    | sessionEnded =>
      refine Carries.reacts ⟨rfl, fun generation hconnected => ?_, rfl,
        fun kind _ => ⟨0, .inl (connectionLost_idle kind)⟩⟩ rfl rfl
      cases hconnected
    | connectFailed message =>
      refine Carries.reacts ⟨rfl, fun generation hconnected => ?_, rfl, fun kind _ => ⟨0, .inl ⟨?_, rfl⟩⟩⟩ rfl rfl
      · cases hconnected
      · cases kind <;> rfl
    | refreshed => exact Carries.refl.reacts rfl rfl
    | control report => exact (onControl_carries requestId report).reacts rfl rfl
    | read generation result => cases h
    | failed message => exact resetPendingControls_apart.carries.reacts rfl rfl

/-- A read's end only clears its flag, as far as the reads are concerned. -/
theorem onRead_ends (generation : ℕ) (result : ReadResult) :
    Ends result.kind window (window.onRead generation result) := by
  unfold onRead
  cases result with
  | sourceCatalog result =>
    have hends : ∀ catalog : SourceCatalog, Ends .sourceCatalog window
        { window with
          supplemental := { window.supplemental with catalogReadInFlight := false }
          sourceCatalog := catalog } := by
      refine fun catalog => ⟨rfl, rfl, rfl, fun other hhttp hother => ⟨?_, rfl⟩, fun _ => rfl, fun _ _ => rfl⟩
      cases other with
      | sourceCatalog => exact absurd rfl hother
      | quickSelectNames => rfl
      | httpInformation => exact absurd rfl hhttp
    dsimp only
    split_ifs
    · exact hends _
    · exact hends window.sourceCatalog
  | quickSelectNames result =>
    have hends : ∀ quickSelect : QuickSelectSnapshot, Ends .quickSelectNames window
        { window with
          supplemental := { window.supplemental with namesReadInFlight := false }
          quickSelect := quickSelect } := by
      refine fun quickSelect => ⟨rfl, rfl, rfl, fun other hhttp hother => ⟨?_, rfl⟩, fun _ => rfl, fun _ _ => rfl⟩
      cases other with
      | sourceCatalog => rfl
      | quickSelectNames => exact absurd rfl hother
      | httpInformation => exact absurd rfl hhttp
    dsimp only
    split_ifs
    · cases result with
      | ok names => exact hends _
      | error error => exact hends window.quickSelect
    · exact hends window.quickSelect
  | httpInformation result =>
    have hends : ∀ information : HttpInformation, Beside window
        { window with
          supplemental := { window.supplemental with httpReadInFlight := false, httpReadAgain := false }
          snapshot := { window.snapshot with httpInformation := information } } := by
      refine fun information => ⟨rfl, rfl, rfl, rfl, rfl, rfl, rfl, fun kind hkind => ⟨?_, rfl⟩⟩
      cases kind with
      | httpInformation => exact absurd rfl hkind
      | _ => rfl
    have hagain : ∀ {ended : Window}, Beside window ended → Ends .httpInformation window ended :=
      fun h => ⟨h.selection, h.lifecycle, h.mark, fun other hhttp _ => h.idle other hhttp,
        fun hother => absurd rfl hother, fun other hhttp => (h.idle other hhttp).started⟩
    dsimp only
    split_ifs
    · exact hagain (requestHttpInformation_beside.after (hends _))
    · exact hagain (requestHttpInformation_beside.after (hends window.snapshot.httpInformation))
    · exact hagain (hends _)
    · exact hagain (hends window.snapshot.httpInformation)

end Window

end Update

/-! ### The reads under way -/

section Runs
variable {reading : List StartedRead} {window window' : Window} {kind : ReadKind} {generation number i : ℕ}
  {read : StartedRead} {run run' : ReconnectRun}

theorem mem_ofKind : number ∈ ofKind kind reading ↔ ⟨kind, number⟩ ∈ reading := by
  unfold ofKind
  rw [List.mem_filterMap]
  constructor
  · rintro ⟨⟨other, generation⟩, hmem, hsome⟩
    obtain ⟨rfl, hgeneration⟩ := Option.ite_none_right_eq_some.mp hsome
    obtain rfl := Option.some.inj hgeneration
    exact hmem
  · exact fun hmem => ⟨⟨kind, number⟩, hmem, if_pos rfl⟩

/-- The window waits for a read of the kind, which has this generation. -/
def Awaits (kind : ReadKind) (generation : ℕ) (reading : List StartedRead) (window : Window) : Prop :=
  window.inFlight kind = true ∧ ∀ other ∈ ofKind kind reading, other = generation

theorem started_nil (h : window.tasks = []) (kind : ReadKind) : window.started kind = [] := by
  unfold Window.started
  rw [h]
  rfl

theorem adopt_ofKind (run : ReconnectRun) (window : Window) (kind : ReadKind) :
    ofKind kind (run.adopt window).reading = ofKind kind run.reading ++ window.started kind := ofKind_append

theorem adopt_inFlight (run : ReconnectRun) (window : Window) (kind : ReadKind) :
    (run.adopt window).window.inFlight kind = window.inFlight kind := by cases kind <;> rfl

theorem Awaits.adopt (h : Awaits kind generation run.reading run.window) (htasks : run.window.tasks = [])
    (hasked : Asked kind number run.window window) :
    Awaits kind generation (run.adopt window).reading (run.adopt window).window := by
  unfold Awaits
  rw [adopt_ofKind, adopt_inFlight]
  obtain hidle | hstarts := hasked
  · rw [hidle.started, started_nil htasks, List.append_nil, hidle.inFlight]
    exact h
  · have hflight := h.1
    rw [hstarts.free] at hflight
    cases hflight

/-- The window asks for a read while none of another generation is under way. -/
theorem awaits_of_asked (htasks : run.window.tasks = [])
    (honly : run.onlyReads kind generation = true) (hasked : Asked kind generation run.window window)
    (hflight : window.inFlight kind = true) :
    Awaits kind generation (run.adopt window).reading (run.adopt window).window := by
  unfold Awaits
  rw [adopt_ofKind, adopt_inFlight]
  refine ⟨hflight, fun other hother => ?_⟩
  have hold : other ∈ ofKind kind run.reading → other = generation := by
    intro hmem
    have hread := List.all_eq_true.mp honly _ (mem_ofKind.mp hmem)
    simpa using hread
  obtain hmem | hmem := List.mem_append.mp hother
  · exact hold hmem
  · obtain hidle | hstarts := hasked
    · rw [hidle.started, started_nil htasks] at hmem
      cases hmem
    · rw [hstarts.started, started_nil htasks] at hmem
      exact List.mem_singleton.mp hmem

/-- What a run keeps while its steps are timely. -/
structure Tracked (run : ReconnectRun) : Prop where
  tasks : run.window.tasks = []
  capable : run.window.quickSelectNamesRead = true
  names : ∀ generation, run.window.lifecycle = .connected generation →
    ⟨.quickSelectNames, generation⟩ ∈ run.since ∨ Awaits .quickSelectNames generation run.reading run.window
  catalog : ∀ generation, run.window.supplemental.catalogAutoGeneration = some generation →
    ⟨.sourceCatalog, generation⟩ ∈ run.ended ∨ Awaits .sourceCatalog generation run.reading run.window

theorem Tracked.readsKept (h : Tracked run) : ReadsKept run := by
  constructor
  · intro generation hconnected hflight
    refine (h.names generation hconnected).resolve_right fun hawaits => ?_
    exact absurd hawaits.1 (by rw [Window.inFlight, hflight]; exact Bool.false_ne_true)
  · intro generation hmark hflight
    refine (h.catalog generation hmark).resolve_right fun hawaits => ?_
    exact absurd hawaits.1 (by rw [Window.inFlight, hflight]; exact Bool.false_ne_true)

theorem capable_of_selection (run : ReconnectRun) (h : run.window.quickSelectNamesRead = true)
    (hselection : window.selection = run.window.selection) :
    (run.adopt window).window.quickSelectNamesRead = true := by
  show window.quickSelectNamesRead = true
  rw [Window.quickSelectNamesRead, hselection]
  exact h

theorem Tracked.message (h : Tracked run) (hcarries : Carries run.window window) : Tracked (run.adopt window) := by
  obtain ⟨names, hnames⟩ := hcarries.asked .quickSelectNames (by decide)
  obtain ⟨catalog, hcatalog⟩ := hcarries.asked .sourceCatalog (by decide)
  refine ⟨rfl, capable_of_selection run h.capable hcarries.selection, fun generation hconnected => ?_,
    fun generation hmark => ?_⟩
  · exact (h.names generation (hcarries.lifecycle generation hconnected)).imp_right (·.adopt h.tasks hnames)
  · exact (h.catalog generation (hcarries.mark.symm.trans hmark)).imp_right (·.adopt h.tasks hcatalog)

theorem Tracked.event (h : Tracked run) {event : PortEvent} (hreacts : Reacts event run.window window)
    (htimely : ∀ requestId, timely run (.event requestId event) = true) :
    Tracked { run.adopt window with since := if (run.window.begins event).isSome then [] else run.since } := by
  obtain ⟨hbegun, hmarked⟩ := Bool.and_eq_true_iff.mp (htimely 0)
  refine ⟨rfl, capable_of_selection run h.capable hreacts.selection, fun generation hconnected => ?_,
    fun generation hmark => ?_⟩
  · obtain ⟨begun, hbegins, hnew⟩ | ⟨hbegins, ⟨number, hasked⟩, hlifecycle⟩ := hreacts.names
    · obtain rfl : begun = generation := by
        have hboth := hnew.lifecycle.symm.trans hconnected
        exact Lifecycle.connected.inj hboth
      rw [hbegins, Option.all_some] at hbegun
      exact .inr (awaits_of_asked h.tasks hbegun hnew.asked (hnew.inFlight h.capable))
    · rw [hbegins]
      exact (h.names generation (hlifecycle generation hconnected)).imp_right (·.adopt h.tasks hasked)
  · obtain ⟨marked, hmarks, hnew⟩ | ⟨-, ⟨number, hasked⟩, hsame⟩ := hreacts.catalog
    · obtain rfl : marked = generation := Option.some.inj (hnew.mark.symm.trans hmark)
      rw [hmarks, Option.all_some] at hmarked
      exact .inr (awaits_of_asked h.tasks hmarked hnew.asked hnew.inFlight)
    · exact (h.catalog generation (hsame.symm.trans hmark)).imp_right (·.adopt h.tasks hasked)

/-- A read of the kind that the window awaits has its generation, and another one leaves it waiting. -/
theorem Awaits.ended (h : Awaits kind generation run.reading run.window) (hread : run.reading[i]? = some read)
    (htasks : run.window.tasks = []) (hkind : kind ≠ .httpInformation)
    (hends : window = run.window ∨ Ends read.kind run.window window) : read = ⟨kind, generation⟩ ∨
      Awaits kind generation ((run.endRead i read).adopt window).reading
        ((run.endRead i read).adopt window).window := by
  by_cases hsame : read.kind = kind
  · have hmem : ⟨kind, read.generation⟩ ∈ run.reading := hsame ▸ List.mem_of_getElem? hread
    exact .inl (congrArg₂ StartedRead.mk hsame (h.2 _ (mem_ofKind.mpr hmem)))
  · refine .inr ⟨?_, fun other hother => h.2 other (mem_ofKind.mpr ?_)⟩
    · rw [adopt_inFlight]
      obtain rfl | hends := hends
      · exact h.1
      · exact (hends.idle kind hkind (Ne.symm hsame)).inFlight.trans h.1
    · rw [adopt_ofKind] at hother
      obtain hmem | hmem := List.mem_append.mp hother
      · exact List.mem_of_mem_eraseIdx (mem_ofKind.mp hmem)
      · have hnone : window.started kind = [] := by
          obtain rfl | hends := hends
          · exact started_nil htasks kind
          · exact (hends.started kind hkind).trans (started_nil htasks kind)
        rw [hnone] at hmem
        cases hmem

theorem Tracked.ended (h : Tracked run) (hread : run.reading[i]? = some read)
    (hends : window = run.window ∨ Ends read.kind run.window window) :
    Tracked ((run.endRead i read).adopt window) := by
  have hframe : window.selection = run.window.selection ∧ window.lifecycle = run.window.lifecycle ∧
      window.supplemental.catalogAutoGeneration = run.window.supplemental.catalogAutoGeneration := by
    obtain rfl | hends := hends
    · exact ⟨rfl, rfl, rfl⟩
    · exact ⟨hends.selection, hends.lifecycle, hends.mark⟩
  refine ⟨rfl, capable_of_selection (run.endRead i read) h.capable hframe.1, fun generation hconnected => ?_,
    fun generation hmark => ?_⟩
  · obtain hsince | hawaits := h.names generation (hframe.2.1.symm.trans hconnected)
    · exact .inl (List.mem_append_left _ hsince)
    · refine (hawaits.ended hread h.tasks (by decide) hends).imp_left fun hself => ?_
      rw [← hself]
      exact List.mem_append_right _ (List.mem_singleton_self _)
  · obtain hended | hawaits := h.catalog generation (hframe.2.2.symm.trans hmark)
    · exact .inl (List.mem_append_left _ hended)
    · refine (hawaits.ended hread h.tasks (by decide) hends).imp_left fun hself => ?_
      rw [← hself]
      exact List.mem_append_right _ (List.mem_singleton_self _)

theorem tracked_of_init (h : reconnectMachine.init run) : Tracked run := by
  obtain ⟨before, selection, hselection, hreceiver, hcapable, rfl⟩ := h
  obtain ⟨receiver, hreceiver⟩ := Option.isSome_iff_exists.mp hreceiver
  have hconnect : before.connectTo selection = { before with
      subscription := before.requestId + 1
      state := none
      generation := 0
      lifecycle := .selected
      supplemental := {}
      connection := before.connection + 1 }.request fun id => .select id receiver := by
    unfold Window.connectTo
    rw [hreceiver]
  rw [hconnect]
  refine ⟨rfl, ?_, fun generation hconnected => (nomatch hconnected), fun generation hmark => (nomatch hmark)⟩
  show (before.selection.bind Selection.model).any isX3800h = true
  rw [hselection]
  exact hcapable

theorem Tracked.step (h : Tracked run) {action : ReconnectAction} (htimely : timely run action = true)
    (hstep : reconnectMachine.step run action = some run') : Tracked run' := by
  cases action with
  | message message =>
    obtain ⟨hchooses, hrun⟩ := Option.ite_none_left_eq_some.mp hstep
    obtain rfl := Option.some.inj hrun
    exact h.message (Window.update_carries (eq_false_of_ne_true hchooses))
  | event requestId event =>
    obtain ⟨hread, hrun⟩ := Option.ite_none_left_eq_some.mp hstep
    obtain rfl := Option.some.inj hrun
    exact h.event (Window.onBridge_reacts (eq_false_of_ne_true hread)) fun _ => htimely
  | ended i requestId result =>
    simp only [reconnectMachine] at hstep
    cases hread : run.reading[i]? with
    | none =>
      rw [hread] at hstep
      cases hstep
    | some read =>
      rw [hread] at hstep
      obtain ⟨hkind, hrun⟩ := Option.ite_none_right_eq_some.mp hstep
      obtain rfl := Option.some.inj hrun
      refine h.ended hread ?_
      by_cases hclosing : run.window.closing = true
      · exact .inl (Window.onBridge_of_left (.inr hclosing))
      · have hopen : ¬(run.window.subscription ≠ run.window.subscription ∨ run.window.closing = true) := by
          simp [hclosing]
        unfold Window.onBridge
        rw [if_neg hopen, ← hkind]
        exact .inr (Window.onRead_ends read.generation result)

/-- **The reads of names and sources are not lost across reconnects**, in a run in which a connection begins, and the
source catalog is marked as read, only while no read of another generation is under way. -/
theorem reads_kept (run : ReconnectRun)
    (hrun : reconnectMachine.ReachableBy (fun run action => timely run action = true) run) : ReadsKept run := by
  refine (hrun.invariant (fun _ => tracked_of_init) ?_).readsKept
  intro run action run' _ htimely htracked hstep
  exact htracked.step htimely hstep

end Runs

/-! ### A reconnect while the reads run -/

section Example

def denX3800h : Selection := ⟨"den", some "AVR-X3800H"⟩

/-- The window has chosen the den's receiver. -/
def reconnectStart : ReconnectRun := { window := { ({} : Window).choose denX3800h with tasks := [] } }

theorem reconnectStart_init : reconnectMachine.init reconnectStart :=
  ⟨({} : Window).chosen denX3800h, denX3800h, rfl, by decide, by decide +kernel, rfl⟩

/-- The receiver connects, and reconnects while the names and the sources of the first connection are read. -/
def reconnectedEarly : List ReconnectAction :=
  [.event 1 (.state denOn), .event 1 (.state { denState with epoch := none }),
    .event 1 (.state { denOn with epoch := some 2 }), .ended 0 2 (.quickSelectNames (.ok fun _ => none)),
    .ended 1 4 (.sourceCatalog (.error "timeout"))]

theorem reconnectedEarly_isSome : (reconnectMachine.exec reconnectStart reconnectedEarly).isSome = true := by
  decide +kernel

def afterReconnectedEarly : ReconnectRun :=
  (reconnectMachine.exec reconnectStart reconnectedEarly).get reconnectedEarly_isSome

/-- The second connection is without names and without sources, and nothing is under way that would bring them. -/
theorem not_readsKept : ∃ run, reconnectMachine.Reachable run ∧ ¬ReadsKept run ∧
    (∃ generation, run.window.lifecycle = .connected generation ∧
      run.window.supplemental.namesReadInFlight = false ∧ ⟨.quickSelectNames, generation⟩ ∉ run.since) ∧
    ∃ generation, run.window.supplemental.catalogAutoGeneration = some generation ∧
      run.window.supplemental.catalogReadInFlight = false ∧ ⟨.sourceCatalog, generation⟩ ∉ run.ended := by
  have hnames : afterReconnectedEarly.window.lifecycle = .connected 2 ∧
      afterReconnectedEarly.window.supplemental.namesReadInFlight = false ∧
      ⟨.quickSelectNames, 2⟩ ∉ afterReconnectedEarly.since := by decide +kernel
  have hcatalog : afterReconnectedEarly.window.supplemental.catalogAutoGeneration = some 2 ∧
      afterReconnectedEarly.window.supplemental.catalogReadInFlight = false ∧
      ⟨.sourceCatalog, 2⟩ ∉ afterReconnectedEarly.ended := by decide +kernel
  refine ⟨afterReconnectedEarly, Machine.reachable_of_exec reconnectStart reconnectedEarly reconnectStart_init
    (Option.some_get reconnectedEarly_isSome).symm, fun hkept => ?_, ⟨2, hnames⟩, ⟨2, hcatalog⟩⟩
  exact hnames.2.2 (hkept.names 2 hnames.1 hnames.2.1)

/-- The reads of the first connection end before the receiver reconnects. -/
def reconnectedLate : List ReconnectAction :=
  [.event 1 (.state denOn), .ended 0 2 (.quickSelectNames (.ok fun _ => none)),
    .ended 1 4 (.sourceCatalog (.error "timeout")), .event 1 (.state { denState with epoch := none }),
    .event 1 (.state { denOn with epoch := some 2 }), .ended 1 5 (.quickSelectNames (.ok fun _ => none))]

theorem reconnectedLate_isSome :
    (reconnectMachine.execBy (fun run action => timely run action = true) reconnectStart reconnectedLate).isSome =
      true := by decide +kernel

def afterReconnectedLate : ReconnectRun :=
  (reconnectMachine.execBy (fun run action => timely run action = true) reconnectStart reconnectedLate).get
    reconnectedLate_isSome

theorem reads_kept_reconnectedLate : ReadsKept afterReconnectedLate ∧
    afterReconnectedLate.window.lifecycle = .connected 2 ∧
    afterReconnectedLate.since = [⟨.quickSelectNames, 2⟩] := by
  refine ⟨reads_kept afterReconnectedLate (Machine.reachableBy_of_execBy reconnectStart reconnectedLate
    reconnectStart_init (Option.some_get reconnectedLate_isSome).symm), ?_, ?_⟩
  · decide +kernel
  · decide +kernel

end Example

end DenonAvr.Gui
