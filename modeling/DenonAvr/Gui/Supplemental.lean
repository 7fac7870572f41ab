import DenonAvr.Gui.Controls

/-!
# Supplemental reads

A read over HTTP is stamped with the window's generation, and its result is discarded when the window has another
generation by the time it arrives. A generation tells one connection from another only if no number comes twice while a
read is under way. The numbers of one session rise, but a new session of the same receiver starts over
(`not_stale_reads_discarded`), and a read that the window handed over for one selection may be taken by the bridge for the
next one. In runs in which neither brings a number back, what was read in an earlier connection is discarded
(`stale_reads_discarded`).
-/

namespace DenonAvr.Gui

open Domain Library

/-! ### Reads under way -/

/-- A read that the bridge has taken, for the selection of a `Select` request. -/
structure TakenRead where
  id : ℕ
  generation : ℕ
  subscription : ℕ
deriving DecidableEq

def BridgeTask.read? : BridgeTask → Option TakenRead
  | .read _ id generation chosen => some ⟨id, generation, chosen.subscription⟩
  | _ => none

def BridgeEvent.read? (event : BridgeEvent) : Option TakenRead :=
  match event.event with
  | .read generation _ => some ⟨event.requestId, generation, event.subscription⟩
  | _ => none

/-- The reads that run, and those whose result is on its way to the window. -/
def GuiRun.takenReads (run : GuiRun) : List TakenRead :=
  run.tasks.filterMap BridgeTask.read? ++ (run.finished ++ run.events).filterMap BridgeEvent.read?

/-- The request was made in another connection than this one. -/
def madeElsewhere (log : List GuiEntry) (id connection : ℕ) : Bool :=
  log.any fun entry =>
    match entry with
    | .requested other _ _ made => other == id && made != connection
    | _ => false

/-- A read of another connection passes for one of this connection. -/
def mistaken (log : List GuiEntry) (subscription generation connection : ℕ) (read : TakenRead) : Bool :=
  read.subscription == subscription && read.generation == generation && madeElsewhere log read.id connection

/-- The step brings a number back: the window goes on with a generation under which a read of an earlier connection is
under way, or the bridge takes a read of an earlier connection for a selection whose generation is the one that the read
was stamped with. -/
def repeats (run : GuiRun) : GuiAction → Bool
  | .event =>
    match run.events with
    | [] => false
    | event :: rest =>
      let (generation, ended) := run.window.nextNumber event.event
      event.subscription == run.window.subscription && !run.window.closing &&
        { run with events := rest }.takenReads.any
          (mistaken run.log run.window.subscription generation (run.window.connection + ended.toNat))
  | .command =>
    match run.queue, run.selected with
    | .read _ id generation :: _, some chosen =>
      mistaken run.log run.window.subscription run.window.generation run.window.connection
        ⟨id, generation, chosen.subscription⟩
    | _, _ => false
  | _ => false

/-! ### What the window does with a result -/

/-- The result leaves what was read over HTTP alone: the window does what it would do with any other result. -/
structure Discards (window : Window) (event : BridgeEvent) (generation : ℕ) (result : ReadResult) : Prop where
  any : ∀ other : ReadResult, other.kind = result.kind →
    window.onBridge { event with event := .read generation other } =
      window.onBridge { event with event := .read generation result }
  sourceCatalog : (window.onBridge { event with event := .read generation result }).sourceCatalog = window.sourceCatalog
  quickSelect : (window.onBridge { event with event := .read generation result }).quickSelect = window.quickSelect
  httpInformation :
    (window.onBridge { event with event := .read generation result }).snapshot.httpInformation =
        window.snapshot.httpInformation ∨
      (window.onBridge { event with event := .read generation result }).snapshot.httpInformation =
        .invalidate window.generation

section Results
variable {window : Window} {event : BridgeEvent} {generation : ℕ} {result : ReadResult}

/-- What the window does with a result that it discards. -/
def Window.discard (window : Window) : ReadKind → Window
  | .sourceCatalog => { window with supplemental := { window.supplemental with catalogReadInFlight := false } }
  | .quickSelectNames => { window with supplemental := { window.supplemental with namesReadInFlight := false } }
  | .httpInformation =>
    let ended :=
      { window with supplemental := { window.supplemental with httpReadInFlight := false, httpReadAgain := false } }
    if window.supplemental.httpReadAgain then ended.requestHttpInformation else ended

theorem onRead_of_ne (h : generation ≠ window.generation) :
    window.onRead generation result = window.discard result.kind := by
  unfold Window.onRead
  cases result <;> dsimp only <;> rw [if_neg h] <;> rfl

theorem requestHttpInformation_data (window : Window) :
    window.requestHttpInformation.sourceCatalog = window.sourceCatalog ∧
      window.requestHttpInformation.quickSelect = window.quickSelect ∧
      (window.requestHttpInformation.snapshot.httpInformation = window.snapshot.httpInformation ∨
        window.requestHttpInformation.snapshot.httpInformation = .invalidate window.generation) := by
  unfold Window.requestHttpInformation
  split_ifs
  · exact ⟨rfl, rfl, .inl rfl⟩
  · exact ⟨rfl, rfl, .inr rfl⟩
  · exact ⟨rfl, rfl, .inl rfl⟩
  · exact ⟨rfl, rfl, .inl rfl⟩

theorem discard_data (window : Window) (kind : ReadKind) :
    (window.discard kind).sourceCatalog = window.sourceCatalog ∧ (window.discard kind).quickSelect = window.quickSelect ∧
      ((window.discard kind).snapshot.httpInformation = window.snapshot.httpInformation ∨
        (window.discard kind).snapshot.httpInformation = .invalidate window.generation) := by
  cases kind with
  | sourceCatalog | quickSelectNames => exact ⟨rfl, rfl, .inl rfl⟩
  | httpInformation =>
    unfold Window.discard
    dsimp only
    split_ifs
    · exact requestHttpInformation_data _
    · exact ⟨rfl, rfl, .inl rfl⟩

/-- A read for another selection or with another number is discarded. -/
theorem discards_of_ne (h : event.subscription = window.subscription → generation ≠ window.generation) :
    Discards window event generation result := by
  by_cases hleft : event.subscription ≠ window.subscription ∨ window.closing = true
  · have hsame : ∀ result, window.onBridge { event with event := .read generation result } = window :=
      fun result => Window.onBridge_of_left hleft
    exact ⟨fun other _ => (hsame other).trans (hsame result).symm, by rw [hsame], by rw [hsame], .inl (by rw [hsame])⟩
  · have hne : generation ≠ window.generation := by
      refine h ?_
      by_contra hother
      exact hleft (.inl hother)
    have hdiscarded : ∀ result : ReadResult, window.onBridge { event with event := .read generation result } =
        window.discard result.kind := fun result => (if_neg hleft).trans (onRead_of_ne hne)
    obtain ⟨hcatalog, hnames, hinformation⟩ := discard_data window result.kind
    refine ⟨fun other hkind => ?_, ?_, ?_, ?_⟩
    · rw [hdiscarded, hdiscarded, hkind]
    · rw [hdiscarded, hcatalog]
    · rw [hdiscarded, hnames]
    · rw [hdiscarded]
      exact hinformation

end Results

/-! ### Reads of other connections -/

section Logs
variable {log extra : List GuiEntry} {run run' : GuiRun} {id connection : ℕ} {read : TakenRead}

theorem madeElsewhere_iff : madeElsewhere log id connection = true ↔
    ∃ kind subscription made, .requested id kind subscription made ∈ log ∧ made ≠ connection := by
  unfold madeElsewhere
  rw [List.any_eq_true]
  constructor
  · rintro ⟨entry, hentry, hmade⟩
    cases entry with
    | requested other kind subscription made =>
      simp only [Bool.and_eq_true, beq_iff_eq, bne_iff_ne] at hmade
      obtain ⟨rfl, hmade⟩ := hmade
      exact ⟨kind, subscription, made, hentry, hmade⟩
    | _ => cases hmade
  · rintro ⟨kind, subscription, made, hentry, hmade⟩
    exact ⟨_, hentry, by simpa using hmade⟩

theorem madeElsewhere_append (h : ∀ kind subscription made, .requested id kind subscription made ∉ extra) :
    madeElsewhere (log ++ extra) id connection = madeElsewhere log id connection := by
  rw [Bool.eq_iff_iff, madeElsewhere_iff, madeElsewhere_iff]
  constructor
  · rintro ⟨kind, subscription, made, hentry, hmade⟩
    exact ⟨kind, subscription, made, (List.mem_append.mp hentry).resolve_right (h kind subscription made), hmade⟩
  · rintro ⟨kind, subscription, made, hentry, hmade⟩
    exact ⟨kind, subscription, made, List.mem_append_left _ hentry, hmade⟩

theorem mistaken_append {subscription generation : ℕ}
    (h : ∀ kind subscription made, .requested read.id kind subscription made ∉ extra) :
    mistaken (log ++ extra) subscription generation connection read =
      mistaken log subscription generation connection read := by
  unfold mistaken
  rw [madeElsewhere_append h]

/-- What holds of a read that the bridge has taken. -/
structure Kept (run : GuiRun) (read : TakenRead) : Prop where
  known : read.id ≤ run.window.requestId
  subscription : read.subscription ≤ run.window.subscription
  requested : ∃ kind subscription connection, .requested read.id kind subscription connection ∈ run.log
  apart : mistaken run.log run.window.subscription run.window.generation run.window.connection read = false

/-- A read that the window has handed over was requested. -/
def Requested (log : List GuiEntry) : BridgeCommand → Prop
  | .read _ id _ => ∃ kind subscription connection, .requested id kind subscription connection ∈ log
  | _ => True

structure Stamped (run : GuiRun) : Prop where
  issued : run.window.subscription ≤ run.window.requestId
  chose : ∀ subscription receiver, .chose subscription receiver ∈ run.log → subscription ≤ run.window.subscription
  requested : ∀ command ∈ run.sending ++ run.queue, Requested run.log command
  reads : ∀ read ∈ run.takenReads, Kept run read

theorem Requested.mono {log' : List GuiEntry} {command : BridgeCommand} (h : Requested log command) (hlog : log ⊆ log') :
    Requested log' command := by
  cases command with
  | read kind id generation =>
    obtain ⟨kind, subscription, connection, hentry⟩ := h
    exact ⟨kind, subscription, connection, hlog hentry⟩
  | _ => trivial

theorem Stamped.frame (h : Stamped run) (hwindow : run'.window = run.window) (hlog : run'.log = run.log ++ extra)
    (hextra : ∀ entry ∈ extra, entry.isWindows = false)
    (hcommands : ∀ command ∈ run'.sending ++ run'.queue, command ∈ run.sending ++ run.queue)
    (hreads : ∀ read ∈ run'.takenReads, read ∈ run.takenReads ∨ Kept run read) : Stamped run' := by
  have hsub : run.log ⊆ run'.log := by
    rw [hlog]
    exact List.subset_append_left _ _
  have hnot : ∀ id kind subscription made, .requested id kind subscription made ∉ extra :=
    fun id kind subscription made hentry => nomatch hextra _ hentry
  refine ⟨hwindow ▸ h.issued, fun subscription receiver hentry => ?_,
    fun command hcommand => (h.requested command (hcommands command hcommand)).mono hsub, fun read hread => ?_⟩
  · rw [hlog] at hentry
    rw [hwindow]
    exact h.chose subscription receiver ((List.mem_append.mp hentry).resolve_right fun hentry => nomatch hextra _ hentry)
  · have hkept : Kept run read := (hreads read hread).elim (h.reads read) id
    obtain ⟨kind, subscription, connection, hrequested⟩ := hkept.requested
    refine ⟨hwindow ▸ hkept.known, hwindow ▸ hkept.subscription, ⟨kind, subscription, connection, hsub hrequested⟩, ?_⟩
    rw [hwindow, hlog, mistaken_append (hnot read.id)]
    exact hkept.apart

theorem Stamped.same (h : Stamped run) (hwindow : run'.window = run.window) (hlog : run'.log = run.log)
    (hcommands : ∀ command ∈ run'.sending ++ run'.queue, command ∈ run.sending ++ run.queue)
    (hreads : ∀ read ∈ run'.takenReads, read ∈ run.takenReads ∨ Kept run read) : Stamped run' :=
  h.frame hwindow (hlog.trans (List.append_nil run.log).symm) (fun _ hentry => absurd hentry List.not_mem_nil) hcommands
    hreads

theorem Kept.congr (h : Kept run read) (hwindow : run'.window = run.window) (hlog : run'.log = run.log) :
    Kept run' read := by
  refine ⟨hwindow ▸ h.known, hwindow ▸ h.subscription, hlog ▸ h.requested, ?_⟩
  rw [hwindow, hlog]
  exact h.apart

/-- The window after an update, in the numbers that the update leaves it with. -/
theorem Stamped.adopt (h : Stamped run) (htasks : run.window.tasks = []) {window : Window} {shown : List GuiEntry}
    {P : BridgeCommand → Prop} (hasks : Asks P run.window window) (hissued : window.subscription ≤ window.requestId)
    (hshown : ∀ entry ∈ shown, ∃ subscription state, entry = .shown subscription state)
    (hselect : ∀ id receiver, P (.select id receiver) → id = window.subscription)
    (hle : run.window.subscription ≤ window.subscription)
    (hapart : ∀ read ∈ run.takenReads, Kept run read →
      mistaken run.log window.subscription window.generation window.connection read = false) :
    Stamped (run.adopt window shown) := by
  obtain ⟨started, hstarted, -, hnew⟩ := hasks.tasks
  rw [htasks, List.nil_append] at hstarted
  have hlog : (run.adopt window shown).log = run.log ++ (shown ++ started.filterMap window.entryOf) := by
    rw [← hstarted]
    exact List.append_assoc _ _ _
  have hsub : run.log ⊆ (run.adopt window shown).log := by
    rw [hlog]
    exact List.subset_append_left _ _
  have hentries : ∀ entry ∈ shown ++ started.filterMap window.entryOf, (∃ subscription state, entry = .shown subscription state) ∨
      ∃ command ∈ started, window.entryOf command = some entry := by
    intro entry hentry
    obtain hentry | hentry := List.mem_append.mp hentry
    · exact .inl (hshown entry hentry)
    · exact .inr (List.mem_filterMap.mp hentry)
  refine ⟨hissued, fun subscription receiver hentry => ?_, fun command hcommand => ?_, fun read hread => ?_⟩
  · rw [hlog, List.mem_append] at hentry
    obtain hentry | hentry := hentry
    · exact (h.chose subscription receiver hentry).trans hle
    · obtain ⟨_, _, hentry⟩ | ⟨command, hcommand, hentry⟩ := hentries _ hentry
      · cases hentry
      · cases command with
        | select id receiver =>
          obtain ⟨rfl, rfl⟩ := GuiEntry.chose.inj (Option.some.inj hentry)
          exact (hselect _ _ (hnew _ hcommand).2.2).le
        | refresh | control | read => cases hentry
  · have hcommand : command ∈ (run.sending ++ window.tasks) ++ run.queue := hcommand
    rw [List.append_assoc, List.mem_append, List.mem_append, hstarted] at hcommand
    obtain hcommand | hcommand | hcommand := hcommand
    · exact (h.requested command (List.mem_append_left _ hcommand)).mono hsub
    · cases command with
      | read kind id generation =>
        refine ⟨kind, window.subscription, window.connection, ?_⟩
        rw [hlog]
        exact List.mem_append_right _ (List.mem_append_right _ (List.mem_filterMap.mpr ⟨_, hcommand, rfl⟩))
      | _ => trivial
    · exact (h.requested command (List.mem_append_right _ hcommand)).mono hsub
  · have hkept : Kept run read := h.reads read hread
    obtain ⟨kind, subscription, connection, hrequested⟩ := hkept.requested
    refine ⟨hkept.known.trans hasks.requestId, hkept.subscription.trans hle,
      ⟨kind, subscription, connection, hsub hrequested⟩, ?_⟩
    rw [hlog, mistaken_append]
    · exact hapart read hread hkept
    · -- what is requested now has a new number
      intro kind subscription made hentry
      obtain ⟨_, _, hentry⟩ | ⟨command, hcommand, hentry⟩ := hentries _ hentry
      · cases hentry
      · have hlt := (hnew command hcommand).1
        have hknown := hkept.known
        cases command with
        | read kind id generation =>
          obtain ⟨rfl, -⟩ := GuiEntry.requested.inj (Option.some.inj hentry)
          exact absurd hknown (Nat.not_le.mpr hlt)
        | refresh | control | select => cases hentry

theorem Stamped.message (h : Stamped run) (htasks : run.window.tasks = []) (message : Message) :
    Stamped (run.adopt (run.window.update message) []) := by
  obtain hquiet | hchooses := run.window.update_spec message
  · refine h.adopt htasks hquiet.asks ?_ (fun _ hentry => absurd hentry List.not_mem_nil)
      (fun id receiver hstarts => hstarts.elim) hquiet.subscription.ge fun read hread hkept => ?_
    · rw [hquiet.subscription]
      exact h.issued.trans hquiet.asks.requestId
    · rw [hquiet.subscription, hquiet.generation, hquiet.connection]
      exact hkept.apart
  · obtain ⟨receiver, hselect⟩ := hchooses.tasks
    have hasks : Asks (fun command => command = .select (run.window.requestId + 1) receiver) run.window
        (run.window.update message) := by
      refine ⟨by rw [hchooses.requestId]; exact Nat.le_succ _, _, hselect, List.nodup_singleton _,
        fun command hcommand => ?_⟩
      obtain rfl := List.mem_singleton.mp hcommand
      rw [hchooses.requestId]
      exact ⟨Nat.lt_succ_self _, le_rfl, rfl⟩
    have hlater : run.window.subscription < (run.window.update message).subscription := by
      rw [hchooses.subscription]
      exact Nat.lt_succ_of_le h.issued
    refine h.adopt htasks hasks (by rw [hchooses.subscription, hchooses.requestId])
      (fun _ hentry => absurd hentry List.not_mem_nil) (fun id receiver heq => ?_) hlater.le fun read hread hkept => ?_
    · obtain ⟨rfl, -⟩ := BridgeCommand.select.inj heq
      exact hchooses.subscription.symm
    · -- no read is for the new selection yet
      have hne : read.subscription ≠ (run.window.update message).subscription := (hkept.subscription.trans_lt hlater).ne
      unfold mistaken
      rw [beq_false_of_ne hne]
      rfl

theorem Stamped.event (h : Stamped run) (htasks : run.window.tasks = []) {event : BridgeEvent} {rest : List BridgeEvent}
    (hevents : run.events = event :: rest) (hrepeats : repeats run .event = false) :
    Stamped ({ run with events := rest }.adopt (run.window.onBridge event) (run.window.shownBy event)) := by
  have hrest : Stamped { run with events := rest } := by
    refine h.same rfl rfl (fun _ hcommand => hcommand) fun read hread => .inl ?_
    unfold GuiRun.takenReads at hread ⊢
    rw [hevents]
    simp only [List.mem_append, List.filterMap_append, List.filterMap_cons] at hread ⊢
    cases event.read? with
    | none => exact hread
    | some first => exact hread.imp_right fun hread => hread.imp_right (List.mem_cons_of_mem _)
  have hshown : ∀ entry ∈ run.window.shownBy event, ∃ subscription state, entry = .shown subscription state := by
    intro entry hentry
    unfold Window.shownBy at hentry
    split at hentry
    · split_ifs at hentry
      · exact absurd hentry List.not_mem_nil
      · exact ⟨_, _, List.mem_singleton.mp hentry⟩
    · exact absurd hentry List.not_mem_nil
  by_cases hleft : event.subscription ≠ run.window.subscription ∨ run.window.closing = true
  · rw [Window.onBridge_of_left hleft]
    exact hrest.adopt htasks (P := fun _ => False) (.same rfl rfl) h.issued hshown (fun _ _ hnone => hnone.elim) le_rfl
      fun read hread hkept => hkept.apart
  · obtain ⟨hsubscription, hopen⟩ := not_or.mp hleft
    rw [not_ne_iff] at hsubscription
    have htakes := Window.onBridge_takes hsubscription (eq_false_of_ne_true hopen)
    refine hrest.adopt htasks htakes.asks ?_ hshown (fun id receiver hread => ?_) htakes.subscription.ge
      fun read hread hkept => ?_
    · rw [htakes.subscription]
      exact h.issued.trans htakes.asks.requestId
    · obtain ⟨kind, id, hread⟩ := hread
      cases hread
    · unfold repeats at hrepeats
      rw [hevents] at hrepeats
      dsimp only at hrepeats
      rw [hsubscription, beq_self_eq_true, eq_false_of_ne_true hopen, Bool.not_false, Bool.true_and, Bool.true_and,
        List.any_eq_false] at hrepeats
      rw [htakes.subscription, htakes.generation, htakes.connection]
      exact eq_false_of_ne_true (hrepeats read hread)

/-! ### The bridge's steps -/

theorem GuiRun.mem_takenReads : read ∈ run.takenReads ↔
    (∃ task ∈ run.tasks, task.read? = some read) ∨ (∃ event ∈ run.finished, event.read? = some read) ∨
      ∃ event ∈ run.events, event.read? = some read := by
  unfold GuiRun.takenReads
  rw [List.filterMap_append, List.mem_append, List.mem_append, List.mem_filterMap, List.mem_filterMap, List.mem_filterMap]

theorem GuiRun.takenReads_send (run : GuiRun) (requestId subscription : ℕ) {event : PortEvent}
    (h : ∀ generation result, event ≠ .read generation result) :
    (run.send requestId subscription event).takenReads = run.takenReads := by
  have hnone : BridgeEvent.read? ⟨requestId, subscription, event⟩ = none := by
    cases event with
    | read generation result => exact absurd rfl (h generation result)
    | _ => rfl
  unfold GuiRun.takenReads GuiRun.send
  simp only [List.filterMap_append, List.filterMap_cons, List.filterMap_nil, hnone, List.append_nil]

theorem GuiRun.takenReads_forward (run : GuiRun) (chosen : Selected) (state : ReceiverState) :
    (run.forward chosen state).takenReads = run.takenReads := by
  unfold GuiRun.forward
  split_ifs
  · rfl
  · exact GuiRun.takenReads_send _ _ _ fun _ _ h => nomatch h

theorem Stamped.forward (h : Stamped run) (chosen : Selected) (state : ReceiverState) :
    Stamped (run.forward chosen state) := by
  have htaken := run.takenReads_forward chosen state
  obtain ⟨forwarded, events, heq⟩ := run.forward_eq chosen state
  rw [heq] at htaken ⊢
  exact h.same rfl rfl (fun _ hcommand => hcommand) fun read hread => .inl (htaken ▸ hread)

theorem Stamped.send (h : Stamped run) (requestId subscription : ℕ) {event : PortEvent}
    (hnot : ∀ generation result, event ≠ .read generation result) : Stamped (run.send requestId subscription event) := by
  refine h.same rfl rfl (fun _ hcommand => hcommand) fun read hread => .inl ?_
  rw [← run.takenReads_send requestId subscription hnot]
  exact hread

theorem Stamped.record (h : Stamped run) {entry : GuiEntry} (hentry : entry.isWindows = false) :
    Stamped (run.record entry) := by
  refine h.frame rfl rfl (fun other hother => ?_) (fun _ hcommand => hcommand) fun read hread => .inl hread
  obtain rfl := List.mem_singleton.mp hother
  exact hentry

theorem Stamped.spawn (h : Stamped run) {task : BridgeTask} (htask : ∀ read, task.read? = some read → Kept run read) :
    Stamped (run.spawn task) := by
  refine h.same rfl rfl (fun _ hcommand => hcommand) fun read hread => ?_
  obtain ⟨other, hother, hread'⟩ | hread' := GuiRun.mem_takenReads.mp hread
  · obtain hother | hother := List.mem_append.mp hother
    · exact .inl (GuiRun.mem_takenReads.mpr (.inl ⟨other, hother, hread'⟩))
    · obtain rfl := List.mem_singleton.mp hother
      exact .inr (htask read hread')
  · exact .inl (GuiRun.mem_takenReads.mpr (.inr hread'))

theorem Stamped.pop (h : Stamped run) {command : BridgeCommand} {rest : List BridgeCommand}
    (hqueue : run.queue = command :: rest) : Stamped { run with queue := rest } := by
  refine h.same rfl rfl (fun other hother => ?_) fun read hread => .inl hread
  rw [hqueue]
  exact (List.mem_append.mp hother).elim (List.mem_append_left _) fun hrest =>
    List.mem_append_right _ (List.mem_cons_of_mem _ hrest)

theorem Stamped.handleControl (h : Stamped run) (id : ℕ) (intent : ReceiverIntent) (guard : Option FieldBaseline) :
    Stamped (run.handleControl id intent guard) := by
  have htook : Stamped (run.record (.took id intent guard run.selected run.active)) := h.record rfl
  unfold GuiRun.handleControl
  dsimp only
  split
  · exact (htook.record rfl).send _ _ fun _ _ hread => nomatch hread
  · split
    · split_ifs
      · exact htook.spawn fun _ hread => nomatch hread
      · exact (htook.record rfl).send _ _ fun _ _ hread => nomatch hread
    · exact htook.spawn fun _ hread => nomatch hread

/-- **A command in the bridge.** -/
theorem Stamped.handle (h : Stamped run) (hwired : Wired run) {command : BridgeCommand} {rest : List BridgeCommand}
    (hqueue : run.queue = command :: rest) (hrepeats : repeats run .command = false) :
    Stamped ({ run with queue := rest }.handle command) := by
  have hpopped := h.pop hqueue
  have hmem : command ∈ run.sending ++ run.queue := by
    rw [hqueue]
    exact List.mem_append_right _ List.mem_cons_self
  cases command with
  | control id intent guard => exact hpopped.handleControl id intent guard
  | select id receiver =>
    exact hpopped.same rfl rfl (fun _ hcommand => hcommand) fun read hread => .inl hread
  | refresh id =>
    unfold GuiRun.handle
    dsimp only
    split
    · exact hpopped.send _ _ fun _ _ hread => nomatch hread
    · split_ifs
      · exact hpopped.same rfl rfl (fun _ hcommand => hcommand) fun read hread => .inl hread
      · exact hpopped.spawn fun _ hread => nomatch hread
  | read kind id generation =>
    unfold GuiRun.handle
    dsimp only
    split
    · exact hpopped
    · rename_i chosen hselected
      refine hpopped.spawn fun read hread => ?_
      obtain rfl := Option.some.inj hread
      have hselected : run.selected = some chosen := hselected
      refine ⟨hwired.known id ?_, h.chose _ _ (hwired.bound chosen hselected).1, h.requested _ hmem, ?_⟩
      · exact List.mem_append_right _ (List.mem_map.mpr ⟨_, hmem, rfl⟩)
      · unfold repeats at hrepeats
        rw [hqueue, hselected] at hrepeats
        exact hrepeats

/-- **A change of the state subscription.** -/
theorem Stamped.changed (h : Stamped run) (hchanged : run.onChanged = some run') : Stamped run' := by
  have hactive : ∀ forwarded subscription, Stamped { run with active := subscription, forwarded } :=
    fun forwarded subscription =>
      h.same rfl rfl (fun _ hcommand => hcommand) fun read hread => .inl hread
  unfold GuiRun.onChanged at hchanged
  split at hchanged
  · cases hchanged
  · split_ifs at hchanged
    · dsimp only at hchanged
      split at hchanged
      · obtain rfl := Option.some.inj hchanged
        exact hactive _ _
      · obtain rfl := Option.some.inj hchanged
        have hended : Stamped { run with active := none, forwarded := none, subscribing := true } :=
          (hactive none none).same rfl rfl (fun _ hcommand => hcommand) fun read hread => .inl hread
        exact hended.send _ _ fun _ _ hread => nomatch hread
    · dsimp only at hchanged
      split at hchanged
      · obtain rfl := Option.some.inj hchanged
        exact hactive _ _
      · obtain rfl := Option.some.inj hchanged
        exact (hactive _ _).forward _ _

/-- **A finished task's event.** -/
theorem Stamped.done (h : Stamped run) {event : BridgeEvent} {rest : List BridgeEvent}
    (hfinished : run.finished = event :: rest) : Stamped ({ run with finished := rest }.onDone event) := by
  have hrest : Stamped { run with finished := rest } := by
    refine h.same rfl rfl (fun _ hcommand => hcommand) fun read hread => .inl (GuiRun.mem_takenReads.mpr ?_)
    rw [hfinished]
    exact (GuiRun.mem_takenReads.mp hread).imp_right fun hread => hread.imp_left fun ⟨other, hother, hread⟩ =>
      ⟨other, List.mem_cons_of_mem _ hother, hread⟩
  have hkept : ∀ read, event.read? = some read → Kept run read := fun read hread =>
    h.reads read (GuiRun.mem_takenReads.mpr (.inr (.inl ⟨event, hfinished ▸ List.mem_cons_self, hread⟩)))
  -- the event goes behind whatever was forwarded
  have hpush : ∀ forwarding : GuiRun, Stamped forwarding → forwarding.window = run.window → forwarding.log = run.log →
      Stamped { forwarding with events := forwarding.events ++ [event] } := by
    intro forwarding hforwarding hwindow hlog
    refine hforwarding.same rfl rfl (fun _ hcommand => hcommand) fun read hread => ?_
    obtain htask | hended | ⟨other, hother, hother'⟩ := GuiRun.mem_takenReads.mp hread
    · exact .inl (GuiRun.mem_takenReads.mpr (.inl htask))
    · exact .inl (GuiRun.mem_takenReads.mpr (.inr (.inl hended)))
    · obtain hother | hother := List.mem_append.mp hother
      · exact .inl (GuiRun.mem_takenReads.mpr (.inr (.inr ⟨other, hother, hother'⟩)))
      · obtain rfl := List.mem_singleton.mp hother
        exact .inr ((hkept read hother').congr hwindow hlog)
  unfold GuiRun.onDone
  dsimp only
  split
  · refine hpush _ (hrest.forward _ _) ?_ ?_
    · obtain ⟨forwarded, events, heq⟩ := GuiRun.forward_eq { run with finished := rest } ‹Selected› (‹StateSubscription›).latest
      rw [heq]
    · obtain ⟨forwarded, events, heq⟩ := GuiRun.forward_eq { run with finished := rest } ‹Selected› (‹StateSubscription›).latest
      rw [heq]
  · exact hpush _ hrest rfl rfl

/-- **The end of a subscription's start.** -/
theorem Stamped.subscribed (h : Stamped run) (chosen : Selected) (result : Except String ReceiverState) :
    Stamped (run.onSubscribed chosen result) := by
  unfold GuiRun.onSubscribed
  cases result with
  | ok latest =>
    refine Stamped.forward ?_ _ _
    exact h.same rfl rfl (fun _ hcommand => hcommand) fun read hread => .inl hread
  | error message =>
    have hfailed : Stamped { run with subscribing := false, active := none } :=
      h.same rfl rfl (fun _ hcommand => hcommand) fun read hread => .inl hread
    exact hfailed.send _ _ fun _ _ hread => nomatch hread

/-- **A spawned task ends.** What it leaves is the read that it ran. -/
theorem Stamped.finish (h : Stamped run) {i : ℕ} {event : PortEvent} {left : BridgeEvent} {task : BridgeTask}
    (htask : run.tasks[i]? = some task) (hleft : task.leave event = some left) :
    Stamped { run with tasks := run.tasks.eraseIdx i, finished := run.finished ++ [left] } := by
  have hread : ∀ read, left.read? = some read → task.read? = some read := by
    intro read hread
    unfold BridgeTask.leave at hleft
    split at hleft
    case h_4 =>
      split_ifs at hleft with hsame
      obtain rfl := Option.some.inj hleft
      obtain ⟨rfl, -⟩ := hsame
      exact hread
    case h_5 => cases hleft
    all_goals
      obtain rfl := Option.some.inj hleft
      cases hread
  refine h.same rfl rfl (fun _ hcommand => hcommand) fun read hmem => .inl (GuiRun.mem_takenReads.mpr ?_)
  obtain ⟨other, hother, hother'⟩ | ⟨other, hother, hother'⟩ | hevent := GuiRun.mem_takenReads.mp hmem
  · exact .inl ⟨other, List.mem_of_mem_eraseIdx hother, hother'⟩
  · obtain hother | hother := List.mem_append.mp hother
    · exact .inr (.inl ⟨other, hother, hother'⟩)
    · obtain rfl := List.mem_singleton.mp hother
      exact .inl ⟨task, List.mem_of_getElem? htask, hread read hother'⟩
  · exact .inr (.inr hevent)

theorem Stamped.step (h : Stamped run) (hwired : Wired run) {action : GuiAction} (hrepeats : repeats run action = false)
    (hstep : guiMachine.step run action = some run') : Stamped run' := by
  cases guiStep_of_step hstep with
  | message message => exact h.message hwired.tasks message
  | event event rest hevents => exact h.event hwired.tasks hevents hrepeats
  | send i command hcommand =>
    refine h.same rfl rfl (fun other hother => ?_) fun read hread => .inl hread
    simp only [List.mem_append, List.mem_singleton] at hother ⊢
    obtain hother | hother | rfl := hother
    · exact .inl (List.mem_of_mem_eraseIdx hother)
    · exact .inr hother
    · exact .inl (List.mem_of_getElem? hcommand)
  | command command rest hidle hqueue => exact h.handle hwired hqueue hrepeats
  | changed run' hidle hchanged => exact h.changed hchanged
  | done event rest hidle hfinished => exact h.done hfinished
  | subscribed result chosen => exact h.subscribed chosen result
  | port => exact h.same rfl rfl (fun _ hcommand => hcommand) fun read hread => .inl hread
  | portEnded => exact h.same rfl rfl (fun _ hcommand => hcommand) fun read hread => .inl hread
  | submit i id chosen intent htask =>
    refine h.frame rfl rfl (fun entry hentry => ?_) (fun _ hcommand => hcommand) fun read hread =>
      .inl (GuiRun.mem_takenReads.mpr ?_)
    · obtain rfl := List.mem_singleton.mp hentry
      rfl
    · refine (GuiRun.mem_takenReads.mp hread).imp_left fun ⟨task, htask, hread⟩ => ?_
      obtain htask | rfl := List.mem_or_eq_of_mem_set htask
      · exact ⟨task, htask, hread⟩
      · cases hread
  | finish i event task left htask hleft => exact h.finish htask hleft

theorem stamped_of_reachable (h : guiMachine.ReachableBy (fun run action => repeats run action = false) run) :
    Stamped run := by
  refine Machine.ReachableBy.invariant (fun run hinit => ?_)
    (fun run action run' hreached hrepeats hi hstep => hi.step (wired_of_reachable hreached.reachable) hrepeats hstep) h
  obtain rfl : run = {} := hinit
  exact ⟨le_rfl, fun _ _ hentry => absurd hentry List.not_mem_nil, fun _ hcommand => absurd hcommand List.not_mem_nil,
    fun _ hread => absurd hread List.not_mem_nil⟩

/-- What is promised of the results: a read that arrives was requested, and if it was requested in another connection
than the window has, it is discarded. -/
def StaleDiscarded (run : GuiRun) : Prop :=
  ∀ event rest generation result, run.events = event :: rest → event.event = .read generation result →
    (∃ kind subscription connection, .requested event.requestId kind subscription connection ∈ run.log) ∧
    ∀ kind subscription connection, .requested event.requestId kind subscription connection ∈ run.log →
      connection ≠ run.window.connection → Discards run.window event generation result

/-- **Stale reads are discarded** in every run in which no step brings back the number of an earlier connection for which
a read is under way. -/
theorem stale_reads_discarded (run : GuiRun)
    (h : guiMachine.ReachableBy (fun run action => repeats run action = false) run) : StaleDiscarded run := by
  intro event rest generation result hevents hevent
  have hread : event.read? = some ⟨event.requestId, generation, event.subscription⟩ := by
    unfold BridgeEvent.read?
    rw [hevent]
  have hkept := (stamped_of_reachable h).reads _
    (GuiRun.mem_takenReads.mpr (.inr (.inr ⟨event, hevents ▸ List.mem_cons_self, hread⟩)))
  refine ⟨hkept.requested, fun kind subscription connection hrequested hother => discards_of_ne fun hsubscription heq => ?_⟩
  have hmade : madeElsewhere run.log event.requestId run.window.connection = true :=
    madeElsewhere_iff.mpr ⟨kind, subscription, connection, hrequested, hother⟩
  have hapart := hkept.apart
  unfold mistaken at hapart
  rw [hmade, hsubscription, heq, beq_self_eq_true, beq_self_eq_true] at hapart
  cases hapart

end Logs

/-! ### Two runs -/

section Example

/-- The den's receiver, switched on. -/
def denOn : ReceiverState :=
  { denState with
    mainZone := { denState.mainZone with
      power := { lastGood := some ⟨denId, 1, 0, 0, .receiverFrame, .on⟩, validity := .current 10000 } } }

/-- The window reads the receiver's information, and the read runs. -/
def reading : List GuiAction :=
  [.message (.select den), .send 0, .command, .subscribed (.ok denOn), .event, .send 0, .command]

def information : HttpInformation := { freshness := .live, observedAt := some 5 }

/-- The read ends. -/
def answered : List GuiAction := [.finish 0 (.read 1 (.httpInformation (.ok information))), .done]

/-- The session ends while the read runs, and the next one begins with the epoch that the last one began with. -/
def startedOver : List GuiAction := reading ++ [.portEnded, .changed, .event, .subscribed (.ok denOn), .event] ++ answered

theorem startedOver_isSome : (guiMachine.exec {} startedOver).isSome = true := by decide +kernel

def afterStartedOver : GuiRun := (guiMachine.exec {} startedOver).get startedOver_isSome

/-- What was read in the session before is shown for the new one. -/
theorem not_stale_reads_discarded : ∃ run, guiMachine.Reachable run ∧ ¬StaleDiscarded run := by
  refine ⟨afterStartedOver, Machine.reachable_of_exec ({} : GuiRun) startedOver rfl
    (Option.some_get startedOver_isSome).symm, fun hdiscarded => ?_⟩
  obtain ⟨-, hstale⟩ := hdiscarded ⟨2, 1, .read 1 (.httpInformation (.ok information))⟩ [] 1
    (.httpInformation (.ok information)) rfl rfl
  have hdiscards := hstale .httpInformation 1 1 (by decide +kernel) (by decide +kernel)
  exact absurd hdiscards.httpInformation (by decide +kernel)

/-- The receiver reconnects while the read runs. -/
def reconnected : List GuiAction :=
  reading ++ [.port { denOn with epoch := none }, .changed, .event, .port { denOn with epoch := some 2 }, .changed,
    .event] ++ answered

theorem reconnected_isSome :
    (guiMachine.execBy (fun run action => repeats run action = false) {} reconnected).isSome = true := by decide +kernel

def afterReconnected : GuiRun :=
  (guiMachine.execBy (fun run action => repeats run action = false) {} reconnected).get reconnected_isSome

example : afterReconnected.events.map BridgeEvent.read? = [some ⟨2, 1, 1⟩] := by decide +kernel

theorem stale_reads_discarded_reconnected : StaleDiscarded afterReconnected :=
  stale_reads_discarded afterReconnected
    (Machine.reachableBy_of_execBy ({} : GuiRun) reconnected rfl (Option.some_get reconnected_isSome).symm)

end Example

end DenonAvr.Gui
