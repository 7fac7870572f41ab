import DenonAvr.Gui.Bridge
import DenonAvr.Library.History

/-!
# Guarded controls

A control carries what the window showed of its field when the user acted, and the bridge compares that with the newest
state before it submits the control (`controls_guarded`). A control that is made before the window has a state carries
nothing, and is submitted as it is (`not_every_control_compared`).
-/

namespace DenonAvr.Gui

open Domain Library

/-- The baseline, if there is one to compare, holds in the newest state, if there is one to compare it with. -/
def Compared (guard : Option FieldBaseline) (active : Option StateSubscription) : Prop :=
  ∀ baseline subscription, guard = some baseline → active = some subscription → baseline.holdsIn subscription.latest = true

/-- The control was made under a selection, and carries what the window showed under it. -/
def Made (log : List GuiEntry) (id : ℕ) (intent : ReceiverIntent) (guard : Option FieldBaseline) : Prop :=
  ∃ subscription state, .asked id intent subscription state ∈ log ∧ guard = guardIn state intent ∧
    ∀ shown, state = some shown → .shown subscription shown ∈ log

/-- The bridge's selection is one the window asked for, and its subscription is to that receiver. -/
def Bound (log : List GuiEntry) (selected : Option Selected) (active : Option StateSubscription) : Prop :=
  ∀ chosen, selected = some chosen → .chose chosen.subscription chosen.receiver ∈ log ∧
    ∀ subscription, active = some subscription → subscription.receiver = chosen.receiver

def Grounds (before : List GuiEntry) : GuiEntry → Prop
  | .took id intent guard selected active => Made before id intent guard ∧ Bound before selected active
  | .submitted id receiver intent => ∃ guard chosen active, chosen.receiver = receiver ∧
      .took id intent guard (some chosen) active ∈ before ∧ Compared guard active
  | _ => True

def Issued (log : List GuiEntry) : BridgeCommand → Prop
  | .control id intent guard => Made log id intent guard
  | .select id receiver => .chose id receiver ∈ log
  | _ => True

def Spawned (log : List GuiEntry) : BridgeTask → Prop
  | .control id chosen intent _ => ∃ guard active, .took id intent guard (some chosen) active ∈ log ∧ Compared guard active
  | _ => True

def GuiEntry.tookId : GuiEntry → Option ℕ
  | .took id _ _ _ _ => some id
  | _ => none

/-- The numbers of the commands that wait for the bridge and of the controls it has taken. -/
def GuiRun.numbers (run : GuiRun) : List ℕ :=
  run.log.filterMap GuiEntry.tookId ++ (run.sending ++ run.queue).map BridgeCommand.id

/-- How a control that the bridge took was answered at once. -/
def Refused (log : List GuiEntry) : GuiEntry → Prop
  | .took id _ _ none _ => .answered id (.failed GuiRun.noReceiver) ∈ log
  | .took id _ (some baseline) (some _) (some subscription) =>
    baseline.holdsIn subscription.latest = false → .answered id .conflict ∈ log
  | _ => True

structure Wired (run : GuiRun) : Prop where
  tasks : run.window.tasks = []
  shown : ∀ state, run.window.state = some state → .shown run.window.subscription state ∈ run.log
  issued : ∀ command ∈ run.sending ++ run.queue, Issued run.log command
  bound : Bound run.log run.selected run.active
  spawned : ∀ task ∈ run.tasks, Spawned run.log task
  once : run.numbers.Nodup
  known : ∀ id ∈ run.numbers, id ≤ run.window.requestId
  justified : Justified Grounds run.log
  refused : ∀ entry ∈ run.log, Refused run.log entry

section Logs
variable {log log' : List GuiEntry} {run run' : GuiRun}

theorem Made.mono {id : ℕ} {intent : ReceiverIntent} {guard : Option FieldBaseline} (h : Made log id intent guard)
    (hlog : log ⊆ log') : Made log' id intent guard := by
  obtain ⟨subscription, state, hasked, hguard, hshown⟩ := h
  exact ⟨subscription, state, hlog hasked, hguard, fun shown hstate => hlog (hshown shown hstate)⟩

theorem Bound.mono {selected : Option Selected} {active : Option StateSubscription} (h : Bound log selected active)
    (hlog : log ⊆ log') : Bound log' selected active := fun chosen hchosen =>
  ⟨hlog (h chosen hchosen).1, (h chosen hchosen).2⟩

/-- Without a subscription only the selection counts. -/
theorem Bound.without {selected : Option Selected}
    (h : ∀ chosen, selected = some chosen → .chose chosen.subscription chosen.receiver ∈ log) : Bound log selected none := by
  refine fun chosen hchosen => ⟨h chosen hchosen, fun subscription hnone => ?_⟩
  cases hnone

theorem Issued.mono {command : BridgeCommand} (h : Issued log command) (hlog : log ⊆ log') : Issued log' command := by
  cases command with
  | control => exact Made.mono h hlog
  | select => exact hlog h
  | refresh | read => trivial

theorem Spawned.mono {task : BridgeTask} (h : Spawned log task) (hlog : log ⊆ log') : Spawned log' task := by
  cases task with
  | control =>
    obtain ⟨guard, active, htook, hcompared⟩ := h
    exact ⟨guard, active, hlog htook, hcompared⟩
  | refresh | read => trivial

theorem Refused.mono {entry : GuiEntry} (h : Refused log entry) (hlog : log ⊆ log') : Refused log' entry := by
  unfold Refused at *
  split
  · exact hlog h
  · exact fun hmismatch => hlog (h hmismatch)
  · trivial

theorem refused_of_compared {id : ℕ} {intent : ReceiverIntent} {guard : Option FieldBaseline} {chosen : Selected}
    {active : Option StateSubscription} (h : Compared guard active) :
    Refused log (.took id intent guard (some chosen) active) := by
  cases guard with
  | none => trivial
  | some baseline =>
    cases active with
    | none => trivial
    | some subscription => exact fun hmismatch => nomatch (h baseline subscription rfl rfl).symm.trans hmismatch

theorem refused_of_answered {id : ℕ} {intent : ReceiverIntent} {guard : Option FieldBaseline} {chosen : Selected}
    {active : Option StateSubscription} (h : .answered id .conflict ∈ log) :
    Refused log (.took id intent guard (some chosen) active) := by
  cases guard with
  | none => trivial
  | some baseline =>
    cases active with
    | none => trivial
    | some subscription => exact fun _ => h

theorem Wired.frame (h : Wired run) (hwindow : run'.window = run.window) (hlog : run'.log = run.log)
    (hcommands : (run'.sending ++ run'.queue).Perm (run.sending ++ run.queue))
    (hbound : Bound run.log run'.selected run'.active) (htasks : ∀ task ∈ run'.tasks, Spawned run.log task) :
    Wired run' := by
  have hnumbers : run'.numbers.Perm run.numbers := by
    unfold GuiRun.numbers
    rw [hlog]
    exact (hcommands.map _).append_left _
  exact {
    tasks := hwindow ▸ h.tasks
    shown := hwindow ▸ hlog ▸ h.shown
    issued := fun command hcommand => hlog ▸ h.issued command (hcommands.mem_iff.mp hcommand)
    bound := hlog ▸ hbound
    spawned := hlog ▸ htasks
    once := hnumbers.nodup_iff.mpr h.once
    known := fun id hid => hwindow ▸ h.known id (hnumbers.mem_iff.mp hid)
    justified := hlog ▸ h.justified
    refused := hlog ▸ h.refused }

/-- What the window does by itself. -/
def GuiEntry.isWindows : GuiEntry → Bool
  | .chose _ _ | .shown _ _ | .asked _ _ _ _ | .requested _ _ _ _ => true
  | _ => false

theorem GuiEntry.grounds_of_isWindows {entry : GuiEntry} (h : entry.isWindows = true) (before : List GuiEntry) :
    Grounds before entry := by
  cases entry with
  | took | submitted => cases h
  | _ => trivial

theorem GuiEntry.refused_of_isWindows {entry : GuiEntry} (h : entry.isWindows = true) : Refused log entry := by
  cases entry with
  | took => cases h
  | _ => trivial

theorem GuiEntry.tookId_of_isWindows {entry : GuiEntry} (h : entry.isWindows = true) : entry.tookId = none := by
  cases entry with
  | took => cases h
  | _ => rfl

theorem Window.isWindows_entryOf {window : Window} {command : BridgeCommand} {entry : GuiEntry}
    (h : window.entryOf command = some entry) : entry.isWindows = true := by
  cases command with
  | refresh => cases h
  | _ =>
    obtain rfl := Option.some.inj h
    rfl

/-- **The window after a message or an event.** -/
theorem Wired.adopt (h : Wired run) {window : Window} {entries : List GuiEntry} {P : BridgeCommand → Prop}
    (hasks : Asks P run.window window)
    (hguard : ∀ id intent guard, P (.control id intent guard) → guard = window.guardFor intent)
    (hentries : ∀ entry ∈ entries, entry.isWindows = true)
    (hshown : ∀ state, window.state = some state → .shown window.subscription state ∈ run.log ++ entries) :
    Wired (run.adopt window entries) := by
  obtain ⟨started, htasks, hnodup, hstarted⟩ := hasks.tasks
  rw [h.tasks, List.nil_append] at htasks
  have hnew : ∀ entry ∈ entries ++ window.tasks.filterMap window.entryOf, entry.isWindows = true := by
    intro entry hentry
    obtain hentry | hentry := List.mem_append.mp hentry
    · exact hentries entry hentry
    · obtain ⟨command, -, hcommand⟩ := List.mem_filterMap.mp hentry
      exact Window.isWindows_entryOf hcommand
  have hlog : (run.adopt window entries).log = run.log ++ (entries ++ window.tasks.filterMap window.entryOf) :=
    List.append_assoc _ _ _
  have hsub : run.log ⊆ (run.adopt window entries).log := by
    rw [hlog]
    exact List.subset_append_left _ _
  have hshown' : ∀ state, window.state = some state →
      .shown window.subscription state ∈ (run.adopt window entries).log := fun state hstate =>
    List.mem_append_left _ (hshown state hstate)
  have hlogged : ∀ command ∈ started, ∀ entry, window.entryOf command = some entry →
      entry ∈ (run.adopt window entries).log := fun command hcommand entry hentry =>
    List.mem_append_right _ (List.mem_filterMap.mpr ⟨command, htasks ▸ hcommand, hentry⟩)
  have hnumbers : (run.adopt window entries).numbers.Perm (run.numbers ++ started.map BridgeCommand.id) := by
    have htook : (run.adopt window entries).log.filterMap GuiEntry.tookId = run.log.filterMap GuiEntry.tookId := by
      have hnone : (entries ++ window.tasks.filterMap window.entryOf).filterMap GuiEntry.tookId = [] :=
        List.filterMap_eq_nil_iff.mpr fun entry hentry => GuiEntry.tookId_of_isWindows (hnew entry hentry)
      rw [hlog, List.filterMap_append, hnone, List.append_nil]
    unfold GuiRun.numbers
    rw [htook, List.append_assoc, ← List.map_append]
    refine List.Perm.append_left _ (List.Perm.map _ ?_)
    show (run.sending ++ window.tasks ++ run.queue).Perm _
    rw [htasks, List.append_assoc, List.append_assoc]
    exact List.Perm.append_left _ List.perm_append_comm
  exact {
    tasks := rfl
    shown := hshown'
    issued := fun command hcommand => by
      have hcommand : command ∈ (run.sending ++ window.tasks) ++ run.queue := hcommand
      rw [List.append_assoc, List.mem_append, List.mem_append, htasks] at hcommand
      obtain hcommand | hcommand | hcommand := hcommand
      · exact (h.issued command (List.mem_append_left _ hcommand)).mono hsub
      · have hentry := hlogged command hcommand
        cases command with
        | control id intent guard =>
          exact ⟨_, _, hentry _ rfl, hguard id intent guard (hstarted _ hcommand).2.2, hshown'⟩
        | select id receiver => exact hentry _ rfl
        | refresh | read => trivial
      · exact (h.issued command (List.mem_append_right _ hcommand)).mono hsub
    bound := h.bound.mono hsub
    spawned := fun task htask => (h.spawned task htask).mono hsub
    once := by
      refine hnumbers.nodup_iff.mpr (List.nodup_append.mpr ⟨h.once, hnodup, fun id hid id' hid' heq => ?_⟩)
      -- the new numbers are larger
      obtain ⟨command, hcommand, rfl⟩ := List.mem_map.mp hid'
      have hle := h.known id hid
      have hlt := (hstarted command hcommand).1
      omega
    known := fun id hid => by
      obtain hid | hid := List.mem_append.mp (hnumbers.mem_iff.mp hid)
      · exact (h.known id hid).trans hasks.requestId
      · obtain ⟨command, hcommand, rfl⟩ := List.mem_map.mp hid
        exact (hstarted command hcommand).2.1
    justified := by
      rw [hlog]
      exact h.justified.append fun entry hentry before => GuiEntry.grounds_of_isWindows (hnew entry hentry) before
    refused := fun entry hentry => by
      rw [hlog] at hentry
      obtain hentry | hentry := List.mem_append.mp hentry
      · exact (h.refused entry hentry).mono hsub
      · exact GuiEntry.refused_of_isWindows (hnew entry hentry) }

theorem Wired.quiet (h : Wired run) {window : Window} (hquiet : Quiet run.window window) : Wired (run.adopt window []) := by
  refine h.adopt hquiet.asks (fun id intent guard hstarts => ?_) (fun _ hentry => absurd hentry List.not_mem_nil)
    fun state hstate => ?_
  · have hguard : guard = run.window.guardFor intent := hstarts
    rw [hguard]
    unfold Window.guardFor
    rw [hquiet.state]
  · rw [List.append_nil, hquiet.subscription]
    exact h.shown state (hquiet.state ▸ hstate)

theorem Wired.chooses (h : Wired run) {window : Window} (hchooses : Chooses run.window window) :
    Wired (run.adopt window []) := by
  obtain ⟨receiver, htasks⟩ := hchooses.tasks
  have hasks : Asks (fun command => command = .select (run.window.requestId + 1) receiver) run.window window := by
    refine ⟨by rw [hchooses.requestId]; exact Nat.le_succ _, _, htasks, List.nodup_singleton _, fun command hcommand => ?_⟩
    obtain rfl := List.mem_singleton.mp hcommand
    rw [hchooses.requestId]
    exact ⟨Nat.lt_succ_self _, le_rfl, rfl⟩
  refine h.adopt hasks (fun id intent guard hselect => ?_) (fun _ hentry => absurd hentry List.not_mem_nil)
    fun state hstate => ?_
  · cases hselect
  · cases hchooses.state.symm.trans hstate

theorem Window.shownBy_of_left {window : Window} {event : BridgeEvent}
    (h : event.subscription ≠ window.subscription ∨ window.closing = true) : window.shownBy event = [] := by
  unfold Window.shownBy
  split
  · rw [if_pos h]
  · rfl

theorem Window.isWindows_shownBy {window : Window} {event : BridgeEvent} {entry : GuiEntry}
    (h : entry ∈ window.shownBy event) : entry.isWindows = true := by
  unfold Window.shownBy at h
  split at h
  · split_ifs at h
    · exact absurd h List.not_mem_nil
    · obtain rfl := List.mem_singleton.mp h
      rfl
  · exact absurd h List.not_mem_nil

theorem Wired.takes (h : Wired run) {event : BridgeEvent} {window : Window}
    (htaken : ¬(event.subscription ≠ run.window.subscription ∨ run.window.closing = true))
    (htakes : Window.Takes event.event run.window window) : Wired (run.adopt window (run.window.shownBy event)) := by
  refine h.adopt htakes.asks (fun id intent guard hread => ?_) (fun entry hentry => Window.isWindows_shownBy hentry)
    fun state hstate => ?_
  · obtain ⟨kind, id, hread⟩ := hread
    cases hread
  · rw [htakes.subscription]
    have hstate := htakes.state.symm.trans hstate
    unfold Window.shownBy
    cases hevent : event.event with
    | state newest =>
      rw [hevent] at hstate
      obtain rfl := Option.some.inj hstate
      have hsubscription : event.subscription = run.window.subscription := by
        by_contra hne
        exact htaken (.inl hne)
      dsimp only
      rw [if_neg htaken, hsubscription]
      exact List.mem_append_right _ (List.mem_singleton.mpr rfl)
    | connectFailed message =>
      rw [hevent] at hstate
      cases hstate
    | _ =>
      rw [hevent] at hstate
      exact List.mem_append_left _ (h.shown state hstate)

/-- **An event of the bridge's.** -/
theorem Wired.event (h : Wired run) (event : BridgeEvent) :
    Wired (run.adopt (run.window.onBridge event) (run.window.shownBy event)) := by
  by_cases hleft : event.subscription ≠ run.window.subscription ∨ run.window.closing = true
  · rw [Window.onBridge_of_left hleft, Window.shownBy_of_left hleft]
    exact h.quiet .refl
  · refine h.takes hleft (Window.onBridge_takes ?_ (eq_false_of_ne_true fun hclosing => hleft (.inr hclosing)))
    by_contra hne
    exact hleft (.inl hne)

theorem Wired.take (h : Wired run) {id : ℕ} {intent : ReceiverIntent} {guard : Option FieldBaseline}
    {rest : List BridgeCommand} {answers : List GuiEntry} (hqueue : run.queue = .control id intent guard :: rest)
    (hwindow : run'.window = run.window) (hsending : run'.sending = run.sending) (hrest : run'.queue = rest)
    (hselected : run'.selected = run.selected) (hactive : run'.active = run.active)
    (hlog : run'.log = run.log ++ .took id intent guard run.selected run.active :: answers)
    (hanswers : ∀ entry ∈ answers, ∃ report, entry = .answered id report)
    (htasks : ∀ task ∈ run'.tasks, task ∈ run.tasks ∨ Spawned run'.log task)
    (hrefused : Refused run'.log (.took id intent guard run.selected run.active)) : Wired run' := by
  have hcommand : .control id intent guard ∈ run.sending ++ run.queue := by
    rw [hqueue]
    exact List.mem_append_right _ List.mem_cons_self
  have hsub : run.log ⊆ run'.log := by
    rw [hlog]
    exact List.subset_append_left _ _
  have hnumbers : run'.numbers.Perm run.numbers := by
    have htook : run'.log.filterMap GuiEntry.tookId = run.log.filterMap GuiEntry.tookId ++ [id] := by
      have hnone : answers.filterMap GuiEntry.tookId = [] := by
        refine List.filterMap_eq_nil_iff.mpr fun entry hentry => ?_
        obtain ⟨report, rfl⟩ := hanswers entry hentry
        rfl
      rw [hlog, List.filterMap_append, List.filterMap_cons_some (by rfl), hnone]
    unfold GuiRun.numbers
    rw [htook, hsending, hrest, hqueue, List.append_assoc, List.singleton_append, List.map_append, List.map_append,
      List.map_cons]
    exact List.Perm.append_left _ List.perm_middle.symm
  exact {
    tasks := hwindow ▸ h.tasks
    shown := fun state hstate => by
      rw [hwindow] at hstate ⊢
      exact hsub (h.shown state hstate)
    issued := fun command hmem => by
      rw [hsending, hrest] at hmem
      refine (h.issued command ?_).mono hsub
      rw [hqueue]
      exact List.mem_append.mpr ((List.mem_append.mp hmem).imp_right (List.mem_cons_of_mem _))
    bound := by
      rw [hselected, hactive]
      exact h.bound.mono hsub
    spawned := fun task htask => (htasks task htask).elim (fun hold => (h.spawned task hold).mono hsub) fun hnew => hnew
    once := hnumbers.nodup_iff.mpr h.once
    known := fun other hother => hwindow ▸ h.known other (hnumbers.mem_iff.mp hother)
    justified := by
      have htook : Justified Grounds (run.log ++ [.took id intent guard run.selected run.active]) :=
        h.justified.concat ⟨h.issued _ hcommand, h.bound⟩
      rw [hlog, ← List.singleton_append, ← List.append_assoc]
      refine htook.append fun entry hentry before => ?_
      obtain ⟨report, rfl⟩ := hanswers entry hentry
      trivial
    refused := fun entry hentry => by
      rw [hlog] at hentry
      obtain hentry | hentry := List.mem_append.mp hentry
      · exact (h.refused entry hentry).mono hsub
      · obtain rfl | hentry := List.mem_cons.mp hentry
        · exact hrefused
        · obtain ⟨report, rfl⟩ := hanswers entry hentry
          trivial }

theorem GuiRun.handleControl_cases (run : GuiRun) (id : ℕ) (intent : ReceiverIntent) (guard : Option FieldBaseline) :
    (run.selected = none ∧ run.handleControl id intent guard =
      ((run.record (.took id intent guard run.selected run.active)).record (.answered id (.failed noReceiver))).send id 0
        (.failed noReceiver)) ∨
    (∃ chosen, run.selected = some chosen ∧ Compared guard run.active ∧ run.handleControl id intent guard =
      (run.record (.took id intent guard run.selected run.active)).spawn (.control id chosen intent false)) ∨
    ∃ chosen, run.selected = some chosen ∧ guard.isSome ∧ run.active.isSome ∧ run.handleControl id intent guard =
      ((run.record (.took id intent guard run.selected run.active)).record (.answered id .conflict)).send id
        chosen.subscription (.control .conflict) := by
  unfold handleControl
  dsimp only
  split
  · rename_i hselected
    exact .inl ⟨hselected, rfl⟩
  · rename_i chosen hselected
    refine .inr ?_
    split
    · rename_i baseline subscription hactive
      split_ifs with hholds
      · refine .inl ⟨chosen, hselected, fun baseline' subscription' hbaseline hsubscription => ?_, rfl⟩
        obtain rfl := Option.some.inj hbaseline
        obtain rfl := Option.some.inj (hactive.symm.trans hsubscription)
        exact hholds
      · exact .inr ⟨chosen, hselected, rfl, hactive ▸ rfl, rfl⟩
    · rename_i hnone
      exact .inl ⟨chosen, hselected, fun baseline subscription hbaseline hactive => (hnone _ _ hbaseline hactive).elim, rfl⟩

/-- **A control in the bridge.** -/
theorem Wired.handleControl (h : Wired run) {id : ℕ} {intent : ReceiverIntent} {guard : Option FieldBaseline}
    {rest : List BridgeCommand} (hqueue : run.queue = .control id intent guard :: rest) :
    Wired ({ run with queue := rest }.handleControl id intent guard) := by
  obtain ⟨hselected, heq⟩ | ⟨chosen, hselected, hcompared, heq⟩ | ⟨chosen, hselected, -, -, heq⟩ :=
    GuiRun.handleControl_cases { run with queue := rest } id intent guard
  · rw [heq]
    have hselected : run.selected = none := hselected
    refine h.take hqueue rfl rfl rfl rfl rfl (List.append_assoc _ _ _) (fun entry hentry => ?_)
      (fun task htask => .inl htask) ?_
    · exact ⟨_, List.mem_singleton.mp hentry⟩
    · rw [hselected]
      exact List.mem_append_right _ (List.mem_singleton.mpr rfl)
  · rw [heq]
    have hselected : run.selected = some chosen := hselected
    have hcompared : Compared guard run.active := hcompared
    refine h.take hqueue rfl rfl rfl rfl rfl rfl (fun _ hentry => absurd hentry List.not_mem_nil) (fun task htask => ?_) ?_
    · obtain htask | htask := List.mem_append.mp htask
      · exact .inl htask
      · obtain rfl := List.mem_singleton.mp htask
        refine .inr ⟨guard, run.active, ?_, hcompared⟩
        rw [← hselected]
        exact List.mem_append_right _ (List.mem_singleton.mpr rfl)
    · rw [hselected]
      exact refused_of_compared hcompared
  · rw [heq]
    have hselected : run.selected = some chosen := hselected
    refine h.take hqueue rfl rfl rfl rfl rfl (List.append_assoc _ _ _) (fun entry hentry => ?_)
      (fun task htask => .inl htask) ?_
    · exact ⟨_, List.mem_singleton.mp hentry⟩
    · rw [hselected]
      exact refused_of_answered (List.mem_append_right _ (List.mem_singleton.mpr rfl))

theorem Wired.pop (h : Wired run) {command : BridgeCommand} {rest : List BridgeCommand}
    (hqueue : run.queue = command :: rest) : Wired { run with queue := rest } := by
  have hsublist : (run.sending ++ rest).Sublist (run.sending ++ run.queue) := by
    rw [hqueue]
    exact (List.sublist_cons_self _ _).append_left _
  have hnumbers : GuiRun.numbers { run with queue := rest } |>.Sublist run.numbers :=
    (hsublist.map BridgeCommand.id).append_left _
  exact { h with
    issued := fun command hcommand => h.issued command (hsublist.subset hcommand)
    once := hnumbers.nodup h.once
    known := fun id hid => h.known id (hnumbers.subset hid) }

theorem GuiRun.forward_eq (run : GuiRun) (chosen : Selected) (state : ReceiverState) :
    ∃ forwarded events, run.forward chosen state = { run with forwarded, events } := by
  unfold forward
  split_ifs
  · exact ⟨_, _, rfl⟩
  · exact ⟨_, _, rfl⟩

theorem Wired.forward (h : Wired run) (chosen : Selected) (state : ReceiverState) : Wired (run.forward chosen state) := by
  obtain ⟨forwarded, events, heq⟩ := run.forward_eq chosen state
  rw [heq]
  exact h.frame rfl rfl (List.Perm.refl _) h.bound h.spawned

theorem Wired.spawn (h : Wired run) {task : BridgeTask} (htask : Spawned run.log task) : Wired (run.spawn task) := by
  refine h.frame rfl rfl (List.Perm.refl _) h.bound fun other hother => ?_
  obtain hother | hother := List.mem_append.mp hother
  · exact h.spawned other hother
  · obtain rfl := List.mem_singleton.mp hother
    exact htask

/-- **A command in the bridge.** -/
theorem Wired.handle (h : Wired run) {command : BridgeCommand} {rest : List BridgeCommand}
    (hqueue : run.queue = command :: rest) : Wired ({ run with queue := rest }.handle command) := by
  have hpopped := h.pop hqueue
  cases command with
  | control id intent guard => exact h.handleControl hqueue
  | select id receiver =>
    have hchose : Issued run.log (.select id receiver) := h.issued _ (by
      rw [hqueue]
      exact List.mem_append_right _ List.mem_cons_self)
    refine hpopped.frame rfl rfl (List.Perm.refl _) (.without fun chosen hchosen => ?_) h.spawned
    obtain rfl := Option.some.inj hchosen
    exact hchose
  | refresh id =>
    unfold GuiRun.handle
    dsimp only
    split
    · exact hpopped.frame rfl rfl (List.Perm.refl _) h.bound h.spawned
    · split_ifs
      · exact hpopped.frame rfl rfl (List.Perm.refl _) h.bound h.spawned
      · exact hpopped.spawn trivial
  | read kind id generation =>
    unfold GuiRun.handle
    dsimp only
    split
    · exact hpopped
    · exact hpopped.spawn trivial

/-- **A change of the state subscription.** -/
theorem Wired.changed (h : Wired run) (hchanged : run.onChanged = some run') : Wired run' := by
  have hended : Bound run.log run.selected none := .without fun chosen hchosen => (h.bound chosen hchosen).1
  unfold GuiRun.onChanged at hchanged
  split at hchanged
  · cases hchanged
  · rename_i subscription hactive
    split_ifs at hchanged with hend hunseen
    · dsimp only at hchanged
      split at hchanged
      · obtain rfl := Option.some.inj hchanged
        exact h.frame rfl rfl (List.Perm.refl _) hended h.spawned
      · obtain rfl := Option.some.inj hchanged
        exact h.frame rfl rfl (List.Perm.refl _) hended h.spawned
    · have hseen : Wired { run with active := some { subscription with unseen := false } } := by
        refine h.frame rfl rfl (List.Perm.refl _) (fun chosen hchosen => ⟨(h.bound chosen hchosen).1, ?_⟩) h.spawned
        intro other hother
        obtain rfl := Option.some.inj hother
        exact (h.bound chosen hchosen).2 subscription hactive
      dsimp only at hchanged
      split at hchanged
      · obtain rfl := Option.some.inj hchanged
        exact hseen
      · obtain rfl := Option.some.inj hchanged
        exact hseen.forward _ _

/-- **A finished task's event.** -/
theorem Wired.done (h : Wired run) (event : BridgeEvent) : Wired (run.onDone event) := by
  unfold GuiRun.onDone
  dsimp only
  split
  · have hforward := h.forward ‹Selected› (‹StateSubscription›).latest
    exact hforward.frame rfl rfl (List.Perm.refl _) hforward.bound hforward.spawned
  · exact h.frame rfl rfl (List.Perm.refl _) h.bound h.spawned

/-- **The end of a subscription's start.** -/
theorem Wired.subscribed (h : Wired run) {chosen : Selected} (hselected : run.selected = some chosen)
    (result : Except String ReceiverState) : Wired (run.onSubscribed chosen result) := by
  unfold GuiRun.onSubscribed
  cases result with
  | ok latest =>
    dsimp only
    refine Wired.forward ?_ _ _
    refine h.frame rfl rfl (List.Perm.refl _) (fun other hother => ?_) h.spawned
    obtain rfl := Option.some.inj (hselected.symm.trans hother)
    refine ⟨(h.bound chosen hselected).1, fun subscription hactive => ?_⟩
    obtain rfl := Option.some.inj hactive
    rfl
  | error message =>
    have hfailed : Bound run.log run.selected none := .without fun other hother => (h.bound other hother).1
    exact h.frame rfl rfl (List.Perm.refl _) hfailed h.spawned

theorem Wired.port (h : Wired run) {subscription subscription' : StateSubscription}
    (hactive : run.active = some subscription) (hreceiver : subscription'.receiver = subscription.receiver) :
    Wired { run with active := some subscription' } := by
  refine h.frame rfl rfl (List.Perm.refl _) (fun chosen hchosen => ⟨(h.bound chosen hchosen).1, ?_⟩) h.spawned
  intro other hother
  obtain rfl := Option.some.inj hother
  exact hreceiver.trans ((h.bound chosen hchosen).2 subscription hactive)

/-- **A spawned task submits its control.** -/
theorem Wired.submit (h : Wired run) {i id : ℕ} {chosen : Selected} {intent : ReceiverIntent}
    (htask : run.tasks[i]? = some (.control id chosen intent false)) :
    Wired { run with
      tasks := run.tasks.set i (.control id chosen intent true)
      log := run.log ++ [.submitted id chosen.receiver intent] } := by
  have hspawned : Spawned run.log (.control id chosen intent false) := h.spawned _ (List.mem_of_getElem? htask)
  have hsub : run.log ⊆ run.log ++ [.submitted id chosen.receiver intent] := List.subset_append_left _ _
  have hnumbers : GuiRun.numbers { run with
      tasks := run.tasks.set i (.control id chosen intent true)
      log := run.log ++ [.submitted id chosen.receiver intent] } = run.numbers := by
    unfold GuiRun.numbers
    rw [List.filterMap_append]
    exact congrArg (· ++ _) (List.append_nil _)
  obtain ⟨guard, active, htook, hcompared⟩ := hspawned
  exact {
    tasks := h.tasks
    shown := fun state hstate => hsub (h.shown state hstate)
    issued := fun command hcommand => (h.issued command hcommand).mono hsub
    bound := h.bound.mono hsub
    spawned := fun task hmem => by
      obtain hmem | rfl := List.mem_or_eq_of_mem_set hmem
      · exact (h.spawned task hmem).mono hsub
      · exact ⟨guard, active, hsub htook, hcompared⟩
    once := hnumbers ▸ h.once
    known := hnumbers ▸ h.known
    justified := h.justified.concat ⟨guard, chosen, active, rfl, htook, hcompared⟩
    refused := fun entry hentry => by
      obtain hentry | hentry := List.mem_append.mp hentry
      · exact (h.refused entry hentry).mono hsub
      · obtain rfl := List.mem_singleton.mp hentry
        trivial }

theorem wired_of_reachable (h : guiMachine.Reachable run) : Wired run := by
  refine h.invariant ?_ ?_
  · rintro run rfl
    exact {
      tasks := rfl
      shown := fun state hnone => nomatch hnone
      issued := fun command hcommand => absurd hcommand List.not_mem_nil
      bound := .without fun chosen hnone => nomatch hnone
      spawned := fun task htask => absurd htask List.not_mem_nil
      once := List.nodup_nil
      known := fun id hid => absurd hid List.not_mem_nil
      justified := justified_nil
      refused := fun entry hentry => absurd hentry List.not_mem_nil }
  · intro run action run' _ h hstep
    cases guiStep_of_step hstep with
    | message message =>
      obtain hquiet | hchooses := run.window.update_spec message
      · exact h.quiet hquiet
      · exact h.chooses hchooses
    | event event rest =>
      have hrest : Wired { run with events := rest } := h.frame rfl rfl (List.Perm.refl _) h.bound h.spawned
      exact hrest.event event
    | send i command hcommand =>
      obtain ⟨hlt, rfl⟩ := List.getElem?_eq_some_iff.mp hcommand
      refine h.frame rfl rfl ?_ h.bound h.spawned
      -- the command goes from one list to the end of the other
      have hperm : (run.sending.eraseIdx i ++ (run.queue ++ [run.sending[i]])).Perm
          (run.sending[i] :: (run.sending.eraseIdx i ++ run.queue)) := by
        rw [← List.append_assoc]
        exact List.perm_append_singleton _ _
      exact hperm.trans ((List.getElem_cons_eraseIdx_perm hlt).append_right _)
    | command command rest hidle hqueue => exact h.handle hqueue
    | changed run' hidle hchanged => exact h.changed hchanged
    | done event rest =>
      have hrest : Wired { run with finished := rest } := h.frame rfl rfl (List.Perm.refl _) h.bound h.spawned
      exact hrest.done event
    | subscribed result chosen hwaits hselected => exact h.subscribed hselected result
    | port latest subscription hactive => exact h.port hactive rfl
    | portEnded subscription hactive => exact h.port hactive rfl
    | submit i id chosen intent htask => exact h.submit htask
    | finish i event =>
      exact h.frame rfl rfl (List.Perm.refl _) h.bound fun task htask => h.spawned task (List.mem_of_mem_eraseIdx htask)

/-- What is promised of the window's controls. -/
structure ControlsGuarded (log : List GuiEntry) : Prop where
  /-- Of a control that is submitted: the user made it, and the bridge took it. Where the window had a state and the bridge
  a subscription, the baseline held. -/
  submitted : ∀ before id receiver intent, before ++ [.submitted id receiver intent] <+: log → isPower intent = false →
    ∃ subscription state chosen active, .asked id intent subscription state ∈ before ∧
      .took id intent (guardIn state intent) (some chosen) active ∈ before ∧ chosen.receiver = receiver ∧
      ∀ shown newest, state = some shown → active = some newest →
        .shown subscription shown ∈ before ∧ newest.receiver = receiver ∧
        (FieldBaseline.capture shown intent.field).holdsIn newest.latest = true ∧
        (chosen.subscription = subscription → .chose subscription receiver ∈ before)
  /-- What the user saw is no longer so. -/
  refused : ∀ id intent baseline chosen newest, .took id intent (some baseline) (some chosen) (some newest) ∈ log →
    baseline.holdsIn newest.latest = false →
    .answered id .conflict ∈ log ∧ ∀ receiver intent', .submitted id receiver intent' ∉ log
  unselected : ∀ id intent guard active, .took id intent guard none active ∈ log →
    .answered id (.failed GuiRun.noReceiver) ∈ log ∧ ∀ receiver intent', .submitted id receiver intent' ∉ log

theorem Wired.took_unique (h : Wired run) {id : ℕ} {entry entry' : GuiEntry} (hmem : entry ∈ run.log)
    (hmem' : entry' ∈ run.log) (hid : entry.tookId = some id) (hid' : entry'.tookId = some id) : entry = entry' :=
  eq_of_nodup_filterMap (List.nodup_append.mp h.once).1 hmem hmem' hid hid'

/-- A control that is submitted was taken under a selection, and nothing stood against it. -/
theorem Wired.took_of_submitted (h : Wired run) {id : ℕ} {receiver : ReceiverId} {intent : ReceiverIntent}
    (hmem : .submitted id receiver intent ∈ run.log) : ∃ guard chosen active,
      .took id intent guard (some chosen) active ∈ run.log ∧ Compared guard active := by
  obtain ⟨before, hbefore, guard, chosen, active, -, htook, hcompared⟩ := h.justified.grounds hmem
  exact ⟨guard, chosen, active, hbefore.subset htook, hcompared⟩

/-- **Controls are guarded** in every run: one that the user made while the window had a state, and that the bridge takes
under a subscription of the same selection, is submitted only if what the window showed still holds. -/
theorem controls_guarded (h : guiMachine.Reachable run) : ControlsGuarded run.log := by
  have hwired := wired_of_reachable h
  refine ⟨fun before id receiver intent hbefore hpower => ?_, fun id intent baseline chosen newest htook hmismatch => ?_,
    fun id intent guard active htook => ?_⟩
  · obtain ⟨guard, chosen, active, hreceiver, htook, hcompared⟩ := hwired.justified before _ hbefore
    have hbefore : Justified Grounds before :=
      hwired.justified.of_prefix ((List.prefix_append _ _).trans hbefore)
    obtain ⟨earlier, hearlier, hmade, hbound⟩ := hbefore.grounds htook
    obtain ⟨subscription, state, hasked, rfl, hshown⟩ := hmade.mono hearlier.subset
    refine ⟨subscription, state, chosen, active, hasked, htook, hreceiver, fun shown newest hstate hactive => ?_⟩
    obtain ⟨hchose, hnewest⟩ := hbound chosen rfl
    refine ⟨hshown shown hstate, (hnewest newest hactive).trans hreceiver, hcompared _ newest ?_ hactive, fun hsame => ?_⟩
    · unfold guardIn
      rw [hpower, hstate]
      rfl
    · rw [← hsame, ← hreceiver]
      exact hearlier.subset hchose
  · refine ⟨hwired.refused _ htook hmismatch, fun receiver intent' hsubmitted => ?_⟩
    obtain ⟨guard, chosen', active, htook', hcompared⟩ := hwired.took_of_submitted hsubmitted
    obtain ⟨-, -, rfl, -, rfl⟩ := GuiEntry.took.inj (hwired.took_unique htook htook' rfl rfl)
    cases (hcompared baseline newest rfl rfl).symm.trans hmismatch
  · refine ⟨hwired.refused _ htook, fun receiver intent' hsubmitted => ?_⟩
    obtain ⟨guard', chosen, active', htook', -⟩ := hwired.took_of_submitted hsubmitted
    obtain ⟨-, -, -, hnone, -⟩ := GuiEntry.took.inj (hwired.took_unique htook htook' rfl rfl)
    cases hnone

end Logs

/-! ### Two runs -/

section Example

def den : Selection := ⟨"den", none⟩

def denId : ReceiverId := ⟨"den", by decide⟩

def denState : ReceiverState := { ReceiverState.new denId with epoch := some 1 }

/-- The bridge has chosen the den's receiver, and its first state is on the way to the window. -/
def connecting : List GuiAction := [.message (.select den), .send 0, .command, .subscribed (.ok denState)]

/-- What the user asks for goes to the port. -/
def asking (message : Message) : List GuiAction := [.message message, .send 0, .command, .submit 0]

/-- The user presses `+` before the window has a state. -/
def pressedEarly : List GuiAction := connecting ++ asking (.adjustVolume 1)

def minimum : ReceiverIntent := .volume .minimum

def pressedEarlyLog : List GuiEntry :=
  [.chose 1 denId, .asked 2 minimum 1 none, .took 2 minimum none (some ⟨denId, 1⟩) (some ⟨denId, denState, false, false⟩),
    .submitted 2 denId minimum]

theorem exec_pressedEarly : (guiMachine.exec {} pressedEarly).map GuiRun.log = some pressedEarlyLog := by decide +kernel

/-- Not every control is compared. -/
theorem not_every_control_compared : ∃ run, guiMachine.Reachable run ∧ ∃ id receiver intent,
    .submitted id receiver intent ∈ run.log ∧ isPower intent = false ∧
    ∀ baseline selected active, .took id intent (some baseline) selected active ∉ run.log := by
  obtain ⟨run, hexec, hlog⟩ := Option.map_eq_some_iff.mp exec_pressedEarly
  refine ⟨run, Machine.reachable_of_exec ({} : GuiRun) pressedEarly rfl hexec, 2, denId, minimum, ?_, rfl, ?_⟩
  · rw [hlog]
    simp [pressedEarlyLog]
  · rw [hlog]
    simp [pressedEarlyLog]

/-- The user unmutes, with the state on the screen. -/
def unmuted : List GuiAction := (connecting.concat .event) ++ asking .unmute

theorem unmuted_isSome : (guiMachine.exec {} unmuted).isSome = true := by decide +kernel

def afterUnmuted : GuiRun := (guiMachine.exec {} unmuted).get unmuted_isSome

example : .submitted 2 denId (.mute .off) ∈ afterUnmuted.log := by decide +kernel

theorem controls_guarded_unmuted : ControlsGuarded afterUnmuted.log :=
  controls_guarded (Machine.reachable_of_exec ({} : GuiRun) unmuted rfl (Option.some_get unmuted_isSome).symm)

end Example

end DenonAvr.Gui
