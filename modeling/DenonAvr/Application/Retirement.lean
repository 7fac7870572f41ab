import DenonAvr.Application.Shutdown

/-!
# Retirement after a saved change

A receiver is stale while a session to it is open, or being connected, at another address than the file holds. Each
stale receiver is covered by a call of `save_configuration` that will yet compare its slot with what is in the file
(`fresh_of_reachableBy`): the call lists the slots after it has written the file, a connection that read the file before
has its slot by then, and the slot's lock keeps the call from passing it by. So once no save is running no receiver is
stale (`retirement`).

A save that is given up between the two, for an operation that is in flight, say, covers nothing any more
(`not_retirement`).
-/

namespace DenonAvr.Application.Connections

open Domain Library Library.Tally

namespace Task

/-- The address a task connects to, at this receiver. -/
def target (r : ReceiverId) : Task → Option String
  | connecting r' _ host => if r' = r then some host else none
  | _ => none

/-- What a call of `save_configuration` will yet compare this slot with. -/
def retires (r : ReceiverId) : Task → Option Hosts
  | stored saved => some saved
  | retiring saved todo => if r ∈ todo then some saved else none
  | draining saved r' rest => if r ∈ r' :: rest then some saved else none
  | closing r' _ (.save saved rest) => if r ∈ r' :: rest then some saved else none
  | _ => none

/-- A call of `save_configuration` that is running. -/
def saves : Task → Bool
  | saving _ => true
  | stored _ => true
  | retiring _ _ => true
  | draining _ _ _ => true
  | closing _ _ (.save _ _) => true
  | _ => false

/-- The call will compare the slot with what is in the file. -/
def covers (stored : Hosts) (r : ReceiverId) (task : Task) : Bool :=
  (task.retires r).any fun saved => saved.lookup r == stored.lookup r

@[simp] theorem target_callOver (operation : Bool) (r : ReceiverId) : (callOver operation).target r = none := by
  cases operation <;> rfl

@[simp] theorem retires_callOver (operation : Bool) (r : ReceiverId) : (callOver operation).retires r = none := by
  cases operation <;> rfl

@[simp] theorem target_next (agenda : Agenda) (r : ReceiverId) : agenda.next.target r = none := by
  cases agenda with
  | call operation => exact target_callOver operation r
  | _ => rfl

theorem away_of_target {task : Task} {r : ReceiverId} {host : String} (h : task.target r = some host) :
    task.away = some r := by
  cases task with
  | connecting r' operation host' =>
    obtain ⟨hr, -⟩ := Option.ite_none_right_eq_some.mp h
    exact congrArg some hr
  | _ => cases h

theorem saves_of_retires {task : Task} {r : ReceiverId} {saved : Hosts} (h : task.retires r = some saved) :
    task.saves = true := by
  cases task with
  | closing r' session agenda =>
    cases agenda with
    | save saved rest => rfl
    | _ => cases h
  | stored saved => rfl
  | retiring saved todo => rfl
  | draining saved r' rest => rfl
  | _ => cases h

theorem covers_iff {stored : Hosts} {r : ReceiverId} {task : Task} :
    task.covers stored r = true ↔ ∃ saved, task.retires r = some saved ∧ saved.lookup r = stored.lookup r := by
  simp [covers, Option.any_eq_true]

end Task

/-- The addresses at which the receiver has an open session, or may have one soon. -/
def Pool.hosts (s : Pool) (r : ReceiverId) : List String :=
  (s.sessions.filter fun session => session.receiver = r ∧ session.closed = false).map (·.host) ++
    s.tasks.filterMap (Task.target r)

/-- One of them is not that of the file. -/
def Pool.stale (s : Pool) (stored : Hosts) (r : ReceiverId) : Bool :=
  !r.isAdHoc && (s.hosts r).any fun host => stored.lookup r != some host

def covered (tasks : List Task) (stored : Hosts) (r : ReceiverId) : Bool := tasks.any (Task.covers stored r)

/-- A save is given up with a receiver stale that no other save covers: at the await that it waits at, or while it wrote
the file, which is then installed without it. -/
def strands (s : Pool) : PoolAction → Bool
  | .advance i choice =>
    match s.tasks[i]? with
    | some (.installing saved) => decide (choice = .ok) && s.known.any fun r => s.stale saved r && !covered s.tasks saved r
    | some _ =>
      decide (choice = .abandon) &&
        s.known.any fun r => s.stale s.stored r && !covered (s.tasks.set i .ended) s.stored r
    | none => false
  | _ => false

/-- The slots and the tasks agree with the sessions they have. -/
structure Pool.Named (s : Pool) : Prop where
  held : ∀ r held, (s.slots r).held = some held → (s.sessions[held.session]?).map Session.host = some held.host
  synchronizing : ∀ r operation host k, Task.synchronizing r operation host k ∈ s.tasks →
    (s.sessions[k]?).map Session.host = some host

theorem Pool.mem_hosts {s : Pool} {r : ReceiverId} {host : String} :
    host ∈ s.hosts r ↔
      (∃ session ∈ s.sessions, session.receiver = r ∧ session.closed = false ∧ session.host = host) ∨
        ∃ task ∈ s.tasks, task.target r = some host := by
  simp [Pool.hosts, and_assoc]

theorem Pool.stale_iff {s : Pool} {stored : Hosts} {r : ReceiverId} :
    s.stale stored r = true ↔ r.isAdHoc = false ∧ ∃ host ∈ s.hosts r, stored.lookup r ≠ some host := by
  simp [Pool.stale]

theorem covered_iff {tasks : List Task} {stored : Hosts} {r : ReceiverId} :
    covered tasks stored r = true ↔ ∃ task ∈ tasks, task.covers stored r = true := List.any_eq_true

section Local
variable {closed : Bool} {address : Option String} {fresh : ℕ} {choice : Choice} {slot : Slot} {task : Task}
  {out : Outcome} {r r' : ReceiverId}

/-- A connection is made to the address that was read, at the slot's own receiver. -/
theorem SlotStep.target (h : SlotStep closed address fresh slot choice task out) (hplace : task.place = some r)
    {host : String} (hout : out.task.target r' = some host) : r' = r ∧ address = some host := by
  cases h with
  | identify r operation host' haddress =>
    obtain ⟨rfl, hhost⟩ := Option.ite_none_right_eq_some.mp hout
    exact ⟨Option.some.inj hplace, haddress.trans hhost⟩
  | _ => first
    | cases hout
    | cases (Task.target_callOver _ _).symm.trans hout
    | cases (Task.target_next _ _).symm.trans hout

theorem SlotStep.opened_host (h : SlotStep closed address fresh slot choice task out) (hplace : task.place = some r)
    {host : String} (hevent : out.event = .opened host) : task.target r = some host := by
  cases h with
  | connected r' operation host' =>
    obtain rfl := Option.some.inj hplace
    obtain rfl := PoolEvent.opened.inj hevent
    exact if_pos rfl
  | _ => cases hevent

/-- The slot's session is the one it had or the one that has synchronized. -/
theorem SlotStep.held (h : SlotStep closed address fresh slot choice task out) (hplace : task.place = some r)
    {held : Held} (hheld : out.slot.held = some held) :
    slot.held = some held ∨ ∃ operation, task = .synchronizing r operation held.host held.session := by
  cases h with
  | synchronized r' operation host session =>
    obtain rfl := Option.some.inj hplace
    obtain rfl := Option.some.inj hheld
    exact .inr ⟨operation, rfl⟩
  | _ => first
    | exact .inl hheld
    | cases hheld

theorem SlotStep.synchronizing (h : SlotStep closed address fresh slot choice task out) {operation : Bool}
    {host : String} {k : ℕ} (hout : out.task = .synchronizing r operation host k) :
    out.event = .opened host ∧ k = fresh := by
  have hhand : out.task.hand = some (r, k) := by rw [hout]; rfl
  cases h with
  | connected r' operation' host' =>
    cases hout
    exact ⟨rfl, rfl⟩
  | _ => first
    | cases hout
    | cases (Task.hand_callOver _).symm.trans hhand
    | cases (Task.hand_next _).symm.trans hhand

/-- A save goes on to the slots after this one. -/
theorem SlotStep.retires (h : SlotStep closed address fresh slot choice task out) (hplace : task.place = some r)
    (hkept : choice ≠ .abandon) (hr : r' ≠ r) : out.task.retires r' = task.retires r' := by
  cases h with
  | close choice r'' session agenda =>
    obtain rfl := Option.some.inj hplace
    cases agenda with
    | call operation => exact Task.retires_callOver operation r'
    | save saved rest => simp [Task.retires, Agenda.next, hr]
    | _ => rfl
  | _ => first
    | rfl
    | exact Task.retires_callOver _ r'
    | simp_all [Task.retires, Task.place]

/-- A save leaves a slot behind that has no session, or one at the address that was saved. -/
theorem SlotStep.retires_self (h : SlotStep closed address fresh slot choice task out) (hplace : task.place = some r)
    (hkept : choice ≠ .abandon) (hadhoc : r.isAdHoc = false) (haway : task.away ≠ none → slot.held = none)
    {saved : Hosts} (hsaved : task.retires r = some saved) :
    out.task.retires r = some saved ∨
      out.slot.locked = false ∧ ∀ held, out.slot.held = some held → saved.lookup r = some held.host := by
  cases h with
  | close choice r' session agenda =>
    obtain rfl := Option.some.inj hplace
    have hnone : slot.held = none := haway nofun
    exact .inr ⟨rfl, fun held hheld => by rw [show slot.held = some held from hheld] at hnone; cases hnone⟩
  | _ => first
    | cases hsaved
    | simp_all [Task.retires, Task.place]

end Local

section Pool
variable {s s' : Pool} {action : PoolAction} {i : ℕ} {choice : Choice} {task : Task} {out : Outcome} {r : ReceiverId}
  {stored : Hosts}

theorem host_endSession {sessions : List Session} (k k' : ℕ) :
    ((endSession k' sessions)[k]?).map Session.host = (sessions[k]?).map Session.host := by
  rw [endSession, List.getElem?_modify, Option.map_eq_map, Option.map_map]
  congr 1
  funext session
  by_cases hk : k' = k
  · rw [Function.comp_apply, if_pos hk]
  · rw [Function.comp_apply, if_neg hk]

/-- Sessions stay where they were opened to. -/
theorem host_sessions {event : PoolEvent} {sessions : List Session} {k : ℕ} {host : String}
    (h : (sessions[k]?).map Session.host = some host) :
    ((event.sessions r sessions)[k]?).map Session.host = some host := by
  cases event with
  | opened host' =>
    obtain ⟨session, hsession, -⟩ := Option.map_eq_some_iff.mp h
    rwa [PoolEvent.sessions, List.getElem?_append_left (List.getElem?_eq_some_iff.mp hsession).1]
  | closed k' => rwa [PoolEvent.sessions, host_endSession]
  | none => exact h
  | operated => exact h

theorem named_of_reachable (h : pool.Reachable s) : s.Named := by
  refine h.invariant ?_ ?_
  · rintro _ ⟨stored, rfl⟩
    exact ⟨fun _ _ hheld => (Option.some_ne_none _ hheld.symm).elim, fun _ _ _ _ ht => (List.not_mem_nil ht).elim⟩
  · intro s action s' hreach hnamed hstep
    have hspawn : ∀ task : Task, task.hand = none → ∀ r operation host k,
        Task.synchronizing r operation host k ∈ s.tasks ++ [task] → (s.sessions[k]?).map Session.host = some host := by
      intro task hhand r operation host k ht
      rcases List.mem_append.mp ht with hold | hnew
      · exact hnamed.synchronizing r operation host k hold
      · rw [← List.mem_singleton.mp hnew] at hhand
        cases hhand
    cases poolStep_of_step hstep with
    | call r => exact ⟨hnamed.held, hspawn _ rfl⟩
    | callUnknown r => exact ⟨hnamed.held, hspawn _ rfl⟩
    | submit r => exact ⟨hnamed.held, hspawn _ rfl⟩
    | save saved => exact ⟨hnamed.held, hspawn _ rfl⟩
    | shutdown => exact ⟨hnamed.held, hspawn _ rfl⟩
    | registerAdHoc r host => exact ⟨hnamed.held, hnamed.synchronizing⟩
    | atSlot i choice task r out htask hplace hslot =>
      refine ⟨fun r' held hheld => ?_, fun r' operation host k ht => ?_⟩
      · refine host_sessions ?_
        by_cases hr : r' = r
        · subst hr
          rw [slots_apply_self] at hheld
          rcases hslot.held hplace hheld with hold | ⟨operation, rfl⟩
          · exact hnamed.held r' held hold
          · exact hnamed.synchronizing r' operation _ _ (List.mem_of_getElem? htask)
        · rw [slots_apply_of_ne hr] at hheld
          exact hnamed.held r' held hheld
      · rcases mem_tasks_apply ht with hout | hold | ⟨armedAt, -, hsleeping⟩
        · obtain ⟨hevent, rfl⟩ := hslot.synchronizing hout.symm
          show ((out.event.sessions r s.sessions)[s.sessions.length]?).map Session.host = some host
          rw [hevent, PoolEvent.sessions, List.getElem?_concat_length]
          rfl
        · exact host_sessions (hnamed.synchronizing r' operation host k hold)
        · cases hsleeping
    | elsewhere i choice task next task' htask hplace hother =>
      obtain ⟨hslots, htasks, hsessions, -, haway⟩ := hother.frame
      refine ⟨fun r held hheld => ?_, fun r operation host k ht => ?_⟩
      · show (next.sessions[held.session]?).map Session.host = some held.host
        rw [hsessions]
        exact hnamed.held r held (hslots ▸ hheld)
      · show (next.sessions[k]?).map Session.host = some host
        rw [hsessions]
        have ht : Task.synchronizing r operation host k ∈ next.tasks.set i task' := ht
        rcases List.mem_or_eq_of_mem_set ht with hold | hnew
        · exact hnamed.synchronizing r operation host k (htasks ▸ hold)
        · rw [← hnew] at haway
          cases haway
    | expire k session hsession hlost =>
      exact ⟨fun r held hheld => (host_endSession _ k).trans (hnamed.held r held hheld),
        fun r operation host j ht => (host_endSession _ k).trans (hnamed.synchronizing r operation host j ht)⟩

/-- Nobody is at work behind the slot's lock, and its session is where the file says. -/
theorem stale_eq_false (stored : Hosts) (hplaced : s.Placed) (hcounted : s.Counted) (hnamed : s.Named)
    (hfree : (s.slots r).locked = false)
    (hheld : ∀ held, (s.slots r).held = some held → stored.lookup r = some held.host) : s.stale stored r = false := by
  have hlock : ∀ task ∈ s.tasks, task.lock ≠ some r := by
    intro task ht hlock
    rw [hcounted.locked ht hlock] at hfree
    cases hfree
  by_contra hstale
  obtain ⟨-, host, hhost, hne⟩ := Pool.stale_iff.mp (Bool.eq_true_of_not_eq_false hstale)
  rcases Pool.mem_hosts.mp hhost with ⟨session, hmem, hr, hopen, rfl⟩ | ⟨task, ht, htarget⟩
  · obtain ⟨k, hk⟩ := List.mem_iff_getElem?.mp hmem
    rcases hplaced.kept k session hk hopen with ⟨held, hslot, rfl⟩ | ⟨task, ht, hhand⟩
    · rw [hr] at hslot
      have hsame := hnamed.held r held hslot
      rw [hk, Option.map_some] at hsame
      exact hne ((hheld held hslot).trans hsame.symm)
    · exact hlock task ht (hr ▸ Task.lock_of_hand hhand)
  · exact hlock task ht (Task.lock_of_away (Task.away_of_target htarget))

/-- A step at a slot adds an address to the receiver's only as it reads it. -/
theorem mem_hosts_apply {r' : ReceiverId} {host : String} (htask : s.tasks[i]? = some task)
    (hplace : task.place = some r)
    (hstep : SlotStep s.closed (s.address r) s.sessions.length (s.slots r) choice task out)
    (hhost : host ∈ (s.apply i r out).hosts r') : host ∈ s.hosts r' ∨ r' = r ∧ s.address r = some host := by
  rcases Pool.mem_hosts.mp hhost with ⟨session, hmem, rfl, hopen, rfl⟩ | ⟨t, ht, htarget⟩
  · obtain ⟨k, hk⟩ := List.mem_iff_getElem?.mp hmem
    rcases sessions_apply hk hopen with ⟨host, hevent, -, rfl⟩ | ⟨hold, -⟩
    · exact .inl (Pool.mem_hosts.mpr (.inr ⟨task, List.mem_of_getElem? htask, hstep.opened_host hplace hevent⟩))
    · exact .inl (Pool.mem_hosts.mpr (.inl ⟨session, List.mem_of_getElem? hold, rfl, hopen, rfl⟩))
  · rcases mem_tasks_apply ht with rfl | hold | ⟨armedAt, -, rfl⟩
    · exact .inr (hstep.target hplace htarget)
    · exact .inl (Pool.mem_hosts.mpr (.inr ⟨t, hold, htarget⟩))
    · cases htarget

theorem stale_of_apply {r' : ReceiverId} (htask : s.tasks[i]? = some task) (hplace : task.place = some r)
    (hstep : SlotStep s.closed (s.address r) s.sessions.length (s.slots r) choice task out)
    (hstale : (s.apply i r out).stale s.stored r' = true) : s.stale s.stored r' = true := by
  obtain ⟨hadhoc, host, hhost, hne⟩ := Pool.stale_iff.mp hstale
  rcases mem_hosts_apply htask hplace hstep hhost with hold | ⟨rfl, haddress⟩
  · exact Pool.stale_iff.mpr ⟨hadhoc, host, hold, hne⟩
  · rw [Pool.address, if_neg (by simp [hadhoc])] at haddress
    exact absurd haddress hne

/-- Every stale receiver is covered. -/
def Pool.Fresh (s : Pool) : Prop := ∀ r, s.stale s.stored r = true → covered s.tasks s.stored r = true

theorem Pool.Fresh.apply (h : s.Fresh) (hplaced : s.Placed) (hplaced' : (s.apply i r out).Placed)
    (hcounted' : (s.apply i r out).Counted) (hnamed' : (s.apply i r out).Named) (htask : s.tasks[i]? = some task)
    (hplace : task.place = some r)
    (hstep : SlotStep s.closed (s.address r) s.sessions.length (s.slots r) choice task out)
    (hkept : choice = .abandon → ∀ r', s.stale s.stored r' = true → covered (s.tasks.set i .ended) s.stored r' = true) :
    (s.apply i r out).Fresh := by
  intro r' hstale'
  have hstale := stale_of_apply htask hplace hstep hstale'
  by_cases hchoice : choice = .abandon
  · obtain ⟨t, ht, hcovers⟩ := covered_iff.mp (hkept hchoice r' hstale)
    have hne : t ≠ .ended := by
      rintro rfl
      cases hcovers
    exact covered_iff.mpr ⟨t, mem_set_append_of_mem_set ht hne, hcovers⟩
  · obtain ⟨t, ht, hcovers⟩ := covered_iff.mp (h r' hstale)
    by_cases hsame : t = task
    · subst hsame
      obtain ⟨saved, hretires, hlookup⟩ := Task.covers_iff.mp hcovers
      by_cases hr : r' = r
      · subst hr
        have hadhoc := (Pool.stale_iff.mp hstale).1
        rcases hstep.retires_self hplace hchoice hadhoc (hplaced.away_held htask hplace) hretires with hout |
          ⟨hfree, hheld⟩
        · exact covered_iff.mpr ⟨out.task, mem_set_append_self htask, Task.covers_iff.mpr ⟨saved, hout, hlookup⟩⟩
        · -- the slot is left with nothing at another address
          have hfree' : ((s.apply i r' out).slots r').locked = false := by
            rw [slots_apply_self]
            exact hfree
          have hfresh := stale_eq_false s.stored hplaced' hcounted' hnamed' hfree'
            (by rw [slots_apply_self, ← hlookup]; exact hheld)
          exact absurd (hfresh.symm.trans hstale') nofun
      · refine covered_iff.mpr ⟨out.task, mem_set_append_self htask, Task.covers_iff.mpr ⟨saved, ?_, hlookup⟩⟩
        rw [hstep.retires hplace hchoice hr, hretires]
    · exact covered_iff.mpr ⟨t, mem_set_append_of_ne htask ht hsame, hcovers⟩

/-- A save that is given up leaves the stale receivers to others. -/
theorem covered_of_strands (hkept : strands s (.advance i .abandon) = false) (htask : s.tasks[i]? = some task)
    (hplace : task.place ≠ none ∨ ∃ saved, task = .stored saved) (hr : r ∈ s.known)
    (hstale : s.stale s.stored r = true) : covered (s.tasks.set i .ended) s.stored r = true := by
  simp only [strands, htask] at hkept
  split at hkept
  · rename_i saved heq
    obtain rfl := Option.some.inj heq
    rcases hplace with hplace | ⟨saved, hsaved⟩
    · exact absurd rfl hplace
    · cases hsaved
  · have hall : ∀ r ∈ s.known, s.stale s.stored r = true → covered (s.tasks.set i .ended) s.stored r = true := by
      simpa using hkept
    exact hall r hr hstale
  · contradiction

/-- A step elsewhere adds no address. -/
theorem mem_hosts_elsewhere {next : Pool} {task' : Task} {r : ReceiverId} {host : String}
    (hstep : OtherStep s choice task next task')
    (hhost : host ∈ Pool.hosts { next with tasks := next.tasks.set i task' } r) : host ∈ s.hosts r := by
  obtain ⟨-, htasks, hsessions, -, haway⟩ := hstep.frame
  refine Pool.mem_hosts.mpr ((Pool.mem_hosts.mp hhost).imp ?_ ?_)
  · rintro ⟨session, hmem, hsession⟩
    exact ⟨session, hsessions ▸ hmem, hsession⟩
  · rintro ⟨t, ht, htarget⟩
    refine ⟨t, ?_, htarget⟩
    have ht : t ∈ next.tasks.set i task' := ht
    rcases List.mem_or_eq_of_mem_set ht with hold | rfl
    · exact htasks ▸ hold
    · rw [Task.away_of_target htarget] at haway
      cases haway

theorem stale_elsewhere {next : Pool} {task' : Task} (hstep : OtherStep s choice task next task')
    (hstale : Pool.stale { next with tasks := next.tasks.set i task' } stored r = true) : s.stale stored r = true := by
  obtain ⟨hadhoc, host, hhost, hne⟩ := Pool.stale_iff.mp hstale
  exact Pool.stale_iff.mpr ⟨hadhoc, host, mem_hosts_elsewhere hstep hhost, hne⟩

theorem Pool.Fresh.elsewhere (h : s.Fresh) (hknown : ∀ r host, host ∈ s.hosts r → r ∈ s.known) {next : Pool}
    {task' : Task} (htask : s.tasks[i]? = some task) (hstep : OtherStep s choice task next task')
    (hkept : strands s (.advance i choice) = false) : Pool.Fresh { next with tasks := next.tasks.set i task' } := by
  intro r hstale'
  have hstale := stale_elsewhere hstep hstale'
  have hr : r ∈ s.known := by
    obtain ⟨-, host, hhost, -⟩ := Pool.stale_iff.mp hstale
    exact hknown r host hhost
  have hmem : task' ∈ s.tasks.set i task' := List.mem_set (List.getElem?_eq_some_iff.mp htask).1 task'
  -- a task that covers nothing does not matter
  have hother : task.retires r = none → ∀ stored, covered s.tasks stored r = true →
      covered (s.tasks.set i task') stored r = true := by
    intro hnone stored hcovered
    obtain ⟨t, ht, hcovers⟩ := covered_iff.mp hcovered
    have hne : t ≠ task := by
      rintro rfl
      obtain ⟨saved, hsaved, -⟩ := Task.covers_iff.mp hcovers
      rw [hnone] at hsaved
      cases hsaved
    exact covered_iff.mpr ⟨t, mem_set_of_ne htask ht hne task', hcovers⟩
  cases hstep with
  | store saved => exact covered_iff.mpr ⟨_, hmem, Task.covers_iff.mpr ⟨saved, rfl, rfl⟩⟩
  | install saved =>
    refine hother rfl saved ?_
    have hall : ∀ r ∈ s.known, s.stale saved r = true → covered s.tasks saved r = true := by
      simpa [strands, htask] using hkept
    exact hall r hr hstale
  | list saved todo horder =>
    obtain ⟨t, ht, hcovers⟩ := covered_iff.mp (h r hstale)
    by_cases hsame : t = .stored saved
    · subst hsame
      obtain ⟨saved', hsaved, hlookup⟩ := Task.covers_iff.mp hcovers
      obtain rfl := Option.some.inj hsaved
      refine covered_iff.mpr ⟨_, hmem, Task.covers_iff.mpr ⟨saved, if_pos (horder.mem_iff.mpr hr), hlookup⟩⟩
    · exact covered_iff.mpr ⟨t, mem_set_of_ne htask ht hsame _, hcovers⟩
  | abandonStored saved => exact covered_of_strands hkept htask (.inr ⟨saved, rfl⟩) hr hstale
  | _ => exact hother rfl s.stored (h r hstale)

/-- An address needs a slot. -/
theorem known_of_mem_hosts (hplaced : s.Placed) (hknown : s.Known) {host : String} (hhost : host ∈ s.hosts r) :
    r ∈ s.known := by
  have hlock : ∀ task ∈ s.tasks, task.lock = some r → r ∈ s.known := fun task ht hlock =>
    hknown.tasks task ht (Task.mem_slots_of_place (Task.place_of_lock hlock))
  rcases Pool.mem_hosts.mp hhost with ⟨session, hmem, rfl, hopen, -⟩ | ⟨task, ht, htarget⟩
  · obtain ⟨k, hk⟩ := List.mem_iff_getElem?.mp hmem
    rcases hplaced.kept k session hk hopen with ⟨held, hheld, -⟩ | ⟨task, ht, hhand⟩
    · by_contra hnew
      rw [hknown.held _ hnew] at hheld
      cases hheld
    · exact hlock task ht (Task.lock_of_hand hhand)
  · exact hlock task ht (Task.lock_of_away (Task.away_of_target htarget))

/-- No session is lost and no save that covers a stale receiver given up. -/
def keeps (s : Pool) (action : PoolAction) : Prop := leaks s action = false ∧ strands s action = false

instance (s : Pool) (action : PoolAction) : Decidable (keeps s action) := inferInstanceAs (Decidable (_ ∧ _))

/-- **A stale receiver is covered**, in every state of such a run. -/
theorem fresh_of_reachableBy (h : pool.ReachableBy keeps s) : s.Fresh := by
  refine h.invariant ?_ ?_
  · rintro _ ⟨stored, rfl⟩ r hstale
    obtain ⟨-, host, hhost, -⟩ := Pool.stale_iff.mp hstale
    cases hhost
  · intro s action s' hreach hkeeps hfresh hstep
    have hplaced := placed_of_reachableBy (hreach.mono fun _ _ hkept => hkept.1)
    have hreach' : pool.ReachableBy keeps s' := .step hreach hkeeps hstep
    have hspawn : ∀ pool' : Pool, ∀ task : Task, (∀ r, task.target r = none) → pool'.sessions = s.sessions →
        pool'.tasks = s.tasks ++ [task] → pool'.stored = s.stored → pool'.Fresh := by
      intro pool' task htarget hsessions htasks hstored r hstale
      obtain ⟨hadhoc, host, hhost, hne⟩ := Pool.stale_iff.mp hstale
      have hold : host ∈ s.hosts r := by
        simpa [Pool.hosts, hsessions, htasks, htarget] using hhost
      obtain ⟨t, ht, hcovers⟩ := covered_iff.mp (hfresh r (Pool.stale_iff.mpr ⟨hadhoc, host, hold, hstored ▸ hne⟩))
      exact covered_iff.mpr ⟨t, by rw [htasks]; exact List.mem_append_left _ ht, hstored.symm ▸ hcovers⟩
    cases poolStep_of_step hstep with
    | call r => exact hspawn _ _ (fun _ => rfl) rfl rfl rfl
    | callUnknown r => exact hspawn _ _ (fun _ => rfl) rfl rfl rfl
    | submit r => exact hspawn _ _ (fun _ => rfl) rfl rfl rfl
    | save saved => exact hspawn _ _ (fun _ => rfl) rfl rfl rfl
    | shutdown => exact hspawn _ _ (fun _ => rfl) rfl rfl rfl
    | registerAdHoc r host => exact hfresh
    | atSlot i choice task r out htask hplace hslot =>
      refine hfresh.apply hplaced (placed_of_reachableBy (hreach'.mono fun _ _ hkept => hkept.1))
        (counted_of_reachable hreach'.reachable) (named_of_reachable hreach'.reachable) htask hplace hslot ?_
      rintro rfl r' hstale
      obtain ⟨-, host, hhost, -⟩ := Pool.stale_iff.mp hstale
      have hr' := known_of_mem_hosts hplaced (known_of_reachable hreach.reachable) hhost
      exact covered_of_strands hkeeps.2 htask (.inl (by rw [hplace]; exact nofun)) hr' hstale
    | elsewhere i choice task next task' htask hplace hother =>
      exact hfresh.elsewhere (fun r host => known_of_mem_hosts hplaced (known_of_reachable hreach.reachable)) htask hother
        hkeeps.2
    | expire k session hsession hlost =>
      intro r hstale
      obtain ⟨hadhoc, host, hhost, hne⟩ := Pool.stale_iff.mp hstale
      refine hfresh r (Pool.stale_iff.mpr ⟨hadhoc, host, ?_, hne⟩)
      refine Pool.mem_hosts.mpr ((Pool.mem_hosts.mp hhost).imp_left ?_)
      rintro ⟨session, hmem, hr, hopen, hsame⟩
      obtain ⟨j, hj⟩ := List.mem_iff_getElem?.mp hmem
      exact ⟨session, List.mem_of_getElem? (getElem?_endSession hj hopen).2, hr, hopen, hsame⟩

end Pool

/-- Retirement closes a session that no operation has a lease on, and they come with the lock free. -/
theorem spares_operations : Spares Slot.operations fun agenda => agenda matches .save _ _ := by
  constructor
  · intro closed address fresh choice slot task out h r session agenda hout hwhy
    have hover : ∀ operation, callOver operation ≠ .closing r session agenda := by
      intro operation
      cases operation <;> exact nofun
    cases h with
    | retire choice saved r' rest held hidle => exact hidle
    | close choice r' session' agenda' =>
      cases agenda' with
      | call operation => exact absurd hout (hover operation)
      | _ => cases hout
    | synchronizeFails choice r' operation =>
      cases hout
      cases hwhy
    | timerCloses choice r' armedAt held =>
      cases hout
      cases hwhy
    | shutDown choice r' rest held =>
      cases hout
      cases hwhy
    | _ => first
      | exact absurd hout (hover _)
      | cases hout
  · intro closed address fresh choice slot task out h r hplace hzero
    cases h <;> simp_all [Slot.release, Task.place]

/-- **Retirement follows the file**: while no save is running, each session of a saved receiver that is open is at the
address the file holds, and a save closes a session only while no operation has a lease on it. -/
theorem retirement {s : Pool} (h : pool.ReachableBy keeps s) :
    ((∀ task ∈ s.tasks, task.saves = false) → ∀ session ∈ s.sessions, session.receiver.isAdHoc = false →
      session.closed = false → s.stored.lookup session.receiver = some session.host) ∧
    ∀ r k saved rest, Task.closing r k (.save saved rest) ∈ s.tasks → ∀ task ∈ s.tasks, task.operationLease ≠ some r := by
  refine ⟨fun hidle session hmem hadhoc hopen => ?_, fun r k saved rest hclosing task htask => ?_⟩
  · by_contra hne
    have hhost : session.host ∈ s.hosts session.receiver :=
      Pool.mem_hosts.mpr (.inl ⟨session, hmem, rfl, hopen, rfl⟩)
    obtain ⟨task, ht, hcovers⟩ := covered_iff.mp
      (fresh_of_reachableBy h session.receiver (Pool.stale_iff.mpr ⟨hadhoc, session.host, hhost, hne⟩))
    obtain ⟨saved, hretires, -⟩ := Task.covers_iff.mp hcovers
    exact absurd ((hidle task ht).symm.trans (Task.saves_of_retires hretires)) nofun
  · exact (counted_of_reachable h.reachable).operationLease_ne
      (spares_operations.spared h.reachable r k _ hclosing rfl) htask

section Example

/-- A call connects, the receiver is saved at another address, the session is closed, and a call connects again. -/
def movedRun : List PoolAction :=
  [.call study, .advance 0 .ok, .advance 0 .ok, .advance 0 .ok, .advance 0 .ok, .advance 0 .ok,
    .save [(study, "192.0.2.20")], .advance 1 .ok, .advance 1 (.order [study]), .advance 1 .ok, .advance 1 .ok,
    .advance 1 .ok, .advance 1 .ok, .call study, .advance 2 .ok, .advance 2 .ok, .advance 2 .ok, .advance 2 .ok]

theorem movedRun_isSome : (pool.execBy keeps studyPool movedRun).isSome = true := by decide

def moved : Pool := (pool.execBy keeps studyPool movedRun).get movedRun_isSome

theorem retirement_moved :
    ((∀ task ∈ moved.tasks, task.saves = false) → ∀ session ∈ moved.sessions, session.receiver.isAdHoc = false →
      session.closed = false → moved.stored.lookup session.receiver = some session.host) ∧
    ∀ r k saved rest, Task.closing r k (.save saved rest) ∈ moved.tasks →
      ∀ task ∈ moved.tasks, task.operationLease ≠ some r :=
  retirement (Machine.reachableBy_of_execBy studyPool movedRun ⟨_, rfl⟩ (Option.some_get _).symm)

/-- An operation is in flight, and the save that waits for it is given up. -/
def strandedRun : List PoolAction :=
  [.call study, .advance 0 .ok, .advance 0 .ok, .advance 0 .ok, .advance 0 .ok, .advance 0 .ok, .submit study,
    .advance 1 .ok, .advance 1 .ok, .advance 1 .ok, .save [(study, "192.0.2.20")], .advance 2 .ok,
    .advance 2 (.order [study]), .advance 2 .ok, .advance 2 .abandon]

/-- **No save is running, and the session is open at the old address.** -/
theorem not_retirement :
    (pool.exec studyPool strandedRun).map
        (fun s => (s.tasks.any Task.saves, s.stored.lookup study, s.sessions)) =
      some (false, some "192.0.2.20", [⟨study, "192.0.2.10", false⟩]) := by
  decide

end Example

end DenonAvr.Application.Connections
