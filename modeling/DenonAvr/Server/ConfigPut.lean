import DenonAvr.Infrastructure.ConfigYaml
import DenonAvr.Library.Machine

/-!
# `PUT /v1/config`

Any number of requests that replace the configuration if it is still the one that the client read. A request holds the
lock from its comparison to its answer, unless it is dropped: a request that takes too long is answered by the pipeline,
and the lock is free while its last file operation may still be under way.

No update is lost in every run in which no request reads the configuration that it is to replace while the rename of a
dropped one is under way (`puts_keep_updates`). Without that condition one is (`not_puts_keep_updates`).
-/

namespace DenonAvr.Server

open Domain Library Policy Infrastructure

/-! ### Requests -/

structure ConfigRequest where
  current : Option String
  receivers : List (String × ReceiverIdentity)
  soundModeFavorites : List (String × List String)
deriving DecidableEq

/-- `ConfiguredReceivers::try_from`. -/
def ConfigRequest.tryInto (request : ConfigRequest) : Except String ConfiguredReceivers := do
  let favorites ← request.soundModeFavorites.mapM fun (name, modes) => do
    let favorites ← modes.mapM SoundModeFavorite.new
    pure (name, (setOf (favorites.map SoundModeFavorite.mode)).map SoundModeFavorite.mk)
  pure ⟨request.current, request.receivers, favorites⟩

inductive PutAnswer
  /-- 200, with the `ETag` of what was saved. -/
  | saved (etag : String)
  /-- 412. -/
  | preconditionFailed
  | badRequest (message : String)
  | failed (error : ConfigurationError)
deriving DecidableEq

/-- What a save does between looking at the file and the rename. -/
inductive Preparation
  | directory
  | backup (old : Text)
  | temporary
deriving DecidableEq

def Preparation.context : Preparation → String
  | .directory => "creating configuration directory"
  | .backup _ => "backing up the earlier configuration"
  | .temporary => "writing temporary configuration"

/-- What a read of the file gave: its text if it is there. -/
abbrev FileRead := Except ConfigurationError (Option Text)

inductive PutPhase
  /-- For the lock. -/
  | waiting
  /-- The configuration to compare with is being read. -/
  | loading
  | loaded (read : FileRead)
  /-- `save`: the file is looked at once more. -/
  | planning (replacement : ConfiguredReceivers)
  | preparing (text : Text) (left : List Preparation)
  /-- The rename is with the pool. -/
  | installing
  /-- `retire_changed`. -/
  | retiring
  | reloading
  | reloaded (read : FileRead)
  /-- It was answered, or dropped. -/
  | ended (answer : Option PutAnswer)

/-- The last file operation of a request, which goes on without it. -/
inductive Rename
  | none
  | underWay (text : Text)
  | done (ok : Bool)
deriving DecidableEq

structure Put where
  /-- `If-Match`. -/
  wanted : String
  requested : ConfigRequest
  phase : PutPhase
  rename : Rename

inductive PutEvent
  /-- The request read the configuration that it asks to replace. -/
  | compared (put : ℕ) (text : Option Text)
  | replaced (put : ℕ) (before : Option Text) (after : Text)
  /-- With 200. -/
  | answered (put : ℕ)
deriving DecidableEq

structure ConfigPuts where
  file : Option Text
  /-- The file at the start. -/
  opened : Option Text
  puts : List Put
  /-- Who holds `config_lock`. -/
  holder : Option ℕ
  log : List PutEvent

inductive PutAction
  | request (wanted : String) (requested : ConfigRequest)
  | lock (put : ℕ)
  /-- The pool reads the file. -/
  | read (put : ℕ) (fault : Option String)
  /-- The request goes on, after a file operation that may have failed. -/
  | resume (put : ℕ) (fault : Option String)
  /-- The pool renames the temporary file. -/
  | install (put : ℕ) (ok : Bool)
  | drop (put : ℕ)

/-! ### Steps -/

/-- Whether the comparison with this file succeeds. -/
def agrees (env : ConfigEnv) (wanted : String) (text : Option Text) : Bool :=
  match configurationOf env.yaml text with
  | .ok current => decide (wanted = etagOf env current)
  | .error _ => false

def readText (context : String) (fault : Option String) (file : Option Text) : FileRead :=
  match fault with
  | none => .ok file
  | some message => .error ⟨context, message⟩

/-- The comparison, and what `save_configuration` checks. -/
def compare (env : ConfigEnv) (put : Put) (read : FileRead) : PutPhase :=
  match read.bind (configurationOf env.yaml) with
  | .error error => .ended (some (.failed error))
  | .ok current =>
    if put.wanted ≠ etagOf env current then .ended (some .preconditionFailed)
    else match put.requested.tryInto with
      | .error message => .ended (some (.badRequest message))
      | .ok replacement =>
        match replacement.validate with
        | .error message => .ended (some (.badRequest message))
        | .ok () => .planning replacement

def plan (env : ConfigEnv) (replacement : ConfiguredReceivers) (read : FileRead) : PutPhase :=
  match read.bind fun existing => planSave env.yaml existing replacement with
  | .error error => .ended (some (.failed error))
  | .ok plan => .preparing plan.text (.directory :: (plan.backup.toList.map .backup ++ [.temporary]))

/-- After the file was read for a request. -/
def Put.afterRead (env : ConfigEnv) (put : Put) (fault : Option String) (file : Option Text) : Option PutPhase :=
  match put.phase with
  | .loading => some (.loaded (readText "reading configuration" fault file))
  | .planning replacement => some (plan env replacement (readText "reading existing configuration" fault file))
  | .reloading => some (.reloaded (readText "reading configuration" fault file))
  | _ => none

def Put.afterResume (env : ConfigEnv) (put : Put) (fault : Option String) : Option (PutPhase × Rename) :=
  match put.phase, put.rename with
  | .loaded read, rename => some (compare env put read, rename)
  | .preparing text [], _ => some (.installing, .underWay text)
  | .preparing text (preparation :: left), rename =>
    match fault with
    | none => some (.preparing text left, rename)
    | some message => some (.ended (some (.failed ⟨preparation.context, message⟩)), rename)
  | .installing, .done true => some (.retiring, .done true)
  | .installing, .done false =>
    some (.ended (some (.failed ⟨"installing configuration", fault.getD ""⟩)), .done false)
  | .retiring, rename => some (.reloading, rename)
  | .reloaded read, rename =>
    match read.bind (configurationOf env.yaml) with
    | .error error => some (.ended (some (.failed error)), rename)
    | .ok saved => some (.ended (some (.saved (etagOf env saved))), rename)
  | _, _ => none

def PutPhase.isEnded : PutPhase → Bool
  | .ended _ => true
  | _ => false

def PutPhase.isSaved : PutPhase → Bool
  | .ended (some (.saved _)) => true
  | _ => false

/-- The request is at this phase now. The lock goes with it. -/
def ConfigPuts.move (run : ConfigPuts) (i : ℕ) (put : Put) (events : List PutEvent) : ConfigPuts :=
  { run with
    puts := run.puts.set i put
    holder := if put.phase.isEnded then none else run.holder
    log := run.log ++ events }

/-- What a read adds to the log. -/
def readEvents (env : ConfigEnv) (i : ℕ) (wanted : String) : PutPhase → List PutEvent
  | .loaded (.ok text) => if agrees env wanted text then [.compared i text] else []
  | _ => []

/-- The requests on a configuration file that may hold anything at the start. -/
def configPuts (env : ConfigEnv) : Machine ConfigPuts PutAction where
  init := fun run => run.opened = run.file ∧ run.puts = [] ∧ run.holder = none ∧ run.log = []
  step := fun run action =>
    match action with
    | .request wanted requested => some { run with puts := run.puts ++ [⟨wanted, requested, .waiting, .none⟩] }
    | .lock i =>
      match run.puts[i]?, run.holder with
      | some ⟨wanted, requested, .waiting, rename⟩, none =>
        some { run with puts := run.puts.set i ⟨wanted, requested, .loading, rename⟩, holder := some i }
      | _, _ => none
    | .read i fault =>
      run.puts[i]?.bind fun put => (put.afterRead env fault run.file).map fun phase =>
        run.move i { put with phase } (readEvents env i put.wanted phase)
    | .resume i fault =>
      run.puts[i]?.bind fun put => (put.afterResume env fault).map fun (phase, rename) =>
        run.move i { put with phase, rename } (if phase.isSaved then [.answered i] else [])
    | .install i ok =>
      run.puts[i]?.bind fun put =>
        match put.rename with
        | .underWay text =>
          if ok then some { run with
            file := some text
            puts := run.puts.set i { put with rename := .done true }
            log := run.log ++ [.replaced i run.file text] }
          else some { run with puts := run.puts.set i { put with rename := .done false } }
        | _ => none
    | .drop i =>
      run.puts[i]?.bind fun put =>
        match put.phase with
        | .ended _ => none
        | .waiting => some { run with puts := run.puts.set i { put with phase := .ended none } }
        | _ => some (run.move i { put with phase := .ended none } [])

def Rename.isUnderWay : Rename → Bool
  | .underWay _ => true
  | _ => false

/-- The request reads the configuration that it is to replace, while the rename of an earlier request is under way. -/
def overtakes (env : ConfigEnv) (run : ConfigPuts) : PutAction → Bool
  | .read i none =>
    match run.puts[i]? with
    | some ⟨wanted, _, .loading, _⟩ => agrees env wanted run.file && run.puts.any fun put => put.rename.isUnderWay
    | _ => false
  | _ => false

/-! ### What a request may still do -/

def PutPhase.holds : PutPhase → Bool
  | .waiting | .ended _ => false
  | _ => true

/-- From a comparison that succeeded to the answer. -/
def Put.past (env : ConfigEnv) (put : Put) : Bool :=
  match put.phase with
  | .loaded (.ok text) => agrees env put.wanted text
  | .planning _ | .preparing _ _ | .installing | .retiring | .reloading | .reloaded _ => true
  | _ => false

/-- It has compared, and may still replace the configuration. -/
def Put.live (env : ConfigEnv) (put : Put) : Bool :=
  put.rename.isUnderWay ||
    match put.phase with
    | .loaded (.ok text) => agrees env put.wanted text
    | .planning _ | .preparing _ _ => true
    | _ => false

/-- The text is that of the configuration that the request asks for. -/
def Put.Encodes (env : ConfigEnv) (put : Put) (text : Text) : Prop :=
  ∃ replacement, put.requested.tryInto = .ok replacement ∧ encodeText env.yaml replacement = .ok text

/-- How far the rename is, and what is to be written. -/
def Put.Sound (env : ConfigEnv) (put : Put) : Prop :=
  (∀ text, put.rename = .underWay text → put.Encodes env text) ∧
  match put.phase with
  | .waiting | .loading | .loaded _ => put.rename = .none
  | .planning replacement => put.rename = .none ∧ put.requested.tryInto = .ok replacement
  | .preparing text _ => put.rename = .none ∧ put.Encodes env text
  | .retiring | .reloading | .reloaded _ => put.rename = .done true
  | _ => True

/-- The file after these events. -/
def fileAfter (opened : Option Text) (log : List PutEvent) : Option Text :=
  log.foldl (fun file event =>
    match event with
    | .replaced _ _ after => some after
    | _ => file) opened

section Phase
variable {env : ConfigEnv} {put : Put} {fault : Option String} {file : Option Text} {phase : PutPhase} {rename : Rename}

theorem holds_of_past (h : put.past env = true) : put.phase.holds = true := by
  obtain ⟨wanted, requested, phase, rename⟩ := put
  cases phase <;> first | rfl | cases h

theorem past_of_live (h : put.live env = true) (hrename : put.rename.isUnderWay = false) : put.past env = true := by
  obtain ⟨wanted, requested, phase, rename⟩ := put
  unfold Put.live at h
  rw [hrename, Bool.false_or] at h
  cases phase with
  | loaded read => cases read with
    | ok text => exact h
    | error error => cases h
  | planning | preparing => rfl
  | _ => cases h

theorem holds_iff : phase.holds = true → phase.isEnded = false := by
  cases phase <;> simp [PutPhase.holds, PutPhase.isEnded]

variable (env) in
theorem compare_cases (put : Put) (read : FileRead) :
    (∃ answer, compare env put read = .ended (some answer) ∧ ∀ etag, answer ≠ .saved etag) ∨
      ∃ text replacement, read = .ok text ∧ agrees env put.wanted text = true ∧
        put.requested.tryInto = .ok replacement ∧ compare env put read = .planning replacement := by
  unfold compare
  cases hcurrent : read.bind (configurationOf env.yaml) with
  | error error => exact .inl ⟨_, rfl, nofun⟩
  | ok current =>
    obtain ⟨text, rfl, htext⟩ := bind_eq_ok.mp hcurrent
    dsimp only
    split_ifs with hwanted
    · exact .inl ⟨_, rfl, nofun⟩
    · have hagrees : agrees env put.wanted text = true := by
        unfold agrees
        rw [htext]
        exact decide_eq_true (not_not.mp hwanted)
      cases hinto : put.requested.tryInto with
      | error message => exact .inl ⟨_, rfl, nofun⟩
      | ok replacement =>
        dsimp only
        cases replacement.validate with
        | error message => exact .inl ⟨_, rfl, nofun⟩
        | ok done => exact .inr ⟨text, replacement, rfl, hagrees, rfl, rfl⟩

theorem planSave_text {existing : Option Text} {replacement : ConfiguredReceivers} {plan : SavePlan}
    (h : planSave env.yaml existing replacement = .ok plan) : encodeText env.yaml replacement = .ok plan.text := by
  obtain ⟨text, hencode, heq⟩ := bind_eq_ok.mp h
  obtain rfl := Except.ok.inj heq
  exact hencode

variable (env) in
theorem plan_cases (replacement : ConfiguredReceivers) (read : FileRead) :
    (∃ error, plan env replacement read = .ended (some (.failed error))) ∨
      ∃ text left, encodeText env.yaml replacement = .ok text ∧ plan env replacement read = .preparing text left := by
  unfold plan
  cases hplan : read.bind fun existing => planSave env.yaml existing replacement with
  | error error => exact .inl ⟨error, rfl⟩
  | ok plan =>
    obtain ⟨existing, -, hplan⟩ := bind_eq_ok.mp hplan
    exact .inr ⟨plan.text, _, planSave_text hplan, rfl⟩

end Phase

/-! ### The log -/

/-- Every replacement is right behind the comparison it rests on, and every comparison is with the file of its time. -/
structure Threaded (opened file : Option Text) (log : List PutEvent) : Prop where
  ordered : ∀ k i before after, log[k]? = some (.replaced i before after) →
    ∃ m, k = m + 1 ∧ log[m]? = some (.compared i before)
  compared : ∀ k i text, log[k]? = some (.compared i text) → text = fileAfter opened (log.take k)
  file : file = fileAfter opened log

section Log
variable {opened file file' : Option Text} {log : List PutEvent} {event : PutEvent} {α : Type}

theorem getElem?_concat_cases {items : List α} {item other : α} {k : ℕ} (h : (items ++ [item])[k]? = some other) :
    items[k]? = some other ∨ k = items.length ∧ other = item := by
  rw [List.getElem?_append] at h
  split_ifs at h with hlt
  · exact .inl h
  · rw [List.getElem?_singleton] at h
    split_ifs at h with hk
    exact .inr ⟨by omega, (Option.some.inj h).symm⟩

theorem Threaded.concat (h : Threaded opened file log) (hfile : file' = fileAfter file [event])
    (hreplaced : ∀ i before after, event = .replaced i before after → log.getLast? = some (.compared i before))
    (hcompared : ∀ i text, event = .compared i text → text = file) : Threaded opened file' (log ++ [event]) := by
  refine ⟨fun k i before after hk => ?_, fun k i text hk => ?_, ?_⟩
  · obtain hk | ⟨rfl, heq⟩ := getElem?_concat_cases hk
    · obtain ⟨m, rfl, hm⟩ := h.ordered k i before after hk
      exact ⟨m, rfl, by rw [List.getElem?_append_left (List.getElem?_eq_some_iff.mp hm).1]; exact hm⟩
    · have hlast := hreplaced i before after heq.symm
      obtain ⟨rest, rfl⟩ := List.getLast?_eq_some_iff.mp hlast
      refine ⟨rest.length, by rw [List.length_append]; rfl, ?_⟩
      rw [List.getElem?_append_left (by simp), List.getElem?_concat_length]
  · obtain hk | ⟨rfl, heq⟩ := getElem?_concat_cases hk
    · rw [List.take_append_of_le_length (List.getElem?_eq_some_iff.mp hk).1.le]
      exact h.compared k i text hk
    · rw [List.take_left, ← h.file]
      exact hcompared i text heq.symm
  · rw [hfile, h.file]
    unfold fileAfter
    rw [List.foldl_append]

end Log

/-! ### Runs -/

/-- What holds while no request overtakes the rename of another one. -/
structure Exclusive (env : ConfigEnv) (run : ConfigPuts) : Prop where
  threaded : Threaded run.opened run.file run.log
  sound : ∀ (i : ℕ) (put : Put), run.puts[i]? = some put → put.Sound env
  holds : ∀ (i : ℕ) (put : Put), run.puts[i]? = some put → put.phase.holds = true → run.holder = some i
  /-- Nothing happened since a request compared that may still replace. -/
  live : ∀ (i : ℕ) (put : Put), run.puts[i]? = some put → put.live env = true →
    run.log.getLast? = some (.compared i run.file)
  alone : ∀ (i : ℕ) (put : Put), run.puts[i]? = some put → put.past env = true →
    ∀ (j : ℕ) (other : Put), j ≠ i → run.puts[j]? = some other → other.rename.isUnderWay = false
  compared : ∀ i text, .compared i text ∈ run.log → ∃ put, run.puts[i]? = some put ∧ agrees env put.wanted text = true
  replaced : ∀ i before after, .replaced i before after ∈ run.log →
    ∃ put, run.puts[i]? = some put ∧ put.Encodes env after
  done : ∀ (i : ℕ) (put : Put), run.puts[i]? = some put → put.rename = .done true →
    ∃ before after, .replaced i before after ∈ run.log
  answered : ∀ i, .answered i ∈ run.log → ∃ put, run.puts[i]? = some put ∧ put.rename = .done true

/-- A step of a request after which it may do no more than before. -/
structure Moves (env : ConfigEnv) (put put' : Put) (answers : Bool) : Prop where
  wanted : put'.wanted = put.wanted
  requested : put'.requested = put.requested
  sound : put'.Sound env
  live : put'.live env = true → put.live env = true
  past : put'.past env = true → put.past env = true
  underWay : put'.rename.isUnderWay = true → put.rename.isUnderWay = true ∨ put.phase.holds = true
  done : put'.rename = .done true ↔ put.rename = .done true
  answers : answers = true → put.past env = true ∧ put'.live env = false ∧ put'.rename = .done true

section Runs
variable {env : ConfigEnv} {run run' : ConfigPuts} {put put' : Put} {i : ℕ} {answers : Bool} {holder : Option ℕ}

theorem getElem?_set_cases {α : Type} {items : List α} {item other : α} {j : ℕ} (h : (items.set i item)[j]? = some other) :
    j = i ∧ other = item ∨ j ≠ i ∧ items[j]? = some other := by
  by_cases hji : j = i
  · subst hji
    rw [List.getElem?_set_self'] at h
    obtain ⟨_, -, heq⟩ := Option.map_eq_some_iff.mp h
    exact .inl ⟨rfl, heq.symm⟩
  · rw [List.getElem?_set_ne (Ne.symm hji)] at h
    exact .inr ⟨hji, h⟩

/-- What is known of a request by what it asks for stays known. -/
theorem exists_set {P : Put → Prop} {j : ℕ} (hput : run.puts[i]? = some put) (hP : P put → P put')
    (h : ∃ other, run.puts[j]? = some other ∧ P other) : ∃ other, (run.puts.set i put')[j]? = some other ∧ P other := by
  obtain ⟨other, hother, hP'⟩ := h
  by_cases hji : j = i
  · subst hji
    obtain rfl := Option.some.inj (hput.symm.trans hother)
    exact ⟨put', List.getElem?_set_self (List.getElem?_eq_some_iff.mp hput).1, hP hP'⟩
  · exact ⟨other, by rw [List.getElem?_set_ne (Ne.symm hji)]; exact hother, hP'⟩

theorem Put.Encodes.congr {text : Text} (hrequested : put'.requested = put.requested) (h : put.Encodes env text) :
    put'.Encodes env text := by
  unfold Put.Encodes at h ⊢
  rwa [hrequested]

variable (holder) in
/-- **A step of one request** that neither compares nor replaces. -/
theorem Exclusive.update (h : Exclusive env run) (hput : run.puts[i]? = some put) (hmoves : Moves env put put' answers)
    (hself : put'.phase.holds = true → holder = some i) (hothers : ∀ j, j ≠ i → run.holder = some j → holder = some j) :
    Exclusive env { run with
      puts := run.puts.set i put', holder, log := run.log ++ if answers then [.answered i] else [] } := by
  have hmem : ∀ event, event ∈ run.log ++ (if answers then [PutEvent.answered i] else []) →
      event ∈ run.log ∨ answers = true ∧ event = .answered i := by
    intro event hevent
    cases answers
    · exact .inl (by simpa using hevent)
    · simpa using hevent
  -- where the step answers, no request is left that may replace
  have hlive : ∀ j other, (run.puts.set i put')[j]? = some other → other.live env = true →
      answers = false ∧ run.log.getLast? = some (.compared j run.file) := by
    intro j other hother hother_live
    cases answers with
    | false =>
      obtain ⟨rfl, rfl⟩ | ⟨hji, hother⟩ := getElem?_set_cases hother
      · exact ⟨rfl, h.live j put hput (hmoves.live hother_live)⟩
      · exact ⟨rfl, h.live j other hother hother_live⟩
    | true =>
      obtain ⟨hpast, hdead, -⟩ := hmoves.answers rfl
      obtain ⟨rfl, rfl⟩ | ⟨hji, hother⟩ := getElem?_set_cases hother
      · cases hdead.symm.trans hother_live
      · have hidle := h.alone i put hput hpast j other hji hother
        have hholds := h.holds j other hother (holds_of_past (past_of_live hother_live hidle))
        exact absurd (Option.some.inj (hholds.symm.trans (h.holds i put hput (holds_of_past hpast)))) hji
  exact {
    threaded := by
      cases answers with
      | false => simpa using h.threaded
      | true => exact h.threaded.concat rfl nofun nofun
    sound := fun j other hother => by
      obtain ⟨rfl, rfl⟩ | ⟨-, hother⟩ := getElem?_set_cases hother
      · exact hmoves.sound
      · exact h.sound j other hother
    holds := fun j other hother hholds => by
      obtain ⟨rfl, rfl⟩ | ⟨hji, hother⟩ := getElem?_set_cases hother
      · exact hself hholds
      · exact hothers j hji (h.holds j other hother hholds)
    live := fun j other hother hother_live => by
      obtain ⟨rfl, hlast⟩ := hlive j other hother hother_live
      simpa using hlast
    alone := fun j other hother hpast k third hkj hthird => by
      -- the step's request may have handed over its rename only while it held the lock
      obtain ⟨rfl, rfl⟩ | ⟨hji, hother⟩ := getElem?_set_cases hother
      · obtain ⟨rfl, -⟩ | ⟨-, hthird⟩ := getElem?_set_cases hthird
        · exact absurd rfl hkj
        · exact h.alone j put hput (hmoves.past hpast) k third hkj hthird
      · have hheld := h.holds j other hother (holds_of_past hpast)
        have hidle := h.alone j other hother hpast
        obtain ⟨rfl, rfl⟩ | ⟨-, hthird⟩ := getElem?_set_cases hthird
        · by_contra hunder
          obtain hunder | hholds := hmoves.underWay (eq_true_of_ne_false hunder)
          · cases hunder.symm.trans (hidle k put hkj hput)
          · exact hji (Option.some.inj (hheld.symm.trans (h.holds k put hput hholds)))
        · exact hidle k third hkj hthird
    compared := fun j text hevent => by
      obtain hevent | ⟨-, heq⟩ := hmem _ hevent
      · exact exists_set hput (fun hagrees => hmoves.wanted ▸ hagrees) (h.compared j text hevent)
      · cases heq
    replaced := fun j before after hevent => by
      obtain hevent | ⟨-, heq⟩ := hmem _ hevent
      · exact exists_set hput (Put.Encodes.congr hmoves.requested) (h.replaced j before after hevent)
      · cases heq
    done := fun j other hother hdone => by
      have hreplaced : ∃ before after, PutEvent.replaced j before after ∈ run.log := by
        obtain ⟨rfl, rfl⟩ | ⟨-, hother⟩ := getElem?_set_cases hother
        · exact h.done j put hput (hmoves.done.mp hdone)
        · exact h.done j other hother hdone
      obtain ⟨before, after, hevent⟩ := hreplaced
      exact ⟨before, after, List.mem_append_left _ hevent⟩
    answered := fun j hevent => by
      obtain hevent | ⟨htrue, heq⟩ := hmem _ hevent
      · exact exists_set hput hmoves.done.mpr (h.answered j hevent)
      · obtain rfl := PutEvent.answered.inj heq
        obtain ⟨-, -, hdone⟩ := hmoves.answers htrue
        exact ⟨put', List.getElem?_set_self (List.getElem?_eq_some_iff.mp hput).1, hdone⟩ }

/-- A read other than that of a comparison that succeeds. -/
theorem moves_afterRead {fault : Option String} {file : Option Text} {phase : PutPhase} (hsound : put.Sound env)
    (hread : put.afterRead env fault file = some phase)
    (hother : ∀ text, phase = .loaded (.ok text) → agrees env put.wanted text = false) :
    Moves env put { put with phase } false := by
  obtain ⟨wanted, requested, before, rename⟩ := put
  obtain ⟨hunder, hphase⟩ := hsound
  unfold Put.afterRead at hread
  cases before with
  | loading =>
    obtain rfl := Option.some.inj hread
    obtain rfl : rename = .none := hphase
    cases hresult : readText "reading configuration" fault file with
    | error error => exact ⟨rfl, rfl, ⟨hunder, rfl⟩, nofun, nofun, nofun, Iff.rfl, nofun⟩
    | ok text =>
      have hdisagrees := hother text (congrArg PutPhase.loaded hresult)
      have hfalse : ∀ {P : Prop}, agrees env wanted text = true → P := fun htrue => by
        cases htrue.symm.trans hdisagrees
      exact ⟨rfl, rfl, ⟨hunder, rfl⟩, hfalse, hfalse, nofun, Iff.rfl, nofun⟩
  | planning replacement =>
    obtain rfl := Option.some.inj hread
    obtain ⟨rfl, hinto⟩ := hphase
    obtain ⟨error, heq⟩ | ⟨text, left, hencode, heq⟩ :=
      plan_cases env replacement (readText "reading existing configuration" fault file)
    · rw [heq]
      exact ⟨rfl, rfl, ⟨hunder, trivial⟩, nofun, nofun, nofun, Iff.rfl, nofun⟩
    · rw [heq]
      exact ⟨rfl, rfl, ⟨hunder, rfl, replacement, hinto, hencode⟩, fun _ => rfl, fun _ => rfl, nofun, Iff.rfl, nofun⟩
  | reloading =>
    obtain rfl := Option.some.inj hread
    obtain rfl : rename = .done true := hphase
    exact ⟨rfl, rfl, ⟨hunder, rfl⟩, nofun, fun _ => rfl, nofun, Iff.rfl, nofun⟩
  | _ => cases hread

theorem moves_afterResume {fault : Option String} {phase : PutPhase} {rename : Rename} (hsound : put.Sound env)
    (hresume : put.afterResume env fault = some (phase, rename)) :
    Moves env put { put with phase, rename } phase.isSaved := by
  obtain ⟨wanted, requested, before, renamed⟩ := put
  obtain ⟨hunder, hphase⟩ := hsound
  unfold Put.afterResume at hresume
  cases before with
  | loaded read =>
    obtain ⟨rfl, rfl⟩ := Prod.mk.inj (Option.some.inj hresume)
    obtain rfl : renamed = .none := hphase
    obtain ⟨answer, heq, hanswer⟩ | ⟨text, replacement, rfl, hagrees, hinto, heq⟩ :=
      compare_cases env ⟨wanted, requested, .loaded read, .none⟩ read
    · rw [heq]
      have hsaved : PutPhase.isSaved (.ended (some answer)) = false := by
        cases answer with
        | saved etag => exact absurd rfl (hanswer etag)
        | _ => rfl
      rw [hsaved]
      exact ⟨rfl, rfl, ⟨hunder, trivial⟩, nofun, nofun, nofun, Iff.rfl, nofun⟩
    · rw [heq]
      exact ⟨rfl, rfl, ⟨hunder, rfl, hinto⟩, fun _ => hagrees, fun _ => hagrees, nofun, Iff.rfl, nofun⟩
  | preparing text left =>
    obtain ⟨rfl, hencodes⟩ := hphase
    cases left with
    | nil =>
      obtain ⟨rfl, rfl⟩ := Prod.mk.inj (Option.some.inj hresume)
      refine ⟨rfl, rfl, ⟨fun other hother => ?_, trivial⟩, fun _ => rfl, fun _ => rfl, fun _ => .inr rfl, by simp, nofun⟩
      obtain rfl := Rename.underWay.inj hother
      exact hencodes
    | cons preparation left =>
      cases fault with
      | none =>
        obtain ⟨rfl, rfl⟩ := Prod.mk.inj (Option.some.inj hresume)
        exact ⟨rfl, rfl, ⟨hunder, rfl, hencodes⟩, fun _ => rfl, fun _ => rfl, nofun, Iff.rfl, nofun⟩
      | some message =>
        obtain ⟨rfl, rfl⟩ := Prod.mk.inj (Option.some.inj hresume)
        exact ⟨rfl, rfl, ⟨hunder, trivial⟩, nofun, nofun, nofun, Iff.rfl, nofun⟩
  | installing =>
    cases renamed with
    | done ok =>
      cases ok with
      | true =>
        obtain ⟨rfl, rfl⟩ := Prod.mk.inj (Option.some.inj hresume)
        exact ⟨rfl, rfl, ⟨hunder, rfl⟩, nofun, fun _ => rfl, nofun, Iff.rfl, nofun⟩
      | false =>
        obtain ⟨rfl, rfl⟩ := Prod.mk.inj (Option.some.inj hresume)
        exact ⟨rfl, rfl, ⟨hunder, trivial⟩, nofun, nofun, nofun, Iff.rfl, nofun⟩
    | _ => cases hresume
  | retiring =>
    obtain ⟨rfl, rfl⟩ := Prod.mk.inj (Option.some.inj hresume)
    exact ⟨rfl, rfl, ⟨hunder, hphase⟩, id, fun _ => rfl, .inl, Iff.rfl, nofun⟩
  | reloaded read =>
    obtain rfl : renamed = .done true := hphase
    dsimp only at hresume
    split at hresume
    · obtain ⟨rfl, rfl⟩ := Prod.mk.inj (Option.some.inj hresume)
      exact ⟨rfl, rfl, ⟨hunder, trivial⟩, nofun, nofun, nofun, Iff.rfl, nofun⟩
    · obtain ⟨rfl, rfl⟩ := Prod.mk.inj (Option.some.inj hresume)
      exact ⟨rfl, rfl, ⟨hunder, trivial⟩, nofun, nofun, nofun, Iff.rfl, fun _ => ⟨rfl, rfl, rfl⟩⟩
  | _ => cases hresume

theorem moves_drop (hsound : put.Sound env) : Moves env put { put with phase := .ended none } false := by
  refine ⟨rfl, rfl, ⟨hsound.1, trivial⟩, fun hlive => ?_, nofun, .inl, Iff.rfl, nofun⟩
  unfold Put.live at hlive ⊢
  dsimp only at hlive
  rw [Bool.or_false] at hlive
  rw [hlive, Bool.true_or]

theorem moves_lock {wanted : String} {requested : ConfigRequest} {rename : Rename}
    (hsound : Put.Sound env ⟨wanted, requested, .waiting, rename⟩) :
    Moves env ⟨wanted, requested, .waiting, rename⟩ ⟨wanted, requested, .loading, rename⟩ false :=
  ⟨rfl, rfl, hsound, id, nofun, .inl, Iff.rfl, nofun⟩

theorem moves_installFailed (hunder : put.rename.isUnderWay = true) (hsound : put.Sound env) :
    Moves env put { put with rename := .done false } false := by
  obtain ⟨wanted, requested, phase, rename⟩ := put
  obtain ⟨-, hphase⟩ := hsound
  cases rename with
  | underWay text =>
    cases phase with
    | installing | ended => exact ⟨rfl, rfl, ⟨nofun, trivial⟩, nofun, id, nofun, by simp, nofun⟩
    | planning | preparing => cases hphase.1
    | _ => cases hphase
  | _ => cases hunder

theorem Exclusive.request (h : Exclusive env run) (wanted : String) (requested : ConfigRequest) :
    Exclusive env { run with puts := run.puts ++ [⟨wanted, requested, .waiting, .none⟩] } := by
  have hold : ∀ {P : Put → Prop} {j : ℕ}, (∃ put, run.puts[j]? = some put ∧ P put) →
      ∃ put, (run.puts ++ [(⟨wanted, requested, .waiting, .none⟩ : Put)])[j]? = some put ∧ P put := by
    rintro P j ⟨put, hput, hP⟩
    exact ⟨put, by rw [List.getElem?_append_left (List.getElem?_eq_some_iff.mp hput).1]; exact hput, hP⟩
  exact {
    threaded := h.threaded
    sound := fun j other hother => by
      obtain hother | ⟨-, rfl⟩ := getElem?_concat_cases hother
      · exact h.sound j other hother
      · exact ⟨nofun, rfl⟩
    holds := fun j other hother hholds => by
      obtain hother | ⟨-, rfl⟩ := getElem?_concat_cases hother
      · exact h.holds j other hother hholds
      · cases hholds
    live := fun j other hother hlive => by
      obtain hother | ⟨-, rfl⟩ := getElem?_concat_cases hother
      · exact h.live j other hother hlive
      · cases hlive
    alone := fun j other hother hpast k third hkj hthird => by
      obtain hother | ⟨-, rfl⟩ := getElem?_concat_cases hother
      · obtain hthird | ⟨-, rfl⟩ := getElem?_concat_cases hthird
        · exact h.alone j other hother hpast k third hkj hthird
        · rfl
      · cases hpast
    compared := fun j text hevent => hold (h.compared j text hevent)
    replaced := fun j before after hevent => hold (h.replaced j before after hevent)
    done := fun j other hother hdone => by
      obtain hother | ⟨-, rfl⟩ := getElem?_concat_cases hother
      · exact h.done j other hother hdone
      · cases hdone
    answered := fun j hevent => hold (h.answered j hevent) }

/-- **A comparison that succeeds**, with no rename under way: the request is now the only one that may replace. -/
theorem Exclusive.compare (h : Exclusive env run) {wanted : String} {requested : ConfigRequest} {rename : Rename}
    (hput : run.puts[i]? = some ⟨wanted, requested, .loading, rename⟩) (hagrees : agrees env wanted run.file = true)
    (hidle : ∀ put ∈ run.puts, put.rename.isUnderWay = false) :
    Exclusive env { run with
      puts := run.puts.set i ⟨wanted, requested, .loaded (.ok run.file), rename⟩
      log := run.log ++ [.compared i run.file] } := by
  obtain ⟨hunder, hrename⟩ := h.sound i _ hput
  obtain rfl : rename = .none := hrename
  have hheld : run.holder = some i := h.holds i _ hput rfl
  have hset : ∀ (j : ℕ) (other : Put), (run.puts.set i ⟨wanted, requested, .loaded (.ok run.file), .none⟩)[j]? = some other →
      other.rename.isUnderWay = false := by
    intro j other hother
    obtain ⟨-, rfl⟩ | ⟨-, hother⟩ := getElem?_set_cases hother
    · rfl
    · exact hidle other (List.mem_of_getElem? hother)
  have hmem : ∀ {event}, event ∈ run.log ++ [PutEvent.compared i run.file] →
      event ∈ run.log ∨ event = .compared i run.file := fun hevent =>
    (List.mem_append.mp hevent).imp_right List.mem_singleton.mp
  exact {
    threaded := h.threaded.concat rfl nofun fun j text heq => (PutEvent.compared.inj heq).2.symm
    sound := fun j other hother => by
      obtain ⟨rfl, rfl⟩ | ⟨-, hother⟩ := getElem?_set_cases hother
      · exact ⟨hunder, rfl⟩
      · exact h.sound j other hother
    holds := fun j other hother hholds => by
      obtain ⟨rfl, -⟩ | ⟨-, hother⟩ := getElem?_set_cases hother
      · exact hheld
      · exact h.holds j other hother hholds
    live := fun j other hother hlive => by
      have hpast := past_of_live hlive (hset j other hother)
      obtain ⟨rfl, -⟩ | ⟨hji, hother⟩ := getElem?_set_cases hother
      · exact List.getLast?_concat
      · exact absurd (Option.some.inj ((h.holds j other hother (holds_of_past hpast)).symm.trans hheld)) hji
    alone := fun j other _ _ k third _ hthird => hset k third hthird
    compared := fun j text hevent => by
      obtain hevent | heq := hmem hevent
      · exact exists_set hput id (h.compared j text hevent)
      · obtain ⟨rfl, rfl⟩ := PutEvent.compared.inj heq
        exact ⟨_, List.getElem?_set_self (List.getElem?_eq_some_iff.mp hput).1, hagrees⟩
    replaced := fun j before after hevent => by
      obtain hevent | heq := hmem hevent
      · exact exists_set hput id (h.replaced j before after hevent)
      · cases heq
    done := fun j other hother hdone => by
      obtain ⟨-, rfl⟩ | ⟨-, hother⟩ := getElem?_set_cases hother
      · cases hdone
      · obtain ⟨before, after, hevent⟩ := h.done j other hother hdone
        exact ⟨before, after, List.mem_append_left _ hevent⟩
    answered := fun j hevent => by
      obtain hevent | heq := hmem hevent
      · exact exists_set hput id (h.answered j hevent)
      · cases heq }

/-- **A rename** replaces the configuration that its request compared with. -/
theorem Exclusive.install (h : Exclusive env run) (hput : run.puts[i]? = some put) {text : Text}
    (hunder : put.rename = .underWay text) :
    Exclusive env { run with
      file := some text
      puts := run.puts.set i { put with rename := .done true }
      log := run.log ++ [.replaced i run.file text] } := by
  obtain ⟨wanted, requested, phase, rename⟩ := put
  obtain rfl : rename = .underWay text := hunder
  obtain ⟨hencodes, hphase⟩ := h.sound i _ hput
  have hlast := h.live i _ hput rfl
  have hmem : ∀ {event}, event ∈ run.log ++ [PutEvent.replaced i run.file text] →
      event ∈ run.log ∨ event = .replaced i run.file text := fun hevent =>
    (List.mem_append.mp hevent).imp_right List.mem_singleton.mp
  -- only one request was the last to compare
  have honly : ∀ {j other}, run.puts[j]? = some other → other.live env = true → j = i := by
    intro j other hother hlive
    exact (PutEvent.compared.inj (Option.some.inj ((h.live j other hother hlive).symm.trans hlast))).1
  have hdead : ({ wanted, requested, phase, rename := .done true } : Put).live env = false := by
    cases phase with
    | planning | preparing => cases hphase.1
    | installing | ended => rfl
    | _ => cases hphase
  exact {
    threaded := h.threaded.concat rfl (fun j before after heq => by
      obtain ⟨rfl, rfl, rfl⟩ := PutEvent.replaced.inj heq
      exact hlast) nofun
    sound := fun j other hother => by
      obtain ⟨rfl, rfl⟩ | ⟨-, hother⟩ := getElem?_set_cases hother
      · refine ⟨nofun, ?_⟩
        cases phase with
        | planning | preparing => cases hphase.1
        | installing | ended => trivial
        | _ => cases hphase
      · exact h.sound j other hother
    holds := fun j other hother hholds => by
      obtain ⟨rfl, rfl⟩ | ⟨-, hother⟩ := getElem?_set_cases hother
      · exact h.holds j _ hput hholds
      · exact h.holds j other hother hholds
    live := fun j other hother hlive => by
      obtain ⟨rfl, rfl⟩ | ⟨hji, hother⟩ := getElem?_set_cases hother
      · cases hdead.symm.trans hlive
      · exact absurd (honly hother hlive) hji
    alone := fun j other hother hpast k third hkj hthird => by
      obtain ⟨-, rfl⟩ | ⟨hki, hthird⟩ := getElem?_set_cases hthird
      · rfl
      · by_contra hthird_under
        refine hki (honly hthird ?_)
        unfold Put.live
        rw [eq_true_of_ne_false hthird_under, Bool.true_or]
    compared := fun j text hevent => by
      obtain hevent | heq := hmem hevent
      · exact exists_set hput id (h.compared j text hevent)
      · cases heq
    replaced := fun j before after hevent => by
      obtain hevent | heq := hmem hevent
      · exact exists_set hput id (h.replaced j before after hevent)
      · obtain ⟨rfl, rfl, rfl⟩ := PutEvent.replaced.inj heq
        exact ⟨_, List.getElem?_set_self (List.getElem?_eq_some_iff.mp hput).1, hencodes _ rfl⟩
    done := fun j other hother hdone => by
      obtain ⟨rfl, -⟩ | ⟨-, hother⟩ := getElem?_set_cases hother
      · exact ⟨run.file, text, List.mem_append_right _ (List.mem_singleton_self _)⟩
      · obtain ⟨before, after, hevent⟩ := h.done j other hother hdone
        exact ⟨before, after, List.mem_append_left _ hevent⟩
    answered := fun j hevent => by
      obtain hevent | heq := hmem hevent
      · exact exists_set hput (fun _ => rfl) (h.answered j hevent)
      · cases heq }

theorem Exclusive.read (h : Exclusive env run) {fault : Option String}
    (hovertakes : overtakes env run (.read i fault) = false) (hstep : (configPuts env).step run (.read i fault) = some run') :
    Exclusive env run' := by
  obtain ⟨put, hput, hmap⟩ := Option.bind_eq_some_iff.mp hstep
  obtain ⟨phase, hread, rfl⟩ := Option.map_eq_some_iff.mp hmap
  by_cases hagrees : ∃ text, phase = .loaded (.ok text) ∧ agrees env put.wanted text = true
  · obtain ⟨text, rfl, hagrees⟩ := hagrees
    obtain ⟨wanted, requested, before, rename⟩ := put
    cases before with
    | loading =>
      cases fault with
      | none =>
        obtain rfl : run.file = text := Except.ok.inj (PutPhase.loaded.inj (Option.some.inj hread))
        unfold overtakes at hovertakes
        dsimp only at hovertakes hagrees
        rw [hput] at hovertakes
        dsimp only at hovertakes
        rw [hagrees, Bool.true_and] at hovertakes
        have hidle : ∀ put ∈ run.puts, put.rename.isUnderWay = false := fun put hmem => by
          simpa using List.any_eq_false.mp hovertakes put hmem
        have hcompared := h.compare hput hagrees hidle
        unfold ConfigPuts.move readEvents
        dsimp only [PutPhase.isEnded]
        rw [if_pos hagrees]
        exact hcompared
      | some message => cases Option.some.inj hread
    | planning replacement =>
      obtain ⟨error, heq⟩ | ⟨_, left, -, heq⟩ :=
        plan_cases env replacement (readText "reading existing configuration" fault run.file)
      · cases heq.symm.trans (Option.some.inj hread)
      · cases heq.symm.trans (Option.some.inj hread)
    | reloading => cases Option.some.inj hread
    | _ => cases hread
  · have hdisagrees : ∀ text, phase = .loaded (.ok text) → agrees env put.wanted text = false := by
      intro text heq
      by_contra htrue
      exact hagrees ⟨text, heq, eq_true_of_ne_false htrue⟩
    have hholds : put.phase.holds = true := by
      obtain ⟨wanted, requested, before, rename⟩ := put
      cases before <;> first | rfl | cases hread
    have hheld := h.holds i put hput hholds
    have hnext := h.update (if phase.isEnded then none else run.holder) hput
      (moves_afterRead (h.sound i put hput) hread hdisagrees)
      (fun hself => by rw [if_neg (by rw [holds_iff hself]; exact Bool.false_ne_true)]; exact hheld)
      (fun j hji hj => absurd (Option.some.inj (hj.symm.trans hheld)) hji)
    have hevents : readEvents env i put.wanted phase = [] := by
      unfold readEvents
      split
      · rw [hdisagrees _ rfl]
        rfl
      · rfl
    rw [hevents]
    exact hnext

theorem Exclusive.resume (h : Exclusive env run) {fault : Option String}
    (hstep : (configPuts env).step run (.resume i fault) = some run') : Exclusive env run' := by
  obtain ⟨put, hput, hmap⟩ := Option.bind_eq_some_iff.mp hstep
  obtain ⟨⟨phase, rename⟩, hresume, rfl⟩ := Option.map_eq_some_iff.mp hmap
  have hholds : put.phase.holds = true := by
    obtain ⟨wanted, requested, before, renamed⟩ := put
    cases before <;> first | rfl | cases hresume
  have hheld := h.holds i put hput hholds
  exact h.update _ hput (moves_afterResume (h.sound i put hput) hresume)
    (fun hself => by dsimp only; rw [if_neg (by rw [holds_iff hself]; exact Bool.false_ne_true)]; exact hheld)
    (fun j hji hj => absurd (Option.some.inj (hj.symm.trans hheld)) hji)

theorem exclusive_of_reachable
    (h : (configPuts env).ReachableBy (fun run action => overtakes env run action = false) run) : Exclusive env run := by
  refine h.invariant ?_ ?_
  · rintro ⟨file, opened, puts, holder, log⟩ ⟨hopened, hputs, -, hlog⟩
    obtain rfl : opened = file := hopened
    obtain rfl : puts = [] := hputs
    obtain rfl : log = [] := hlog
    exact ⟨⟨nofun, nofun, rfl⟩, nofun, nofun, nofun, nofun, nofun, nofun, nofun, nofun⟩
  · intro run action run' _ hovertakes h hstep
    cases action with
    | request wanted requested =>
      obtain rfl := Option.some.inj hstep
      exact h.request wanted requested
    | lock i =>
      unfold configPuts at hstep
      dsimp only at hstep
      split at hstep
      · rename_i wanted requested rename hput hfree
        obtain rfl := Option.some.inj hstep
        simpa using h.update _ hput (moves_lock (h.sound i _ hput)) (fun _ => rfl) fun j _ hj => by
          rw [hfree] at hj
          cases hj
      · cases hstep
    | read i fault => exact h.read hovertakes hstep
    | resume i fault => exact h.resume hstep
    | install i ok =>
      obtain ⟨put, hput, hmatch⟩ := Option.bind_eq_some_iff.mp hstep
      split at hmatch
      · rename_i text hunder
        split_ifs at hmatch
        · obtain rfl := Option.some.inj hmatch
          exact h.install hput hunder
        · obtain rfl := Option.some.inj hmatch
          simpa using h.update _ hput (moves_installFailed (by rw [hunder]; rfl) (h.sound i put hput)) (h.holds i put hput)
            fun _ _ hj => hj
      · cases hmatch
    | drop i =>
      obtain ⟨put, hput, hmatch⟩ := Option.bind_eq_some_iff.mp hstep
      have hmoves := moves_drop (h.sound i put hput)
      split at hmatch
      · cases hmatch
      · obtain rfl := Option.some.inj hmatch
        simpa using h.update _ hput hmoves nofun fun _ _ hj => hj
      · rename_i hended hwaiting
        obtain rfl := Option.some.inj hmatch
        have hholds : put.phase.holds = true := by
          cases hphase : put.phase with
          | ended answer => exact absurd hphase (hended answer)
          | waiting => exact absurd hphase hwaiting
          | _ => rfl
        exact h.update _ hput hmoves nofun fun j hji hj =>
          absurd (Option.some.inj (hj.symm.trans (h.holds i put hput hholds))) hji

/-- No update is lost. -/
structure KeepsUpdates (env : ConfigEnv) (run : ConfigPuts) : Prop where
  /-- 200 means that the configuration whose `ETag` was sent is replaced by the one that was asked for. -/
  replaces : ∀ i, .answered i ∈ run.log → ∃ put before after current replacement,
    run.puts[i]? = some put ∧ .replaced i before after ∈ run.log ∧
      configurationOf env.yaml before = .ok current ∧ put.wanted = etagOf env current ∧
      (∀ config, put.wanted = etagOf env config → config = current ∨ Collides env config current) ∧
      put.requested.tryInto = .ok replacement ∧ encodeText env.yaml replacement = .ok after
  /-- Nothing is replaced between a comparison and the replacement that rests on it. -/
  alone : ∀ (k i : ℕ) (before : Option Text) (after : Text), run.log[k]? = some (.replaced i before after) →
    ∃ m < k, run.log[m]? = some (.compared i before) ∧
      ∀ (n j : ℕ) (other : Option Text) (text : Text), m < n → n < k → run.log[n]? ≠ some (.replaced j other text)
  /-- Who replaces the configuration later has compared since. -/
  later : ∀ (k l i j : ℕ) (before before' : Option Text) (after after' : Text), k < l →
    run.log[k]? = some (.replaced i before after) → run.log[l]? = some (.replaced j before' after') →
    ∃ m, k < m ∧ m < l ∧ run.log[m]? = some (.compared j before')
  /-- A comparison is with everything that was replaced until then. -/
  current : ∀ (k i : ℕ) (text : Option Text), run.log[k]? = some (.compared i text) →
    text = fileAfter run.opened (run.log.take k)

/-- **No update is lost** in every run in which no request reads the configuration that it is to replace while the rename
of another one is under way. -/
theorem puts_keep_updates (hjson : Function.Injective env.json)
    (h : (configPuts env).ReachableBy (fun run action => overtakes env run action = false) run) : KeepsUpdates env run := by
  have hexclusive := exclusive_of_reachable h
  refine ⟨fun i hanswered => ?_, fun k i before after hk => ?_,
    fun k l i j before before' after after' hkl hk hl => ?_, hexclusive.threaded.compared⟩
  · obtain ⟨put, hput, hdone⟩ := hexclusive.answered i hanswered
    obtain ⟨before, after, hreplaced⟩ := hexclusive.done i put hput hdone
    obtain ⟨put', hput', replacement, hinto, hencode⟩ := hexclusive.replaced i before after hreplaced
    obtain rfl := Option.some.inj (hput.symm.trans hput')
    obtain ⟨k, hk⟩ := List.getElem?_of_mem hreplaced
    obtain ⟨m, -, hm⟩ := hexclusive.threaded.ordered k i before after hk
    obtain ⟨put', hput', hagrees⟩ := hexclusive.compared i before (List.mem_of_getElem? hm)
    obtain rfl := Option.some.inj (hput.symm.trans hput')
    unfold agrees at hagrees
    cases hcurrent : configurationOf env.yaml before with
    | error error =>
      rw [hcurrent] at hagrees
      cases hagrees
    | ok current =>
      rw [hcurrent] at hagrees
      have hwanted := of_decide_eq_true hagrees
      exact ⟨put, before, after, current, replacement, hput, hreplaced, hcurrent, hwanted,
        (fun config hconfig => eq_or_collides hjson (hconfig.symm.trans hwanted)), hinto, hencode⟩
  · obtain ⟨m, rfl, hm⟩ := hexclusive.threaded.ordered k i before after hk
    exact ⟨m, Nat.lt_succ_self m, hm, fun n _ _ _ hmn hnk => by omega⟩
  · obtain ⟨m, rfl, hm⟩ := hexclusive.threaded.ordered l j before' after' hl
    have hne : k ≠ m := by
      rintro rfl
      cases Option.some.inj (hk.symm.trans hm)
    exact ⟨m, by omega, by omega, hm⟩

end Runs

section Example

/-- One receiver without a model and a name of its own. -/
def denAt (host : String) : ConfigRequest := ⟨none, [("den", ⟨host, none, none⟩)], []⟩

/-- `serde_yaml` for files with such receivers. -/
def plainYaml : YamlText where
  keys := fun text => .ok (if "version: 2\nreceivers:\n".toList.isPrefixOf text then some ["version", "receivers"] else none)
  readFile := fun text =>
    match ["10.0.0.2", "10.0.0.3"].find? fun host => text =
        "version: 2\nreceivers:\n  den:\n    host: ".toList ++ host.toList ++ ['\n'] with
    | some host => .ok ⟨2, none, [("den", ⟨host, none, none⟩)], []⟩
    | none => .error "unexpected text"
  readLegacy := fun _ => .error "missing field `receiver`"
  write := fun file => .ok ("version: 2\nreceivers:\n".toList ++
    file.receivers.flatMap fun (name, record) => ("  " ++ name ++ ":\n    host: " ++ record.host ++ "\n").toList)

/-- A digest of 32 bytes for texts that differ after their beginning. -/
def middleBytes (text : Text) : TokenDigest :=
  ⟨((text.drop 14).map fun c : Char => UInt8.ofNat c.toNat).takeD 32 0, List.takeD_length _ _ _⟩

def plainEnv : ConfigEnv := ⟨plainYaml, Json.canonical.write, middleBytes⟩

theorem plainEnv_json_injective : Function.Injective plainEnv.json := by
  intro value value' h
  have hread := Json.canonical_read_render value
  rw [show Json.render value = Json.render value' from h, Json.canonical_read_render] at hread
  exact (Option.some.inj hread).symm

def noConfig : ConfigPuts := ⟨none, none, [], none, []⟩

/-- A request gets as far as its rename. -/
def untilInstall (i : ℕ) : List PutAction :=
  [.lock i, .read i none, .resume i none, .read i none, .resume i none, .resume i none, .resume i none]

/-- From there to its answer. -/
def installed (i : ℕ) : List PutAction :=
  [.install i true, .resume i none, .resume i none, .read i none, .resume i none]

/-- Two clients read that there is no configuration. The first request takes too long, and its rename comes after the
second request is answered. -/
def lateRename : List PutAction :=
  .request (etagOf plainEnv .default) (denAt "10.0.0.2") :: .request (etagOf plainEnv .default) (denAt "10.0.0.3") ::
    (untilInstall 0 ++ .drop 0 :: (untilInstall 1 ++ (installed 1).concat (.install 0 true)))

theorem lateRename_isSome : ((configPuts plainEnv).exec noConfig lateRename).isSome = true := by decide +kernel

def afterLateRename : ConfigPuts := ((configPuts plainEnv).exec noConfig lateRename).get lateRename_isSome

def denText (host : String) : Text := ("version: 2\nreceivers:\n  den:\n    host: " ++ host ++ "\n").toList

theorem log_afterLateRename : afterLateRename.log =
    [.compared 0 none, .compared 1 none, .replaced 1 none (denText "10.0.0.3"), .answered 1,
      .replaced 0 (some (denText "10.0.0.3")) (denText "10.0.0.2")] := by
  decide +kernel

/-- An update can be lost. -/
theorem not_puts_keep_updates :
    ∃ run, (configPuts plainEnv).Reachable run ∧ .answered 1 ∈ run.log ∧ ¬KeepsUpdates plainEnv run := by
  refine ⟨afterLateRename, ?_, by rw [log_afterLateRename]; simp, fun hkeeps => ?_⟩
  · exact Machine.reachable_of_exec noConfig lateRename ⟨rfl, rfl, rfl, rfl⟩ (Option.some_get lateRename_isSome).symm
  · have hlater := hkeeps.later 2 4
    rw [log_afterLateRename] at hlater
    obtain ⟨m, hm, hm', hcompared⟩ := hlater 1 0 _ _ _ _ (by omega) rfl rfl
    obtain rfl : m = 3 := by omega
    cases hcompared

/-- The second client reads what the first one saved, though the first one was dropped. -/
def promptRename : List PutAction :=
  .request (etagOf plainEnv .default) (denAt "10.0.0.2") ::
    .request (etagOf plainEnv ⟨none, [("den", ⟨"10.0.0.2", none, none⟩)], []⟩) (denAt "10.0.0.3") ::
    (untilInstall 0 ++ .drop 0 :: .install 0 true :: (untilInstall 1 ++ installed 1))

theorem promptRename_isSome :
    ((configPuts plainEnv).execBy (fun run action => overtakes plainEnv run action = false) noConfig
      promptRename).isSome = true := by decide +kernel

def afterPromptRename : ConfigPuts :=
  ((configPuts plainEnv).execBy (fun run action => overtakes plainEnv run action = false) noConfig promptRename).get
    promptRename_isSome

example : .answered 1 ∈ afterPromptRename.log := by decide +kernel

theorem puts_keep_updates_promptRename : KeepsUpdates plainEnv afterPromptRename :=
  puts_keep_updates plainEnv_json_injective
    (Machine.reachableBy_of_execBy noConfig promptRename ⟨rfl, rfl, rfl, rfl⟩ (Option.some_get promptRename_isSome).symm)

end Example

end DenonAvr.Server
