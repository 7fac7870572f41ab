import DenonAvr.Infrastructure.ConfigSchema
import DenonAvr.Library.Machine
import DenonAvr.Library.Utf8

/-!
# Saving the configuration

`YamlConfigRepository::save`, one file operation at a time. The synchronous and the asynchronous version go through the
same operations; the future of the second can be dropped, and the operation under way is then carried out without it.

Whatever fails, the file holds its old text or all of the new one, and an old text that this release cannot read is in
a backup before it is replaced (`config_safe`).
-/

namespace DenonAvr.Infrastructure

open Domain Library

abbrev Bytes := List UInt8

/-- What is at the path and beside it. -/
structure ConfigDisk where
  config : Option Bytes
  /-- `<file>.v3.bak`, then `<file>.v3.bak.1`, and so on. -/
  backups : ℕ → Option Bytes
  temporary : Option Bytes

def ConfigDisk.setBackup (disk : ConfigDisk) (slot : ℕ) (bytes : Bytes) : ConfigDisk :=
  { disk with backups := Function.update disk.backups slot (some bytes) }

def maxBackups : ℕ := 1000

/-- The file operation that is next, or under way. -/
inductive SaveStage
  | reading
  | directory (plan : SavePlan)
  | openingBackup (text old : Text) (attempt : ℕ)
  | fillingBackup (text old : Text) (slot : ℕ)
  | syncingBackup (text old : Text) (slot : ℕ)
  | writing (text : Text)
  | installing (text : Text)
  /-- The temporary file is of no use. -/
  | removing (error : ConfigurationError)
  | returned (result : Except ConfigurationError Unit)
  /-- Nobody waits for the last operation, which has ended. -/
  | abandoned

structure Save where
  /-- The disk when the save began. -/
  before : ConfigDisk
  disk : ConfigDisk
  stage : SaveStage
  dropped : Bool

inductive SaveAction
  /-- The operation succeeds, or fails with a message. A write that is not complete has got so far. -/
  | perform (fault : Option String) (progress : ℕ)
  | drop

/-! ### Steps -/

/-- `read_to_string`, which fails on what is not UTF-8. -/
def readExisting (fault : Option String) (config : Option Bytes) : Except ConfigurationError (Option Text) :=
  match fault, config with
  | some message, _ => .error ⟨"reading existing configuration", message⟩
  | none, none => .ok none
  | none, some bytes =>
    match Utf8.decode bytes with
    | some text => .ok (some text)
    | none => .error ⟨"reading existing configuration", "stream did not contain valid UTF-8"⟩

def SavePlan.next (plan : SavePlan) : SaveStage :=
  match plan.backup with
  | some old => .openingBackup plan.text old 0
  | none => .writing plan.text

def backupError (message : String) : SaveStage := .returned (.error ⟨"backing up the earlier configuration", message⟩)

/-- After the file was read. The directory is created if the path has one. -/
def planned (yaml : YamlText) (hasParent : Bool) (config : ConfiguredReceivers)
    (read : Except ConfigurationError (Option Text)) : SaveStage :=
  match read.bind fun existing => planSave yaml existing config with
  | .error error => .returned (.error error)
  | .ok plan => if hasParent then .directory plan else plan.next

/-- The next stage, and the disk after the operation. -/
def carryOut (yaml : YamlText) (hasParent : Bool) (config : ConfiguredReceivers) (disk : ConfigDisk) (fault : Option String)
    (progress : ℕ) : SaveStage → Option (SaveStage × ConfigDisk)
  | .reading => some (planned yaml hasParent config (readExisting fault disk.config), disk)
  | .directory plan =>
    match fault with
    | some message => some (.returned (.error ⟨"creating configuration directory", message⟩), disk)
    | none => some (plan.next, disk)
  | .openingBackup text old attempt =>
    match fault, disk.backups attempt with
    | some message, _ => some (backupError message, disk)
    | none, none => some (.fillingBackup text old attempt, disk.setBackup attempt [])
    | none, some _ =>
      -- `create_new` opens no file that exists
      some (if attempt + 1 < maxBackups then .openingBackup text old (attempt + 1)
        else backupError "too many configuration backups exist", disk)
  | .fillingBackup text old slot =>
    -- of an asynchronous write that was accepted, the rest follows until the file is synced
    match fault with
    | some message => some (backupError message, disk.setBackup slot ((Utf8.encode old).take progress))
    | none => some (.syncingBackup text old slot, disk.setBackup slot ((Utf8.encode old).take progress))
  | .syncingBackup text old slot =>
    match fault with
    | some message => some (backupError message, disk.setBackup slot ((Utf8.encode old).take progress))
    | none => some (.writing text, disk.setBackup slot (Utf8.encode old))
  | .writing text =>
    match fault with
    | some message =>
      some (.removing ⟨"writing temporary configuration", message⟩,
        { disk with temporary := some ((Utf8.encode text).take progress) })
    | none => some (.installing text, { disk with temporary := some (Utf8.encode text) })
  | .installing _ =>
    match fault, disk.temporary with
    | some message, _ => some (.removing ⟨"installing configuration", message⟩, disk)
    | none, none => some (.removing ⟨"installing configuration", "entity not found"⟩, disk)
    | none, some bytes => some (.returned (.ok ()), { disk with config := some bytes, temporary := none })
  | .removing error =>
    some (.returned (.error error), if fault.isSome then disk else { disk with temporary := none })
  | .returned _ | .abandoned => none

def Save.step (yaml : YamlText) (hasParent : Bool) (config : ConfiguredReceivers) (save : Save) :
    SaveAction → Option Save
  | .perform fault progress =>
    (carryOut yaml hasParent config save.disk fault progress save.stage).map fun (stage, disk) =>
      { save with disk, stage := if save.dropped then .abandoned else stage }
  | .drop =>
    match save.stage with
    | .returned _ | .abandoned => none
    | _ => if save.dropped then none else some { save with dropped := true }

/-- A save that begins on any disk. -/
def saving (yaml : YamlText) (hasParent : Bool) (config : ConfiguredReceivers) : Machine Save SaveAction where
  init save := save.disk = save.before ∧ save.stage = .reading ∧ save.dropped = false
  step := Save.step yaml hasParent config

/-! ### What one operation does -/

section Steps
variable {yaml : YamlText} {hasParent : Bool} {config : ConfiguredReceivers} {text old : Text} {bytes : Bytes}
  {plan : SavePlan} {disk disk' : ConfigDisk} {stage stage' : SaveStage} {fault : Option String} {progress : ℕ}

/-- The plan for this file, which is absent or UTF-8. -/
def Planned (yaml : YamlText) (config : ConfiguredReceivers) (before : ConfigDisk) (plan : SavePlan) : Prop :=
  ∃ existing, before.config = existing.map Utf8.encode ∧ planSave yaml existing config = .ok plan

/-- What the plan has to keep is in a backup. -/
def BackedUp (disk : ConfigDisk) (backup : Option Text) : Prop :=
  ∀ old, backup = some old → ∃ slot, disk.backups slot = some (Utf8.encode old)

theorem planned_of_readExisting (h : (readExisting fault disk.config).bind
    (fun existing => planSave yaml existing config) = .ok plan) : Planned yaml config disk plan := by
  unfold readExisting at h
  cases fault with
  | some message => cases h
  | none =>
    cases hconfig : disk.config with
    | none =>
      rw [hconfig] at h
      exact ⟨none, hconfig, h⟩
    | some bytes =>
      rw [hconfig] at h
      dsimp only at h
      cases hdecode : Utf8.decode bytes with
      | none =>
        rw [hdecode] at h
        cases h
      | some text =>
        rw [hdecode] at h
        refine ⟨some text, ?_, h⟩
        rw [hconfig, Option.map_some, Utf8.decode_eq_some.mp hdecode]

/-- What is known at a stage of a save that began on the disk `before`. -/
def StageInv (yaml : YamlText) (config : ConfiguredReceivers) (before disk : ConfigDisk) : SaveStage → Prop
  | .directory plan => Planned yaml config before plan
  | .openingBackup text old _ => Planned yaml config before ⟨text, some old⟩
  | .fillingBackup text old slot | .syncingBackup text old slot =>
    Planned yaml config before ⟨text, some old⟩ ∧ before.backups slot = none
  | .writing text => ∃ backup, Planned yaml config before ⟨text, backup⟩ ∧ BackedUp disk backup
  | .installing text =>
    (∃ backup, Planned yaml config before ⟨text, backup⟩ ∧ BackedUp disk backup) ∧
      disk.temporary = some (Utf8.encode text)
  | .returned (.ok ()) => False
  | _ => True

theorem stageInv_next (h : Planned yaml config disk plan) {disk' : ConfigDisk} :
    StageInv yaml config disk disk' plan.next := by
  obtain ⟨text, backup⟩ := plan
  cases backup with
  | some old => exact h
  | none => exact ⟨none, h, fun old hold => nomatch hold⟩

/-- The backups there were are as they were. -/
def KeepsBackups (before disk : ConfigDisk) : Prop := ∀ slot bytes, before.backups slot = some bytes → disk.backups slot = some bytes

theorem KeepsBackups.setBackup {before : ConfigDisk} {slot : ℕ} (h : KeepsBackups before disk) (hslot : before.backups slot = none)
    (bytes : Bytes) : KeepsBackups before (disk.setBackup slot bytes) := by
  intro slot' bytes' hbefore
  have hne : slot' ≠ slot := by
    rintro rfl
    cases hbefore.symm.trans hslot
  exact (Function.update_of_ne hne _ _).trans (h slot' bytes' hbefore)

theorem KeepsBackups.of_none {before : ConfigDisk} {slot : ℕ} (h : KeepsBackups before disk) (hslot : disk.backups slot = none) :
    before.backups slot = none := by
  cases hbefore : before.backups slot with
  | none => rfl
  | some bytes => cases (h slot bytes hbefore).symm.trans hslot

/-- The planned text is in the file, and what it had to keep is in a backup. -/
def Installed (yaml : YamlText) (config : ConfiguredReceivers) (before disk : ConfigDisk) : Prop :=
  ∃ plan, Planned yaml config before plan ∧ BackedUp disk plan.backup ∧ disk.config = some (Utf8.encode plan.text)

/-- What a save has kept of the disk it began on. -/
structure SaveInv (yaml : YamlText) (config : ConfiguredReceivers) (before disk : ConfigDisk) (stage : SaveStage) : Prop where
  keeps : KeepsBackups before disk
  stage : StageInv yaml config before disk stage
  config : disk.config = before.config

theorem planned_congr {before : ConfigDisk} (hconfig : disk.config = before.config) (h : Planned yaml config disk plan) :
    Planned yaml config before plan := by
  obtain ⟨existing, hexisting, hplan⟩ := h
  exact ⟨existing, hconfig ▸ hexisting, hplan⟩

/-- **One operation** of a save leaves the file alone, or puts the planned text there at the end. -/
theorem SaveInv.carryOut {before : ConfigDisk} (h : SaveInv yaml config before disk stage)
    (hstep : carryOut yaml hasParent config disk fault progress stage = some (stage', disk')) :
    SaveInv yaml config before disk' stage' ∨
      KeepsBackups before disk' ∧ Installed yaml config before disk' ∧ stage' = .returned (.ok ()) := by
  obtain ⟨hkeeps, hstage, hconfig⟩ := h
  cases stage with
  | reading =>
    cases hstep
    refine .inl ⟨hkeeps, ?_, hconfig⟩
    unfold planned
    split
    · trivial
    · rename_i plan hplan
      have hplanned := planned_congr hconfig (planned_of_readExisting hplan)
      split_ifs
      · exact hplanned
      · exact stageInv_next hplanned
  | directory plan =>
    cases fault with
    | some message =>
      cases hstep
      exact .inl ⟨hkeeps, trivial, hconfig⟩
    | none =>
      cases hstep
      exact .inl ⟨hkeeps, stageInv_next hstage, hconfig⟩
  | openingBackup text old attempt =>
    simp only [Infrastructure.carryOut] at hstep
    cases fault with
    | some message =>
      cases hstep
      exact .inl ⟨hkeeps, trivial, hconfig⟩
    | none =>
      cases hslot : disk.backups attempt with
      | none =>
        rw [hslot] at hstep
        cases hstep
        have hfree := hkeeps.of_none hslot
        exact .inl ⟨hkeeps.setBackup hfree _, ⟨hstage, hfree⟩, hconfig⟩
      | some bytes =>
        rw [hslot] at hstep
        cases hstep
        refine .inl ⟨hkeeps, ?_, hconfig⟩
        split_ifs
        · exact hstage
        · trivial
  | fillingBackup text old slot =>
    obtain ⟨hplanned, hfree⟩ := hstage
    cases fault with
    | some message =>
      cases hstep
      exact .inl ⟨hkeeps.setBackup hfree _, trivial, hconfig⟩
    | none =>
      cases hstep
      exact .inl ⟨hkeeps.setBackup hfree _, ⟨hplanned, hfree⟩, hconfig⟩
  | syncingBackup text old slot =>
    obtain ⟨hplanned, hfree⟩ := hstage
    cases fault with
    | some message =>
      cases hstep
      exact .inl ⟨hkeeps.setBackup hfree _, trivial, hconfig⟩
    | none =>
      cases hstep
      refine .inl ⟨hkeeps.setBackup hfree _, ⟨some old, hplanned, fun old' hold => ?_⟩, hconfig⟩
      obtain rfl := Option.some.inj hold
      exact ⟨slot, Function.update_self _ _ _⟩
  | writing text =>
    cases fault with
    | some message =>
      cases hstep
      exact .inl ⟨hkeeps, trivial, hconfig⟩
    | none =>
      cases hstep
      exact .inl ⟨hkeeps, ⟨hstage, rfl⟩, hconfig⟩
  | installing text =>
    obtain ⟨⟨backup, hplanned, hbacked⟩, htemporary⟩ := hstage
    simp only [Infrastructure.carryOut, htemporary] at hstep
    cases fault with
    | some message =>
      cases hstep
      exact .inl ⟨hkeeps, trivial, hconfig⟩
    | none =>
      cases hstep
      exact .inr ⟨hkeeps, ⟨_, hplanned, hbacked, rfl⟩, rfl⟩
  | removing error =>
    cases hstep
    refine .inl ⟨?_, trivial, ?_⟩
    · split_ifs <;> exact hkeeps
    · split_ifs <;> exact hconfig
  | returned result => cases hstep
  | abandoned => cases hstep

end Steps

/-! ### Whole saves -/

/-- What this release must not lose: text that is not blank and that it does not read, or no text at all. -/
def Precious (yaml : YamlText) (bytes : Bytes) : Prop :=
  ∀ text, Utf8.decode bytes = some text → text.all isWhitespace = false ∧ isReadableCurrentSchema yaml text = false

/-- What a save keeps, wherever it stands. -/
structure SaveSafe (yaml : YamlText) (config : ConfiguredReceivers) (save : Save) : Prop where
  /-- The file is the old one, or all of the new one. -/
  file : save.disk.config = save.before.config ∨
    ∃ text, encodeText yaml config = .ok text ∧ save.disk.config = some (Utf8.encode text)
  failed : ∀ error, save.stage = .returned (.error error) → save.disk.config = save.before.config
  saved : save.stage = .returned (.ok ()) →
    ∃ text, encodeText yaml config = .ok text ∧ save.disk.config = some (Utf8.encode text)
  decodes : ∀ text, encodeText yaml config = .ok text → save.disk.config = some (Utf8.encode text) →
    decodeText yaml text = .ok config.stored
  kept : ∀ text old, encodeText yaml config = .ok text → save.disk.config = some (Utf8.encode text) →
    save.before.config = some old → Precious yaml old → ∃ slot, save.disk.backups slot = some old
  backups : KeepsBackups save.before save.disk
  /-- A later save of anything adds no backup of what this one has written. -/
  later : ∀ text, encodeText yaml config = .ok text → ∀ hasParent config' next,
    (saving yaml hasParent config').Reachable next → next.before.config = some (Utf8.encode text) →
      next.disk.backups = next.before.backups

section Saves
variable {yaml : YamlText} {hasParent : Bool} {config : ConfiguredReceivers} {save save' : Save} {text : Text}
  {existing : Option Text} {plan : SavePlan} {a : SaveAction}

theorem planSave_eq_ok_iff :
    planSave yaml existing config = .ok plan ↔ encodeText yaml config = .ok plan.text ∧
      plan.backup = existing.filter fun old => !old.all isWhitespace && !isReadableCurrentSchema yaml old := by
  obtain ⟨text, backup⟩ := plan
  unfold planSave
  cases encodeText yaml config with
  | error error => simp [bind, Except.bind]
  | ok text' => simp [bind, Except.bind, pure, Except.pure, eq_comm]

theorem readable_encodeText (hyaml : yaml.Faithful) (h : encodeText yaml config = .ok text) :
    isReadableCurrentSchema yaml text = true := by
  unfold isReadableCurrentSchema
  rw [schemaOf_write hyaml (encodeText_eq_ok_iff.mp h).2, decodeText_encodeText hyaml h]
  rfl

/-- The state of a save: under way and the file untouched, or at its end and the new text in place. -/
inductive SaveState (yaml : YamlText) (config : ConfiguredReceivers) (save : Save) : Prop
  | underWay (h : SaveInv yaml config save.before save.disk save.stage)
  | ended (keeps : KeepsBackups save.before save.disk) (installed : Installed yaml config save.before save.disk)
      (stage : save.stage = .returned (.ok ()) ∨ save.stage = .abandoned)

/-- A step carries out the next operation, or drops the future. -/
theorem step_cases (hstep : save.step yaml hasParent config a = some save') :
    (∃ fault progress stage disk, carryOut yaml hasParent config save.disk fault progress save.stage = some (stage, disk) ∧
      save' = { save with disk, stage := if save.dropped then .abandoned else stage }) ∨
    save' = { save with dropped := true } := by
  cases a with
  | perform fault progress =>
    obtain ⟨⟨stage, disk⟩, hcarry, rfl⟩ := Option.map_eq_some_iff.mp hstep
    exact .inl ⟨fault, progress, stage, disk, hcarry, rfl⟩
  | drop =>
    simp only [Save.step] at hstep
    split at hstep
    · cases hstep
    · cases hstep
    · split_ifs at hstep
      exact .inr (Option.some.inj hstep).symm

theorem SaveState.step (h : SaveState yaml config save) (hstep : save.step yaml hasParent config a = some save') :
    SaveState yaml config save' := by
  rcases step_cases hstep with ⟨fault, progress, stage, disk, hcarry, rfl⟩ | rfl
  · cases h with
    | underWay h =>
      rcases h.carryOut hcarry with hinv | ⟨hkeeps, hinstalled, rfl⟩
      · refine .underWay ⟨hinv.keeps, ?_, hinv.config⟩
        dsimp only
        split_ifs
        · trivial
        · exact hinv.stage
      · refine .ended hkeeps hinstalled ?_
        dsimp only
        split_ifs
        · exact .inr rfl
        · exact .inl rfl
    | ended _ _ hstage =>
      -- no operation is left
      rcases hstage with hstage | hstage <;>
      · rw [hstage] at hcarry
        cases hcarry
  · cases h with
    | underWay h => exact .underWay h
    | ended hkeeps hinstalled hstage => exact .ended hkeeps hinstalled hstage

theorem state_of_reachable (h : (saving yaml hasParent config).Reachable save) : SaveState yaml config save := by
  refine h.invariant ?_ fun _ _ _ _ hstate hstep => hstate.step hstep
  rintro save ⟨hdisk, hstage, -⟩
  refine .underWay ⟨?_, ?_, congrArg ConfigDisk.config hdisk⟩
  · rw [hdisk]
    exact fun _ _ h => h
  · rw [hstage]
    trivial

/-- Only an operation on a backup changes one, and it has something to keep. -/
theorem SaveInv.backups_carryOut {before disk disk' : ConfigDisk} {stage stage' : SaveStage} {fault : Option String}
    {progress : ℕ} (h : SaveInv yaml config before disk stage)
    (hplan : ∀ plan, Planned yaml config before plan → plan.backup = none)
    (hstep : Infrastructure.carryOut yaml hasParent config disk fault progress stage = some (stage', disk')) :
    disk'.backups = disk.backups := by
  have hnone : ∀ text old, ¬ Planned yaml config before ⟨text, some old⟩ := fun text old h => nomatch hplan _ h
  cases stage with
  | openingBackup text old attempt => exact absurd h.stage (hnone text old)
  | fillingBackup text old slot => exact absurd h.stage.1 (hnone text old)
  | syncingBackup text old slot => exact absurd h.stage.1 (hnone text old)
  | reading =>
    cases hstep
    rfl
  | directory plan =>
    cases fault <;>
    · cases hstep
      rfl
  | writing text =>
    cases fault <;>
    · cases hstep
      rfl
  | installing text =>
    simp only [Infrastructure.carryOut, h.stage.2] at hstep
    cases fault <;>
    · cases hstep
      rfl
  | removing error =>
    cases hstep
    split_ifs <;> rfl
  | returned result => cases hstep
  | abandoned => cases hstep

/-- A save with nothing to keep writes no backup. -/
theorem backups_of_reachable (h : (saving yaml hasParent config).Reachable save)
    (hplan : ∀ plan, Planned yaml config save.before plan → plan.backup = none) :
    save.disk.backups = save.before.backups := by
  refine h.invariant (I := fun save => (∀ plan, Planned yaml config save.before plan → plan.backup = none) →
    save.disk.backups = save.before.backups) ?_ ?_ hplan
  · rintro save ⟨hdisk, -, -⟩ -
    rw [hdisk]
  · intro save a save' hreach hI hstep hplan
    rcases step_cases hstep with ⟨fault, progress, stage, disk, hcarry, rfl⟩ | rfl
    · cases state_of_reachable hreach with
      | underWay hinv => exact (hinv.backups_carryOut hplan hcarry).trans (hI hplan)
      | ended _ _ hstage =>
        rcases hstage with hstage | hstage <;>
        · rw [hstage] at hcarry
          cases hcarry
    · exact hI hplan

theorem SaveState.safe (hyaml : yaml.Faithful) (h : SaveState yaml config save) : SaveSafe yaml config save := by
  have hkeeps : KeepsBackups save.before save.disk := by
    cases h with
    | underWay h => exact h.keeps
    | ended hkeeps _ _ => exact hkeeps
  have hinstalled : ∀ {before disk}, Installed yaml config before disk →
      ∃ text, encodeText yaml config = .ok text ∧ disk.config = some (Utf8.encode text) := by
    rintro before disk ⟨plan, ⟨existing, -, hplan⟩, -, hdisk⟩
    exact ⟨plan.text, (planSave_eq_ok_iff.mp hplan).1, hdisk⟩
  refine ⟨?_, ?_, ?_, fun text hencode _ => decodeText_encodeText hyaml hencode, ?_, hkeeps, ?_⟩
  · cases h with
    | underWay h => exact .inl h.config
    | ended _ h _ => exact .inr (hinstalled h)
  · intro error hstage
    cases h with
    | underWay h => exact h.config
    | ended _ _ hended =>
      rw [hstage] at hended
      simp at hended
  · intro hstage
    cases h with
    | underWay h =>
      have hfalse := h.stage
      rw [hstage] at hfalse
      exact hfalse.elim
    | ended _ h _ => exact hinstalled h
  · intro text old hencode hdisk hbefore hprecious
    cases h with
    | underWay h =>
      -- the old text is the new one, which is readable
      rw [h.config, hbefore] at hdisk
      have hreadable := (hprecious text (Utf8.decode_eq_some.mpr (Option.some.inj hdisk).symm)).2
      rw [readable_encodeText hyaml hencode] at hreadable
      cases hreadable
    | ended _ h _ =>
      obtain ⟨plan, ⟨existing, hexisting, hplan⟩, hbacked, -⟩ := h
      obtain ⟨text', rfl, hold⟩ := Option.map_eq_some_iff.mp (hexisting.symm.trans hbefore)
      obtain ⟨hblank, hreadable⟩ := hprecious text' (Utf8.decode_eq_some.mpr hold)
      rw [← hold]
      refine hbacked text' ?_
      rw [(planSave_eq_ok_iff.mp hplan).2]
      simp [hblank, hreadable]
  · intro text hencode hasParent config' next hnext hbefore
    refine backups_of_reachable hnext ?_
    rintro plan ⟨existing, hexisting, hplan⟩
    rw [hbefore] at hexisting
    obtain ⟨text', rfl, htext⟩ := Option.map_eq_some_iff.mp hexisting.symm
    obtain rfl := Utf8.encode_injective htext
    rw [(planSave_eq_ok_iff.mp hplan).2]
    simp [readable_encodeText hyaml hencode]

end Saves

/-- **Saving a configuration** over any file, whichever operation fails and whenever the future is dropped. -/
theorem config_safe (yaml : YamlText) (hyaml : yaml.Faithful) (hasParent : Bool) (config : ConfiguredReceivers)
    (save : Save) (h : (saving yaml hasParent config).Reachable save) : SaveSafe yaml config save :=
  (state_of_reachable h).safe hyaml

section Example

/-- The file of an earlier release, with a first backup of another one. -/
def oldDisk : ConfigDisk where
  config := some (Utf8.encode categoryText)
  backups := fun slot => if slot = 0 then some [10] else none
  temporary := none

/-- The first slot is taken. The future is dropped while the temporary file is installed. -/
def upToInstall : List SaveAction :=
  [.perform none 0, .perform none 0, .perform none 0, .perform none 0, .perform none 3, .perform none 0,
    .perform none 0, .drop, .perform none 0]

def upgrading : Machine Save SaveAction := saving (migrationYaml categoryText migratedText) true migratedConfig

theorem upgrading_isSome : (upgrading.exec ⟨oldDisk, oldDisk, .reading, false⟩ upToInstall).isSome = true := by
  decide +kernel

def upgraded : Save := (upgrading.exec ⟨oldDisk, oldDisk, .reading, false⟩ upToInstall).get upgrading_isSome

theorem upgraded_reachable : upgrading.Reachable upgraded :=
  Machine.reachable_of_exec _ _ ⟨rfl, rfl, rfl⟩ (Option.some_get upgrading_isSome).symm

theorem config_safe_upgraded :
    upgraded.disk.config = some (Utf8.encode migratedText) ∧
      ∃ slot, upgraded.disk.backups slot = some (Utf8.encode categoryText) := by
  have hdisk : upgraded.disk.config = some (Utf8.encode migratedText) := by decide +kernel
  have hencode : encodeText (migrationYaml categoryText migratedText) migratedConfig = .ok migratedText := by
    decide +kernel
  have hsafe := config_safe _ (migrationYaml_faithful categoryText migratedText) true migratedConfig upgraded
    upgraded_reachable
  have hold : categoryText.all isWhitespace = false ∧
      isReadableCurrentSchema (migrationYaml categoryText migratedText) categoryText = false := by
    decide +kernel
  have hprecious : Precious (migrationYaml categoryText migratedText) (Utf8.encode categoryText) := by
    intro text htext
    rw [Utf8.encode_injective (Utf8.decode_eq_some.mp htext)]
    exact hold
  exact ⟨hdisk, hsafe.kept migratedText _ hencode hdisk (by decide +kernel) hprecious⟩

end Example

end DenonAvr.Infrastructure
