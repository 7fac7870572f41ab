import DenonAvr.Infrastructure.ConfigSchema
import DenonAvr.Infrastructure.Discovery
import DenonAvr.Library.Edits
import DenonAvr.Library.Machine
import DenonAvr.Library.Tally

/-!
# Saving the window's configuration

The window holds a copy of the stored configuration. A favorite is toggled in the copy first and saved behind that, one save
after another; a receiver is saved by a task of its own. Either save reads what is stored, changes its part and stores the
whole, and its end replaces the window's copy. Nothing keeps two of them apart: one save can undo another, and an end can
bring back a copy that is no longer true (`not_converges`). In runs in which no save stores over a change that it has not
read, no end brings back an older copy, and no save of favorites fails with something to take back, all saved edits are
stored, in the order of their saves, and the copy is what is stored once no save is left (`configuration_converges`).
-/

namespace DenonAvr.Gui

open Domain Library Infrastructure

/-! ### Edits of the configuration -/

abbrev Favorites := List (String × List SoundModeFavorite)

def favoritesFor (favorites : Favorites) (receiver : String) : List SoundModeFavorite :=
  (favorites.lookup receiver).getD []

/-- `BTreeSet::insert`. -/
def insertFavorite (favorite : SoundModeFavorite) (favorites : List SoundModeFavorite) : List SoundModeFavorite :=
  if favorite ∈ favorites then favorites else favorites.orderedInsert (fun a b => a.mode ≤ b.mode) favorite

/-- A receiver without favorites has no entry. -/
def setFavorites (favorites : Favorites) (receiver : String) (modes : List SoundModeFavorite) : Favorites :=
  if modes.isEmpty then removeEntry receiver favorites else insertEntry receiver modes favorites

/-- A mode becomes a favorite of the receiver, or is one no longer. -/
structure FavoriteEdit where
  receiver : String
  mode : String
  favorite : Bool
deriving DecidableEq

def FavoriteEdit.apply (favorites : Favorites) (edit : FavoriteEdit) : Favorites :=
  setFavorites favorites edit.receiver
    (if edit.favorite then insertFavorite ⟨edit.mode⟩ (favoritesFor favorites edit.receiver)
    else (favoritesFor favorites edit.receiver).filter (· ≠ ⟨edit.mode⟩))

/-- `toggle_current_sound_mode_favorite`. -/
def toggleCurrentSoundModeFavorite (config : ConfiguredReceivers) (mode : String) :
    Except String (ConfiguredReceivers × Bool) :=
  match config.current with
  | none => .error "select and save a receiver before setting favorites"
  | some name =>
    if !config.isConfigured name then .error "current receiver is not configured"
    else
      let favorites := favoritesFor config.soundModeFavorites name
      match SoundModeFavorite.new mode with
      | .error message => .error message
      | .ok favorite =>
        if favorite ∈ favorites then
          .ok ({ config with
            soundModeFavorites := setFavorites config.soundModeFavorites name (favorites.filter (· ≠ favorite)) }, false)
        else
          .ok ({ config with
            soundModeFavorites := setFavorites config.soundModeFavorites name (insertFavorite favorite favorites) }, true)

inductive Edit
  | favorite (edit : FavoriteEdit)
  | receiver (name : String) (identity : ReceiverIdentity)
  | current (name : String)
deriving DecidableEq

/-- What is edited. -/
inductive Item
  | favorite (receiver mode : String)
  | receiver (name : String)
  | current
deriving DecidableEq

namespace Edit

def apply (config : ConfiguredReceivers) : Edit → ConfiguredReceivers
  | .favorite edit => { config with soundModeFavorites := edit.apply config.soundModeFavorites }
  | .receiver name identity => { config with receivers := insertEntry name identity config.receivers }
  | .current name => { config with current := some name }

def item : Edit → Item
  | .favorite edit => .favorite edit.receiver edit.mode
  | .receiver name _ => .receiver name
  | .current _ => .current

/-- The configuration is as the edit left it. -/
def Shows (config : ConfiguredReceivers) : Edit → Prop
  | .favorite edit => edit.favorite = true ↔ ⟨edit.mode⟩ ∈ favoritesFor config.soundModeFavorites edit.receiver
  | .receiver name identity => config.receivers.lookup name = some identity
  | .current name => config.current = some name

end Edit

section Edits
variable {favorites : Favorites} {receiver other : String} {modes : List SoundModeFavorite}

theorem favoritesFor_setFavorites : favoritesFor (setFavorites favorites receiver modes) receiver = modes := by
  unfold favoritesFor setFavorites
  split_ifs with hempty
  · rw [lookup_removeEntry, List.isEmpty_iff.mp hempty]
    rfl
  · rw [lookup_insertEntry]
    rfl

theorem favoritesFor_setFavorites_of_ne (h : other ≠ receiver) :
    favoritesFor (setFavorites favorites receiver modes) other = favoritesFor favorites other := by
  unfold favoritesFor setFavorites
  split_ifs
  · rw [lookup_removeEntry_of_ne h]
  · rw [lookup_insertEntry_of_ne h]

theorem mem_insertFavorite {favorite mode : SoundModeFavorite} :
    mode ∈ insertFavorite favorite modes ↔ mode = favorite ∨ mode ∈ modes := by
  unfold insertFavorite
  split_ifs with hmem
  · constructor
    · exact .inr
    · rintro (rfl | h)
      · exact hmem
      · exact h
  · exact List.mem_orderedInsert _

theorem mem_favoritesFor_apply (edit : FavoriteEdit) (mode : String) :
    ⟨mode⟩ ∈ favoritesFor (edit.apply favorites) edit.receiver ↔
      if mode = edit.mode then edit.favorite = true else ⟨mode⟩ ∈ favoritesFor favorites edit.receiver := by
  unfold FavoriteEdit.apply
  rw [favoritesFor_setFavorites]
  cases edit.favorite with
  | true =>
    rw [if_pos rfl, mem_insertFavorite]
    by_cases hmode : mode = edit.mode
    · simp [hmode]
    · simp [hmode]
  | false =>
    rw [if_neg Bool.false_ne_true, List.mem_filter]
    by_cases hmode : mode = edit.mode
    · simp [hmode]
    · simp [hmode]

theorem shows_apply (config : ConfiguredReceivers) (edit : Edit) : edit.Shows (edit.apply config) := by
  cases edit with
  | favorite edit =>
    show edit.favorite = true ↔ ⟨edit.mode⟩ ∈ favoritesFor (edit.apply config.soundModeFavorites) edit.receiver
    rw [mem_favoritesFor_apply, if_pos rfl]
  | receiver name identity => exact lookup_insertEntry
  | current name => rfl

theorem shows_apply_of_ne {config : ConfiguredReceivers} {edit later : Edit} (h : later.item ≠ edit.item)
    (hshows : edit.Shows config) : edit.Shows (later.apply config) := by
  cases edit with
  | favorite edit =>
    cases later with
    | favorite later =>
      show edit.favorite = true ↔ ⟨edit.mode⟩ ∈ favoritesFor (later.apply config.soundModeFavorites) edit.receiver
      by_cases hreceiver : edit.receiver = later.receiver
      · have hmode : edit.mode ≠ later.mode := by
          intro hmode
          exact h (congrArg₂ Item.favorite hreceiver.symm hmode.symm)
        rw [hreceiver, mem_favoritesFor_apply, if_neg hmode, ← hreceiver]
        exact hshows
      · unfold FavoriteEdit.apply
        rw [favoritesFor_setFavorites_of_ne hreceiver]
        exact hshows
    | receiver name identity => exact hshows
    | current name => exact hshows
  | receiver name identity =>
    cases later with
    | favorite later => exact hshows
    | receiver other identity' =>
      have hname : name ≠ other := fun heq => h (congrArg Item.receiver heq.symm)
      exact (lookup_insertEntry_of_ne hname).trans hshows
    | current other => exact hshows
  | current name =>
    cases later with
    | favorite later => exact hshows
    | receiver other identity => exact hshows
    | current other => exact absurd rfl h

/-- The edits of a configuration. -/
def configEdits : Library.Edits ConfiguredReceivers Edit Item where
  apply := Edit.apply
  item := Edit.item
  Shows := Edit.Shows
  own := shows_apply
  other := fun _ _ _ => shows_apply_of_ne

/-- Edits of favorites leave the rest as it is. -/
theorem foldl_favorites (config : ConfiguredReceivers) (edits : List FavoriteEdit) :
    (edits.map Edit.favorite).foldl Edit.apply config =
      { config with soundModeFavorites := edits.foldl FavoriteEdit.apply config.soundModeFavorites } := by
  induction edits generalizing config with
  | nil => rfl
  | cons edit edits ih =>
    rw [List.map_cons, List.foldl_cons, ih]
    rfl

/-- A toggle is an edit of the current receiver. -/
theorem toggle_eq_ok {config toggled : ConfiguredReceivers} {mode : String} {favorite : Bool}
    (h : toggleCurrentSoundModeFavorite config mode = .ok (toggled, favorite)) :
    toggled = Edit.apply config (.favorite ⟨config.current.getD "", mode, favorite⟩) ∧ isBlank mode = false := by
  unfold toggleCurrentSoundModeFavorite at h
  cases hcurrent : config.current with
  | none =>
    rw [hcurrent] at h
    cases h
  | some name =>
    rw [hcurrent] at h
    dsimp only at h
    split_ifs at h
    unfold SoundModeFavorite.new at h
    split_ifs at h with hblank
    dsimp only at h
    split_ifs at h with hmem
    · cases h
      refine ⟨?_, eq_false_of_ne_true hblank⟩
      unfold Edit.apply
      rw [hcurrent]
      rfl
    · cases h
      refine ⟨?_, eq_false_of_ne_true hblank⟩
      unfold Edit.apply
      rw [hcurrent]
      rfl

end Edits

/-! ### The window and its saves -/

/-- The entry of a receiver that was discovered: its model name, or its address. -/
def receiverEntryForDiscovered (receiver : DiscoveredReceiver) : String × ReceiverIdentity :=
  let name := (receiver.model.filter fun model => !isBlank model).getD receiver.address.host
  (name, ⟨receiver.address.host, receiver.model, some name⟩)

/-- `manual_setup`, with the address and the name that were entered. -/
def manualEntry (address name : String) : Option (String × ReceiverIdentity) :=
  if isBlank address then none
  else
    let host := String.ofList (trim address.toList)
    let friendlyName := if isBlank name then none else some (String.ofList (trim name.toList))
    some (friendlyName.getD host, ⟨host, none, friendlyName⟩)

/-- A configuration to save the favorites of, with the edits in it that no save before has. -/
structure FavoritesCopy where
  config : ConfiguredReceivers
  edits : List FavoriteEdit
  /-- How many receiver saves the window's copy had in it when this one was taken. -/
  seen : ℕ
deriving DecidableEq

inductive SaveStage
  | starting
  | read (stored : ConfiguredReceivers)
  /-- What was saved, and how many receiver saves are in it. -/
  | saved (config : ConfiguredReceivers) (version : ℕ)
  | failed
deriving DecidableEq

structure FavoritesTask where
  copy : FavoritesCopy
  stage : SaveStage
deriving DecidableEq

structure ReceiverTask where
  name : String
  identity : ReceiverIdentity
  stage : SaveStage
deriving DecidableEq

structure ConfigRun where
  configured : ConfiguredReceivers
  saveInFlight : Bool := false
  pending : Option FavoritesCopy := none
  favorites : List FavoritesTask := []
  receivers : List ReceiverTask := []
  stored : ConfiguredReceivers
  /-- The edits whose save succeeded, in the order of the saves. -/
  saved : List Edit := []
  /-- How many receiver saves succeeded. -/
  version : ℕ := 0
  /-- How many of them the window's copy has in it. -/
  seen : ℕ := 0

inductive ConfigAction
  | toggle (mode : String)
  | saveDiscovered (receiver : DiscoveredReceiver)
  | manualSetup (address name : String)
  /-- A save reads what is stored. -/
  | readFavorites (i : ℕ) (succeeds : Bool)
  | storeFavorites (i : ℕ) (succeeds : Bool)
  /-- The window takes in a save's end. -/
  | endFavorites (i : ℕ)
  | readReceiver (i : ℕ) (succeeds : Bool)
  | storeReceiver (i : ℕ) (succeeds : Bool)
  | endReceiver (i : ℕ)

/-- What `save_favorites` makes of what it read. -/
def FavoritesTask.result (task : FavoritesTask) (stored : ConfiguredReceivers) : ConfiguredReceivers :=
  { stored with soundModeFavorites := task.copy.config.soundModeFavorites }

/-- What `save_receiver` makes of what it read. -/
def ReceiverTask.result (task : ReceiverTask) (stored : ConfiguredReceivers) : ConfiguredReceivers :=
  { stored with receivers := insertEntry task.name task.identity stored.receivers, current := some task.name }

/-- The read of the stored configuration. -/
def SaveStage.afterRead (stored : ConfiguredReceivers) (succeeds : Bool) : SaveStage → Option SaveStage
  | .starting => some (if succeeds then .read stored else .failed)
  | _ => none

def isValid (config : ConfiguredReceivers) : Bool :=
  match config.validate with
  | .ok () => true
  | .error _ => false

namespace ConfigRun

/-- `toggle_sound_mode_favorite`. -/
def toggle (run : ConfigRun) (mode : String) : ConfigRun :=
  match toggleCurrentSoundModeFavorite run.configured mode with
  | .error _ => run
  | .ok (config, favorite) =>
    let edit : FavoriteEdit := ⟨run.configured.current.getD "", mode, favorite⟩
    if run.saveInFlight then
      { run with
        configured := config
        pending := some ⟨config, (run.pending.elim [] FavoritesCopy.edits) ++ [edit], run.seen⟩ }
    else
      { run with
        configured := config
        saveInFlight := true
        favorites := run.favorites ++ [⟨⟨config, [edit], run.seen⟩, .starting⟩] }

def saveReceiver (run : ConfigRun) (entry : String × ReceiverIdentity) : ConfigRun :=
  { run with receivers := run.receivers ++ [⟨entry.1, entry.2, .starting⟩] }

def setFavoritesStage (run : ConfigRun) (i : ℕ) (task : FavoritesTask) (stage : SaveStage) : ConfigRun :=
  { run with favorites := run.favorites.set i { task with stage } }

def setReceiverStage (run : ConfigRun) (i : ℕ) (task : ReceiverTask) (stage : SaveStage) : ConfigRun :=
  { run with receivers := run.receivers.set i { task with stage } }

/-- The configuration is written, if it is valid and the write succeeds. What is read again is what was written, without
what is blank. -/
def storeFavorites (run : ConfigRun) (i : ℕ) (succeeds : Bool) : Option ConfigRun :=
  match run.favorites[i]? with
  | some task =>
    match task.stage with
    | .read stored =>
      if succeeds && isValid (task.result stored) then
        some { run.setFavoritesStage i task (.saved task.copy.config run.version) with
          stored := (task.result stored).stored
          saved := run.saved ++ task.copy.edits.map .favorite }
      else some (run.setFavoritesStage i task .failed)
    | _ => none
  | none => none

def storeReceiver (run : ConfigRun) (i : ℕ) (succeeds : Bool) : Option ConfigRun :=
  match run.receivers[i]? with
  | some task =>
    match task.stage with
    | .read stored =>
      if succeeds && isValid (task.result stored) then
        some { run.setReceiverStage i task (.saved (task.result stored) (run.version + 1)) with
          stored := (task.result stored).stored
          saved := run.saved ++ [.receiver task.name task.identity, .current task.name]
          version := run.version + 1 }
      else some (run.setReceiverStage i task .failed)
    | _ => none
  | none => none

/-- `sound_mode_favorites_saved`. -/
def favoritesSaved (run : ConfigRun) (config : ConfiguredReceivers) : ConfigRun :=
  match run.pending with
  | some next =>
    { run with configured := next.config, pending := none, favorites := run.favorites ++ [⟨next, .starting⟩] }
  | none => { run with configured := config, saveInFlight := false }

/-- `sound_mode_favorites_save_failed`. -/
def favoritesSaveFailed (run : ConfigRun) : ConfigRun := { run with saveInFlight := false, pending := none }

def endFavorites (run : ConfigRun) (i : ℕ) : Option ConfigRun :=
  match run.favorites[i]? with
  | some task =>
    let ended := { run with favorites := run.favorites.eraseIdx i }
    match task.stage with
    | .saved config _ => some (ended.favoritesSaved config)
    | .failed => some ended.favoritesSaveFailed
    | _ => none
  | none => none

/-- `discovered_saved` and `manual_saved`. -/
def endReceiver (run : ConfigRun) (i : ℕ) : Option ConfigRun :=
  match run.receivers[i]? with
  | some task =>
    let ended := { run with receivers := run.receivers.eraseIdx i }
    match task.stage with
    | .saved config version => some { ended with configured := config, seen := version }
    | .failed => some ended
    | _ => none
  | none => none

end ConfigRun

/-- The window from the load of its configuration on, in which nobody else edits the file. -/
def configMachine : Machine ConfigRun ConfigAction where
  init := fun run => ∃ config : ConfiguredReceivers, run = { configured := config.stored, stored := config.stored }
  step := fun run action =>
    match action with
    | .toggle mode => some (run.toggle mode)
    | .saveDiscovered receiver => some (run.saveReceiver (receiverEntryForDiscovered receiver))
    | .manualSetup address name => (manualEntry address name).map run.saveReceiver
    | .readFavorites i succeeds =>
      run.favorites[i]?.bind fun task =>
        (task.stage.afterRead run.stored succeeds).map fun stage => run.setFavoritesStage i task stage
    | .storeFavorites i succeeds => run.storeFavorites i succeeds
    | .endFavorites i => run.endFavorites i
    | .readReceiver i succeeds =>
      run.receivers[i]?.bind fun task =>
        (task.stage.afterRead run.stored succeeds).map fun stage => run.setReceiverStage i task stage
    | .storeReceiver i succeeds => run.storeReceiver i succeeds
    | .endReceiver i => run.endReceiver i

/-- The stored configuration shows the edits, and the window's copy is the stored one when no save is left. -/
structure Converges (run : ConfigRun) : Prop where
  edits : ∀ before edit after, run.saved = before ++ edit :: after →
    (∀ later ∈ after, later.item ≠ edit.item) → edit.Shows run.stored
  rest : run.favorites = [] → run.receivers = [] → run.pending = none → run.configured = run.stored

/-- The step is not one that goes wrong.

* A save of favorites stores while the receivers that it read are the stored ones.
* A receiver save stores while the favorites that it read are the stored ones, and so are the other receivers; and there is
  no blank name in it.
* The end of a favorites save leaves the window a copy that has all receiver saves in it which the window had; the end of
  one that failed, a copy with the stored favorites.
* The end of a receiver save brings the favorites that the window has, and comes before those of later receiver saves. -/
def undisturbed (run : ConfigRun) : ConfigAction → Bool
  | .storeFavorites i true =>
    run.favorites[i]?.all fun task =>
      match task.stage with
      | .read stored =>
        isValid (task.result stored) →
          stored.receivers = run.stored.receivers ∧ stored.current = run.stored.current
      | _ => true
  | .storeReceiver i true =>
    run.receivers[i]?.all fun task =>
      match task.stage with
      | .read stored =>
        isValid (task.result stored) →
          stored.soundModeFavorites = run.stored.soundModeFavorites ∧
            (task.result stored).receivers = (task.result run.stored).receivers ∧ task.identity.cleaned = task.identity
      | _ => true
  | .endFavorites i =>
    run.favorites[i]?.all fun task =>
      match task.stage with
      | .saved _ _ => (run.pending.getD task.copy).seen = run.seen
      | .failed => run.configured.soundModeFavorites = run.stored.soundModeFavorites
      | _ => true
  | .endReceiver i =>
    run.receivers[i]?.all fun task =>
      match task.stage with
      | .saved config version =>
        config.soundModeFavorites = run.configured.soundModeFavorites ∧ run.seen < version
      | _ => true
  | _ => true

/-! ### What is stored -/

/-- Nothing is blank that the file would not keep. -/
structure Clean (config : ConfiguredReceivers) : Prop where
  receivers : ∀ entry ∈ config.receivers, entry.2.cleaned = entry.2
  favorites : ∀ entry ∈ config.soundModeFavorites, ∀ favorite ∈ entry.2, isBlank favorite.mode = false

section Clean
variable {config : ConfiguredReceivers} {favorites : Favorites} {edits : List FavoriteEdit}

theorem cleaned_cleaned (identity : ReceiverIdentity) : identity.cleaned.cleaned = identity.cleaned := by
  unfold ReceiverIdentity.cleaned
  simp only [optionalText_optionalText]

theorem clean_stored (config : ConfiguredReceivers) : Clean config.stored := by
  constructor
  · intro entry hentry
    obtain ⟨⟨name, identity⟩, -, rfl⟩ := List.mem_map.mp hentry
    exact cleaned_cleaned identity
  · intro entry hentry favorite hfavorite
    obtain ⟨⟨receiver, modes⟩, -, rfl⟩ := List.mem_map.mp hentry
    simpa using (List.mem_filter.mp hfavorite).2

theorem Clean.stored_eq (h : Clean config) : config.stored = config := by
  have hreceivers : config.stored.receivers = config.receivers := by
    refine (List.map_congr_left fun entry hentry => ?_).trans (List.map_id _)
    exact Prod.ext rfl (h.receivers entry hentry)
  have hfavorites : config.stored.soundModeFavorites = config.soundModeFavorites := by
    refine (List.map_congr_left fun entry hentry => ?_).trans (List.map_id _)
    refine Prod.ext rfl (List.filter_eq_self.mpr fun favorite hfavorite => ?_)
    simpa using h.favorites entry hentry favorite hfavorite
  calc config.stored
      = ⟨config.stored.current, config.stored.receivers, config.stored.soundModeFavorites⟩ := rfl
    _ = ⟨config.current, config.receivers, config.soundModeFavorites⟩ := by rw [hreceivers, hfavorites]; rfl
    _ = config := rfl

theorem mem_of_mem_favoritesFor {receiver : String} {favorite : SoundModeFavorite}
    (h : favorite ∈ favoritesFor favorites receiver) : ∃ entry ∈ favorites, favorite ∈ entry.2 := by
  unfold favoritesFor at h
  cases hlookup : favorites.lookup receiver with
  | none =>
    rw [hlookup] at h
    cases h
  | some modes =>
    rw [hlookup] at h
    obtain ⟨before, after, rfl, -⟩ := List.lookup_eq_some_iff.mp hlookup
    exact ⟨(receiver, modes), by simp, h⟩

/-- The favorites after an edit of one that is not blank. -/
theorem clean_apply {edit : FavoriteEdit} (hedit : isBlank edit.mode = false)
    (h : ∀ entry ∈ favorites, ∀ favorite ∈ entry.2, isBlank favorite.mode = false) :
    ∀ entry ∈ edit.apply favorites, ∀ favorite ∈ entry.2, isBlank favorite.mode = false := by
  have hmodes : ∀ favorite ∈ favoritesFor favorites edit.receiver, isBlank favorite.mode = false := by
    intro favorite hfavorite
    obtain ⟨entry, hentry, hmem⟩ := mem_of_mem_favoritesFor hfavorite
    exact h entry hentry favorite hmem
  intro entry hentry favorite hfavorite
  unfold FavoriteEdit.apply setFavorites at hentry
  split_ifs at hentry
  · exact h entry (List.mem_of_mem_filter hentry) favorite hfavorite
  · obtain rfl | hmem := mem_insertEntry hentry
    · obtain rfl | hold := mem_insertFavorite.mp hfavorite
      · exact hedit
      · exact hmodes favorite hold
    · exact h entry hmem favorite hfavorite
  · exact h entry (List.mem_of_mem_filter hentry) favorite hfavorite
  · obtain rfl | hmem := mem_insertEntry hentry
    · exact hmodes favorite (List.mem_of_mem_filter hfavorite)
    · exact h entry hmem favorite hfavorite

theorem Clean.foldl (h : Clean config) (hedits : ∀ edit ∈ edits, isBlank edit.mode = false) :
    Clean { config with soundModeFavorites := edits.foldl FavoriteEdit.apply config.soundModeFavorites } := by
  refine ⟨h.receivers, ?_⟩
  dsimp only
  have hfavorites := h.favorites
  revert hfavorites
  generalize config.soundModeFavorites = favorites
  intro hfavorites
  induction edits generalizing favorites with
  | nil => exact hfavorites
  | cons edit edits ih =>
    refine ih (fun other hother => hedits other (List.mem_cons_of_mem _ hother)) _ ?_
    exact clean_apply (hedits edit List.mem_cons_self) hfavorites

theorem Clean.result (h : Clean config) {task : ReceiverTask} (htask : task.identity.cleaned = task.identity) :
    Clean (task.result config) := by
  refine ⟨fun entry hentry => ?_, h.favorites⟩
  obtain rfl | hmem := mem_insertEntry hentry
  · exact htask
  · exact h.receivers entry hmem

end Clean

/-! ### What is kept over a run -/

def SaveStage.isSaved : SaveStage → Bool
  | .saved _ _ => true
  | _ => false

/-- The favorites of the window's copy are the stored ones and the edits that are being saved or wait for it. -/
inductive Flight (stored : Favorites) : Favorites → Bool → Option FavoritesCopy → List FavoritesTask → Prop
  | idle : Flight stored stored false none []
  | saving {configured : Favorites} {pending : Option FavoritesCopy} {task : FavoritesTask}
      (htask : task.copy.config.soundModeFavorites =
        if task.stage.isSaved then stored else task.copy.edits.foldl FavoriteEdit.apply stored)
      (hsaved : ∀ config version, task.stage = .saved config version → config = task.copy.config)
      (hconfigured : configured = (pending.getD task.copy).config.soundModeFavorites)
      (hpending : ∀ next, pending = some next → next.config.soundModeFavorites =
        next.edits.foldl FavoriteEdit.apply task.copy.config.soundModeFavorites) :
      Flight stored configured true pending [task]

/-- The receivers of two configurations. -/
def SameReceivers (config config' : ConfiguredReceivers) : Prop :=
  config.receivers = config'.receivers ∧ config.current = config'.current

namespace ConfigRun

/-- The copies that are being saved, or wait for it. -/
def copies (run : ConfigRun) : List FavoritesCopy := run.favorites.map FavoritesTask.copy ++ run.pending.toList

end ConfigRun

/-- The receivers of the window's copy are those after some of the receiver saves. -/
structure Told (run : ConfigRun) : Prop where
  seen : run.seen ≤ run.version
  shown : run.seen = run.version → SameReceivers run.configured run.stored
  copies : ∀ copy ∈ run.copies, copy.seen ≤ run.seen ∧
    (copy.seen = run.seen → SameReceivers copy.config run.configured)
  reports : ∀ task ∈ run.receivers, ∀ config version, task.stage = .saved config version →
    version ≤ run.version ∧ (version = run.version → SameReceivers config run.stored)
  unseen : run.seen < run.version → ∃ task ∈ run.receivers, ∃ config, task.stage = .saved config run.version

structure Ordered (run : ConfigRun) : Prop where
  clean : Clean run.stored
  nonblank : ∀ copy ∈ run.copies, ∀ edit ∈ copy.edits, isBlank edit.mode = false
  log : ∃ config, run.stored = run.saved.foldl Edit.apply config
  flight : Flight run.stored.soundModeFavorites run.configured.soundModeFavorites run.saveInFlight run.pending
    run.favorites
  told : Told run

section Runs
variable {run run' : ConfigRun} {i : ℕ}

section Flight
variable {stored configured : Favorites} {saveInFlight : Bool} {pending : Option FavoritesCopy}
  {tasks : List FavoritesTask} {task : FavoritesTask}

theorem Flight.same (h : Flight stored configured saveInFlight pending tasks) (htasks : tasks = []) :
    configured = stored := by
  cases h with
  | idle => rfl
  | saving => cases htasks

theorem Flight.pending_none (h : Flight stored configured saveInFlight pending tasks) (hidle : saveInFlight = false) :
    pending = none := by
  cases h with
  | idle => rfl
  | saving => cases hidle

theorem Flight.one (h : Flight stored configured saveInFlight pending tasks) (hget : tasks[i]? = some task) :
    i = 0 ∧ tasks = [task] ∧ saveInFlight = true := by
  cases h with
  | idle => cases hget
  | saving =>
    cases i with
    | zero => exact ⟨rfl, by rw [Option.some.inj hget], rfl⟩
    | succ i => cases hget

theorem Flight.stage (h : Flight stored configured saveInFlight pending tasks) (hget : tasks[i]? = some task)
    (hbefore : task.stage.isSaved = false) {stage : SaveStage} (hstage : stage.isSaved = false) :
    Flight stored configured saveInFlight pending (tasks.set i { task with stage }) := by
  obtain ⟨rfl, rfl, rfl⟩ := h.one hget
  cases h with
  | saving htask hsaved hconfigured hpending =>
    refine .saving ?_ (fun config version heq => ?_) hconfigured hpending
    · rw [hbefore] at htask
      rw [show ({ task with stage } : FavoritesTask).stage.isSaved = false from hstage]
      exact htask
    · rw [show stage = .saved config version from heq] at hstage
      cases hstage

theorem Flight.unsaved (h : Flight stored configured saveInFlight pending [task]) (hstage : task.stage.isSaved = false) :
    task.copy.config.soundModeFavorites = task.copy.edits.foldl FavoriteEdit.apply stored := by
  cases h with
  | saving htask =>
    rw [hstage] at htask
    exact htask

theorem Flight.afterStore (h : Flight stored configured saveInFlight pending tasks) (hget : tasks[i]? = some task)
    (version : ℕ) : Flight task.copy.config.soundModeFavorites configured saveInFlight pending
      (tasks.set i { task with stage := .saved task.copy.config version }) := by
  obtain ⟨rfl, rfl, rfl⟩ := h.one hget
  cases h with
  | saving htask hsaved hconfigured hpending =>
    refine .saving rfl (fun config version' heq => ?_) hconfigured hpending
    cases heq
    rfl

theorem Flight.ended (h : Flight stored configured saveInFlight pending tasks) (hget : tasks[i]? = some task)
    {config : ConfiguredReceivers} {version : ℕ} (hstage : task.stage = .saved config version) :
    config = task.copy.config ∧ task.copy.config.soundModeFavorites = stored ∧
      configured = (pending.getD task.copy).config.soundModeFavorites ∧
      ∀ next, pending = some next →
        next.config.soundModeFavorites = next.edits.foldl FavoriteEdit.apply stored := by
  obtain ⟨rfl, rfl, rfl⟩ := h.one hget
  cases h with
  | saving htask hsaved hconfigured hpending =>
    have hsame : task.copy.config.soundModeFavorites = stored := by
      rw [htask, hstage]
      rfl
    refine ⟨hsaved config version hstage, hsame, hconfigured, fun next hnext => ?_⟩
    rw [← hsame]
    exact hpending next hnext

theorem Flight.toggle (h : Flight stored configured saveInFlight pending tasks) (edit : FavoriteEdit)
    {config : ConfiguredReceivers} (hconfig : config.soundModeFavorites = edit.apply configured) (seen : ℕ) :
    if saveInFlight then
      Flight stored config.soundModeFavorites true
        (some ⟨config, pending.elim [] FavoritesCopy.edits ++ [edit], seen⟩) tasks
    else Flight stored config.soundModeFavorites true none (tasks ++ [⟨⟨config, [edit], seen⟩, .starting⟩]) := by
  cases h with
  | idle =>
    rw [if_neg Bool.false_ne_true]
    exact .saving hconfig (fun _ _ heq => nomatch heq) rfl fun _ hnext => nomatch hnext
  | saving htask hsaved hconfigured hpending =>
    rw [if_pos rfl]
    refine .saving htask hsaved rfl fun next hnext => ?_
    obtain rfl := Option.some.inj hnext
    rw [hconfig, List.foldl_append, hconfigured]
    cases pending with
    | none => rfl
    | some next => rw [Option.elim_some, ← hpending next rfl]; rfl

end Flight

theorem Ordered.converges (h : Ordered run) : Converges run := by
  constructor
  · rintro before edit after hsaved hafter
    obtain ⟨config, hstored⟩ := h.log
    rw [hstored, hsaved]
    exact configEdits.shows_of_last hafter
  · intro hfavorites hreceivers hpending
    have hsame : run.configured.soundModeFavorites = run.stored.soundModeFavorites := h.flight.same hfavorites
    have hseen : run.seen = run.version := by
      refine h.told.seen.eq_of_not_lt fun hlt => ?_
      obtain ⟨task, htask, -⟩ := h.told.unseen hlt
      rw [hreceivers] at htask
      cases htask
    obtain ⟨hnames, hcurrent⟩ := h.told.shown hseen
    calc run.configured
        = ⟨run.configured.current, run.configured.receivers, run.configured.soundModeFavorites⟩ := rfl
      _ = ⟨run.stored.current, run.stored.receivers, run.stored.soundModeFavorites⟩ := by
        rw [hnames, hcurrent, hsame]
      _ = run.stored := rfl

theorem SameReceivers.refl (config : ConfiguredReceivers) : SameReceivers config config := ⟨rfl, rfl⟩

theorem SameReceivers.trans {a b c : ConfiguredReceivers} (h : SameReceivers a b) (h' : SameReceivers b c) :
    SameReceivers a c := ⟨h.1.trans h'.1, h.2.trans h'.2⟩

theorem SameReceivers.symm {a b : ConfiguredReceivers} (h : SameReceivers a b) : SameReceivers b a :=
  ⟨h.1.symm, h.2.symm⟩

theorem Told.frame (h : Told run) (hseen : run'.seen = run.seen) (hversion : run'.version = run.version)
    (hstored : SameReceivers run'.stored run.stored) (hconfigured : SameReceivers run'.configured run.configured)
    (hreceivers : ∀ task config version, task.stage = .saved config version →
      (task ∈ run'.receivers ↔ task ∈ run.receivers))
    (hcopies : ∀ copy ∈ run'.copies, copy ∈ run.copies ∨
      copy.seen = run.seen ∧ SameReceivers copy.config run.configured) : Told run' := by
  constructor
  · rw [hseen, hversion]
    exact h.seen
  · rw [hseen, hversion]
    exact fun heq => (hconfigured.trans (h.shown heq)).trans hstored.symm
  · rw [hseen]
    intro copy hcopy
    obtain hold | ⟨hsame, hnew⟩ := hcopies copy hcopy
    · exact ⟨(h.copies copy hold).1, fun heq => ((h.copies copy hold).2 heq).trans hconfigured.symm⟩
    · exact ⟨hsame.le, fun _ => hnew.trans hconfigured.symm⟩
  · rw [hversion]
    intro task htask config version hstage
    obtain ⟨hle, hsame⟩ := h.reports task ((hreceivers task config version hstage).mp htask) config version hstage
    exact ⟨hle, fun heq => (hsame heq).trans hstored.symm⟩
  · rw [hseen, hversion]
    intro hlt
    obtain ⟨task, htask, config, hstage⟩ := h.unseen hlt
    exact ⟨task, (hreceivers task config _ hstage).mpr htask, config, hstage⟩

theorem mem_copies {copy : FavoritesCopy} :
    copy ∈ run.copies ↔ (∃ task ∈ run.favorites, task.copy = copy) ∨ run.pending = some copy := by
  unfold ConfigRun.copies
  rw [List.mem_append, List.mem_map, Option.mem_toList]

theorem Ordered.toggle (h : Ordered run) (mode : String) : Ordered (run.toggle mode) := by
  unfold ConfigRun.toggle
  cases htoggle : toggleCurrentSoundModeFavorite run.configured mode with
  | error message => exact h
  | ok toggled =>
    obtain ⟨config, favorite⟩ := toggled
    obtain ⟨hconfig, hmode⟩ := toggle_eq_ok htoggle
    have hsame : SameReceivers config run.configured := by
      rw [hconfig]
      exact ⟨rfl, rfl⟩
    have hflight := h.flight.toggle ⟨run.configured.current.getD "", mode, favorite⟩
      (congrArg ConfiguredReceivers.soundModeFavorites hconfig) run.seen
    dsimp only
    split_ifs with hsaving
    · -- the save waits for the one in flight
      rw [if_pos hsaving] at hflight
      refine ⟨h.clean, fun copy hcopy edit hedit => ?_, h.log, hsaving ▸ hflight, ?_⟩
      · obtain hold | hnew := mem_copies.mp hcopy
        · exact h.nonblank copy (mem_copies.mpr (.inl hold)) edit hedit
        · obtain rfl := Option.some.inj hnew
          obtain hmem | hmem := List.mem_append.mp hedit
          · cases hpending : run.pending with
            | none =>
              rw [hpending] at hmem
              cases hmem
            | some next =>
              rw [hpending] at hmem
              exact h.nonblank next (mem_copies.mpr (.inr hpending)) edit hmem
          · obtain rfl := List.mem_singleton.mp hmem
            exact hmode
      · refine h.told.frame rfl rfl (.refl _) hsame (fun _ _ _ _ => Iff.rfl) fun copy hcopy => ?_
        obtain hold | hnew := mem_copies.mp hcopy
        · exact .inl (mem_copies.mpr (.inl hold))
        · obtain rfl := Option.some.inj hnew
          exact .inr ⟨rfl, hsame⟩
    · -- the save starts
      have hnone : run.pending = none := h.flight.pending_none (eq_false_of_ne_true hsaving)
      rw [if_neg hsaving] at hflight
      refine ⟨h.clean, fun copy hcopy edit hedit => ?_, h.log, hnone ▸ hflight, ?_⟩
      · obtain ⟨task, htask, rfl⟩ | hpending := mem_copies.mp hcopy
        · obtain hmem | hmem := List.mem_append.mp htask
          · exact h.nonblank _ (mem_copies.mpr (.inl ⟨task, hmem, rfl⟩)) edit hedit
          · obtain rfl := List.mem_singleton.mp hmem
            obtain rfl := List.mem_singleton.mp hedit
            exact hmode
        · exact h.nonblank copy (mem_copies.mpr (.inr hpending)) edit hedit
      · refine h.told.frame rfl rfl (.refl _) hsame (fun _ _ _ _ => Iff.rfl) fun copy hcopy => ?_
        obtain ⟨task, htask, rfl⟩ | hpending := mem_copies.mp hcopy
        · obtain hmem | hmem := List.mem_append.mp htask
          · exact .inl (mem_copies.mpr (.inl ⟨task, hmem, rfl⟩))
          · obtain rfl := List.mem_singleton.mp hmem
            exact .inr ⟨rfl, hsame⟩
        · exact .inl (mem_copies.mpr (.inr hpending))

theorem Ordered.copies_setFavoritesStage (h : Ordered run) {task : FavoritesTask} (hget : run.favorites[i]? = some task)
    (stage : SaveStage) : (run.setFavoritesStage i task stage).copies = run.copies := by
  obtain ⟨rfl, hone, -⟩ := h.flight.one hget
  unfold ConfigRun.copies ConfigRun.setFavoritesStage
  rw [hone]
  rfl

theorem Ordered.favoritesStage (h : Ordered run) {task : FavoritesTask} (hget : run.favorites[i]? = some task)
    (hbefore : task.stage.isSaved = false) {stage : SaveStage} (hstage : stage.isSaved = false) :
    Ordered (run.setFavoritesStage i task stage) := by
  have hcopies := h.copies_setFavoritesStage hget stage
  refine ⟨h.clean, ?_, h.log, h.flight.stage hget hbefore hstage, ?_⟩
  · rw [hcopies]
    exact h.nonblank
  · refine h.told.frame rfl rfl (.refl _) (.refl _) (fun _ _ _ _ => Iff.rfl) fun copy hcopy => .inl ?_
    rw [← hcopies]
    exact hcopy

/-- A save of favorites stores them over what it has read, which is still stored. -/
theorem Ordered.favoritesStored (h : Ordered run) {task : FavoritesTask} (hget : run.favorites[i]? = some task)
    {read : ConfiguredReceivers} (hstage : task.stage = .read read) (hread : SameReceivers read run.stored) :
    Ordered { run.setFavoritesStage i task (.saved task.copy.config run.version) with
      stored := (task.result read).stored
      saved := run.saved ++ task.copy.edits.map .favorite } := by
  have hmem : task.copy ∈ run.copies := mem_copies.mpr (.inl ⟨task, List.mem_of_getElem? hget, rfl⟩)
  have hfavorites : task.copy.config.soundModeFavorites =
      task.copy.edits.foldl FavoriteEdit.apply run.stored.soundModeFavorites := by
    obtain ⟨rfl, hone, -⟩ := h.flight.one hget
    have hflight := h.flight
    rw [hone] at hflight
    exact hflight.unsaved (by rw [hstage]; rfl)
  have hresult : task.result read =
      { run.stored with
        soundModeFavorites := task.copy.edits.foldl FavoriteEdit.apply run.stored.soundModeFavorites } := by
    unfold FavoritesTask.result
    rw [hread.1, hread.2, hfavorites]
  have hclean : Clean (task.result read) := by
    rw [hresult]
    exact h.clean.foldl (h.nonblank task.copy hmem)
  have hcopies := h.copies_setFavoritesStage hget (.saved task.copy.config run.version)
  rw [hclean.stored_eq]
  refine ⟨hclean, ?_, ?_, h.flight.afterStore hget run.version, ?_⟩
  · intro copy hcopy
    exact h.nonblank copy (hcopies ▸ hcopy)
  · obtain ⟨config, hlog⟩ := h.log
    refine ⟨config, ?_⟩
    rw [List.foldl_append, ← hlog, foldl_favorites]
    exact hresult
  · exact h.told.frame rfl rfl hread (.refl _) (fun _ _ _ _ => Iff.rfl) fun copy hcopy => .inl (hcopies ▸ hcopy)

theorem Ordered.favoritesSaved (h : Ordered run) {task : FavoritesTask} (hget : run.favorites[i]? = some task)
    {config : ConfiguredReceivers} {version : ℕ} (hstage : task.stage = .saved config version)
    (hseen : (run.pending.getD task.copy).seen = run.seen) :
    Ordered ({ run with favorites := run.favorites.eraseIdx i }.favoritesSaved config) := by
  obtain ⟨rfl, hstored, hconfigured, hnext⟩ := h.flight.ended hget hstage
  have hnone : run.favorites.eraseIdx i = [] := by
    obtain ⟨rfl, hone, -⟩ := h.flight.one hget
    rw [hone]
    rfl
  have hmem : task.copy ∈ run.copies := mem_copies.mpr (.inl ⟨task, List.mem_of_getElem? hget, rfl⟩)
  unfold ConfigRun.favoritesSaved
  cases hpending : run.pending with
  | none =>
    rw [hpending] at hseen
    have hsame := (h.told.copies task.copy hmem).2 hseen
    dsimp only
    rw [hnone]
    refine ⟨h.clean, fun copy hcopy => ?_, h.log, ?_, ?_⟩
    · obtain ⟨_, hold, _⟩ | hold := mem_copies.mp hcopy
      · cases hold
      · cases hold
    · dsimp only
      rw [hstored]
      exact .idle
    · refine h.told.frame rfl rfl (.refl _) hsame (fun _ _ _ _ => Iff.rfl) fun copy hcopy => ?_
      obtain ⟨_, hold, _⟩ | hold := mem_copies.mp hcopy
      · cases hold
      · cases hold
  | some next =>
    rw [hpending] at hseen
    have hnew : next ∈ run.copies := mem_copies.mpr (.inr hpending)
    have hsame := (h.told.copies next hnew).2 hseen
    dsimp only
    rw [hnone]
    refine ⟨h.clean, fun copy hcopy => ?_, h.log, ?_, ?_⟩
    · obtain ⟨other, hother, rfl⟩ | hold := mem_copies.mp hcopy
      · obtain rfl := List.mem_singleton.mp hother
        exact h.nonblank next hnew
      · cases hold
    · rw [(h.flight.one hget).2.2]
      exact .saving (hnext next hpending) (fun _ _ heq => nomatch heq) rfl fun _ hother => nomatch hother
    · refine h.told.frame rfl rfl (.refl _) hsame (fun _ _ _ _ => Iff.rfl) fun copy hcopy => ?_
      obtain ⟨other, hother, rfl⟩ | hold := mem_copies.mp hcopy
      · obtain rfl := List.mem_singleton.mp hother
        exact .inl hnew
      · cases hold

theorem Ordered.favoritesFailed (h : Ordered run) {task : FavoritesTask} (hget : run.favorites[i]? = some task)
    (hsame : run.configured.soundModeFavorites = run.stored.soundModeFavorites) :
    Ordered { run with favorites := run.favorites.eraseIdx i }.favoritesSaveFailed := by
  have hnone : run.favorites.eraseIdx i = [] := by
    obtain ⟨rfl, hone, -⟩ := h.flight.one hget
    rw [hone]
    rfl
  unfold ConfigRun.favoritesSaveFailed
  dsimp only
  rw [hnone]
  have hcopies : ∀ copy,
      copy ∉ ({ run with favorites := [], saveInFlight := false, pending := none } : ConfigRun).copies := by
    intro copy hcopy
    obtain ⟨_, hold, _⟩ | hold := mem_copies.mp hcopy
    · cases hold
    · cases hold
  refine ⟨h.clean, fun copy hcopy => absurd hcopy (hcopies copy), h.log, ?_, ?_⟩
  · rw [hsame]
    exact .idle
  · exact h.told.frame rfl rfl (.refl _) (.refl _) (fun _ _ _ _ => Iff.rfl) fun copy hcopy =>
      absurd hcopy (hcopies copy)

theorem Ordered.receiversStage (h : Ordered run) {receivers : List ReceiverTask}
    (hreceivers : ∀ task config version, task.stage = .saved config version →
      (task ∈ receivers ↔ task ∈ run.receivers)) : Ordered { run with receivers } := by
  refine ⟨h.clean, h.nonblank, h.log, h.flight, ?_⟩
  exact h.told.frame rfl rfl (.refl _) (.refl _) hreceivers fun _ hcopy => .inl hcopy

theorem Ordered.saveReceiver (h : Ordered run) (entry : String × ReceiverIdentity) :
    Ordered (run.saveReceiver entry) := by
  refine h.receiversStage fun task config version hstage => ?_
  rw [List.mem_append, List.mem_singleton, or_iff_left]
  rintro rfl
  cases hstage

theorem Ordered.receiverStage (h : Ordered run) {task : ReceiverTask} (hget : run.receivers[i]? = some task)
    (hbefore : task.stage.isSaved = false) {stage : SaveStage} (hstage : stage.isSaved = false) :
    Ordered (run.setReceiverStage i task stage) := by
  refine h.receiversStage fun other config version hsaved => ⟨fun hmem => ?_, fun hmem => ?_⟩
  · obtain hold | rfl := List.mem_or_eq_of_mem_set hmem
    · exact hold
    · rw [show stage = .saved config version from hsaved] at hstage
      cases hstage
  · refine Tally.mem_set_of_ne hget hmem ?_ _
    rintro rfl
    rw [hsaved] at hbefore
    cases hbefore

theorem Ordered.receiverStored (h : Ordered run) {task : ReceiverTask} (hget : run.receivers[i]? = some task)
    {read : ConfiguredReceivers} (hfavorites : read.soundModeFavorites = run.stored.soundModeFavorites)
    (hreceivers : (task.result read).receivers = (task.result run.stored).receivers)
    (hidentity : task.identity.cleaned = task.identity) :
    Ordered { run.setReceiverStage i task (.saved (task.result read) (run.version + 1)) with
      stored := (task.result read).stored
      saved := run.saved ++ [.receiver task.name task.identity, .current task.name]
      version := run.version + 1 } := by
  have hresult : task.result read = task.result run.stored := by
    calc task.result read
        = ⟨some task.name, (task.result read).receivers, read.soundModeFavorites⟩ := rfl
      _ = ⟨some task.name, (task.result run.stored).receivers, run.stored.soundModeFavorites⟩ := by
        rw [hreceivers, hfavorites]
      _ = task.result run.stored := rfl
  have hclean : Clean (task.result run.stored) := h.clean.result hidentity
  rw [hresult, hclean.stored_eq]
  refine ⟨hclean, h.nonblank, ?_, h.flight, ?_⟩
  · obtain ⟨config, hlog⟩ := h.log
    refine ⟨config, ?_⟩
    rw [List.foldl_append, ← hlog]
    rfl
  · have hseen : run.seen < run.version + 1 := Nat.lt_succ_of_le h.told.seen
    constructor
    · exact hseen.le
    · intro heq
      exact absurd heq hseen.ne
    · exact h.told.copies
    · intro other hmem config version hsaved
      obtain hold | rfl := List.mem_or_eq_of_mem_set hmem
      · have hversion : version < run.version + 1 :=
          Nat.lt_succ_of_le (h.told.reports other hold config version hsaved).1
        exact ⟨hversion.le, fun heq => absurd heq hversion.ne⟩
      · cases hsaved
        exact ⟨le_rfl, fun _ => .refl _⟩
    · intro _
      exact ⟨_, List.mem_set (List.getElem?_eq_some_iff.mp hget).1 _, _, rfl⟩

theorem Ordered.receiverSaved (h : Ordered run) {task : ReceiverTask} (hget : run.receivers[i]? = some task)
    {config : ConfiguredReceivers} {version : ℕ} (hstage : task.stage = .saved config version)
    (hfavorites : config.soundModeFavorites = run.configured.soundModeFavorites) (hlater : run.seen < version) :
    Ordered { run with receivers := run.receivers.eraseIdx i, configured := config, seen := version } := by
  obtain ⟨hversion, hsame⟩ := h.told.reports task (List.mem_of_getElem? hget) config version hstage
  refine ⟨h.clean, h.nonblank, h.log, ?_, hversion, hsame, ?_, ?_, ?_⟩
  · dsimp only
    rw [hfavorites]
    exact h.flight
  · intro copy hcopy
    have hbefore : copy.seen < version := (h.told.copies copy hcopy).1.trans_lt hlater
    exact ⟨hbefore.le, fun heq => absurd heq hbefore.ne⟩
  · intro other hmem
    exact h.told.reports other (List.mem_of_mem_eraseIdx hmem)
  · intro hlt
    obtain ⟨other, hmem, last, hlast⟩ := h.told.unseen (hlater.trans hlt)
    refine ⟨other, Tally.mem_eraseIdx_of_ne hget hmem ?_, last, hlast⟩
    rintro rfl
    cases hstage.symm.trans hlast
    exact lt_irrefl _ hlt

theorem Ordered.receiverFailed (h : Ordered run) {task : ReceiverTask} (hget : run.receivers[i]? = some task)
    (hstage : task.stage.isSaved = false) : Ordered { run with receivers := run.receivers.eraseIdx i } := by
  refine h.receiversStage fun other config version hsaved => ⟨List.mem_of_mem_eraseIdx, fun hmem => ?_⟩
  refine Tally.mem_eraseIdx_of_ne hget hmem ?_
  rintro rfl
  rw [hsaved] at hstage
  cases hstage

theorem afterRead_isSaved {stage stage' : SaveStage} {stored : ConfiguredReceivers} {succeeds : Bool}
    (h : stage.afterRead stored succeeds = some stage') : stage.isSaved = false ∧ stage'.isSaved = false := by
  cases stage with
  | starting =>
    obtain rfl := Option.some.inj h
    cases succeeds with
    | true => exact ⟨rfl, rfl⟩
    | false => exact ⟨rfl, rfl⟩
  | read | saved | failed => cases h

theorem Ordered.storeFavorites {succeeds : Bool} (h : Ordered run)
    (hcalm : undisturbed run (.storeFavorites i succeeds) = true)
    (hstep : run.storeFavorites i succeeds = some run') : Ordered run' := by
  unfold ConfigRun.storeFavorites at hstep
  cases hget : run.favorites[i]? with
  | none =>
    rw [hget] at hstep
    cases hstep
  | some task =>
    rw [hget] at hstep
    dsimp only at hstep
    cases hstage : task.stage with
    | starting | saved | failed =>
      rw [hstage] at hstep
      cases hstep
    | read read =>
      rw [hstage] at hstep
      dsimp only at hstep
      have hbefore : task.stage.isSaved = false := by rw [hstage]; rfl
      split_ifs at hstep with hstores
      · obtain rfl := Option.some.inj hstep
        obtain ⟨rfl, hvalid⟩ := Bool.and_eq_true_iff.mp hstores
        unfold undisturbed at hcalm
        dsimp only at hcalm
        rw [hget, Option.all_some, hstage] at hcalm
        exact h.favoritesStored hget hstage (of_decide_eq_true hcalm hvalid)
      · obtain rfl := Option.some.inj hstep
        exact h.favoritesStage hget hbefore rfl

theorem Ordered.storeReceiver {succeeds : Bool} (h : Ordered run)
    (hcalm : undisturbed run (.storeReceiver i succeeds) = true)
    (hstep : run.storeReceiver i succeeds = some run') : Ordered run' := by
  unfold ConfigRun.storeReceiver at hstep
  cases hget : run.receivers[i]? with
  | none =>
    rw [hget] at hstep
    cases hstep
  | some task =>
    rw [hget] at hstep
    dsimp only at hstep
    cases hstage : task.stage with
    | starting | saved | failed =>
      rw [hstage] at hstep
      cases hstep
    | read read =>
      rw [hstage] at hstep
      dsimp only at hstep
      have hbefore : task.stage.isSaved = false := by rw [hstage]; rfl
      split_ifs at hstep with hstores
      · obtain rfl := Option.some.inj hstep
        obtain ⟨rfl, hvalid⟩ := Bool.and_eq_true_iff.mp hstores
        unfold undisturbed at hcalm
        dsimp only at hcalm
        rw [hget, Option.all_some, hstage] at hcalm
        obtain ⟨hfavorites, hreceivers, hidentity⟩ := of_decide_eq_true hcalm hvalid
        exact h.receiverStored hget hfavorites hreceivers hidentity
      · obtain rfl := Option.some.inj hstep
        exact h.receiverStage hget hbefore rfl

theorem Ordered.endFavorites (h : Ordered run) (hcalm : undisturbed run (.endFavorites i) = true)
    (hstep : run.endFavorites i = some run') : Ordered run' := by
  unfold ConfigRun.endFavorites at hstep
  unfold undisturbed at hcalm
  dsimp only at hcalm
  cases hget : run.favorites[i]? with
  | none =>
    rw [hget] at hstep
    cases hstep
  | some task =>
    rw [hget] at hstep
    rw [hget, Option.all_some] at hcalm
    dsimp only at hstep
    cases hstage : task.stage with
    | starting | read =>
      rw [hstage] at hstep
      cases hstep
    | saved config version =>
      rw [hstage] at hstep hcalm
      obtain rfl := Option.some.inj hstep
      exact h.favoritesSaved hget hstage (of_decide_eq_true hcalm)
    | failed =>
      rw [hstage] at hstep hcalm
      obtain rfl := Option.some.inj hstep
      exact h.favoritesFailed hget (of_decide_eq_true hcalm)

theorem Ordered.endReceiver (h : Ordered run) (hcalm : undisturbed run (.endReceiver i) = true)
    (hstep : run.endReceiver i = some run') : Ordered run' := by
  unfold ConfigRun.endReceiver at hstep
  unfold undisturbed at hcalm
  dsimp only at hcalm
  cases hget : run.receivers[i]? with
  | none =>
    rw [hget] at hstep
    cases hstep
  | some task =>
    rw [hget] at hstep
    rw [hget, Option.all_some] at hcalm
    dsimp only at hstep
    cases hstage : task.stage with
    | starting | read =>
      rw [hstage] at hstep
      cases hstep
    | saved config version =>
      rw [hstage] at hstep hcalm
      obtain rfl := Option.some.inj hstep
      obtain ⟨hfavorites, hlater⟩ := of_decide_eq_true hcalm
      exact h.receiverSaved hget hstage hfavorites hlater
    | failed =>
      rw [hstage] at hstep
      obtain rfl := Option.some.inj hstep
      exact h.receiverFailed hget (by rw [hstage]; rfl)

theorem Ordered.step {action : ConfigAction} (h : Ordered run) (hcalm : undisturbed run action = true)
    (hstep : configMachine.step run action = some run') : Ordered run' := by
  cases action with
  | toggle mode =>
    obtain rfl := Option.some.inj hstep
    exact h.toggle mode
  | saveDiscovered receiver =>
    obtain rfl := Option.some.inj hstep
    exact h.saveReceiver _
  | manualSetup address name =>
    obtain ⟨entry, -, rfl⟩ := Option.map_eq_some_iff.mp hstep
    exact h.saveReceiver entry
  | readFavorites i succeeds =>
    obtain ⟨task, hget, hread⟩ := Option.bind_eq_some_iff.mp hstep
    obtain ⟨stage, hstage, rfl⟩ := Option.map_eq_some_iff.mp hread
    obtain ⟨hbefore, hafter⟩ := afterRead_isSaved hstage
    exact h.favoritesStage hget hbefore hafter
  | readReceiver i succeeds =>
    obtain ⟨task, hget, hread⟩ := Option.bind_eq_some_iff.mp hstep
    obtain ⟨stage, hstage, rfl⟩ := Option.map_eq_some_iff.mp hread
    obtain ⟨hbefore, hafter⟩ := afterRead_isSaved hstage
    exact h.receiverStage hget hbefore hafter
  | storeFavorites i succeeds => exact h.storeFavorites hcalm hstep
  | storeReceiver i succeeds => exact h.storeReceiver hcalm hstep
  | endFavorites i => exact h.endFavorites hcalm hstep
  | endReceiver i => exact h.endReceiver hcalm hstep

/-- The window has loaded its configuration. -/
theorem ordered_start (config : ConfiguredReceivers) :
    Ordered { configured := config.stored, stored := config.stored } := by
  refine ⟨clean_stored config, fun _ hcopy => ?_, ⟨config.stored, rfl⟩, .idle, ?_⟩
  · cases hcopy
  · refine ⟨le_rfl, fun _ => .refl _, fun _ hcopy => ?_, fun _ htask => ?_, fun hlt => ?_⟩
    · cases hcopy
    · cases htask
    · exact absurd hlt (lt_irrefl 0)

/-- **The window's configuration converges**, in the runs in which no step goes wrong. -/
theorem configuration_converges (run : ConfigRun)
    (hrun : configMachine.ReachableBy (fun run action => undisturbed run action = true) run) : Converges run := by
  refine (hrun.invariant (I := Ordered) ?_ ?_).converges
  · rintro run ⟨config, rfl⟩
    exact ordered_start config
  · intro run action run' _ hcalm hordered hstep
    exact hordered.step hcalm hstep

end Runs

/-! ### Saves that undo one another -/

section Example

/-- The den's receiver is the one receiver. -/
def denConfig : ConfiguredReceivers :=
  { current := some "den", receivers := [("den", ⟨"192.168.1.20", none, none⟩)], soundModeFavorites := [] }

def denLoaded : ConfigRun := { configured := denConfig.stored, stored := denConfig.stored }

/-- The attic's receiver is saved after the save of a favorite has read and before it stores. -/
def overwritten : List ConfigAction :=
  [.toggle "STEREO", .readFavorites 0 true, .manualSetup "192.168.1.30" "attic", .readReceiver 0 true,
    .storeReceiver 0 true, .storeFavorites 0 true]

theorem overwritten_isSome : (configMachine.exec denLoaded overwritten).isSome = true := by decide +kernel

def afterOverwritten : ConfigRun := (configMachine.exec denLoaded overwritten).get overwritten_isSome

/-- The attic's receiver is saved while the save of a favorite goes on, and its end comes first. -/
def forgotten : List ConfigAction :=
  [.toggle "STEREO", .manualSetup "192.168.1.30" "attic", .readReceiver 0 true, .storeReceiver 0 true, .endReceiver 0,
    .readFavorites 0 true, .storeFavorites 0 true, .endFavorites 0]

theorem forgotten_isSome : (configMachine.exec denLoaded forgotten).isSome = true := by decide +kernel

def afterForgotten : ConfigRun := (configMachine.exec denLoaded forgotten).get forgotten_isSome

/-- A saved receiver is stored no longer, though nothing has replaced it; and the window holds another current receiver than
the stored one, with no save left. -/
theorem not_converges :
    (∃ run, configMachine.Reachable run ∧ ∃ before edit after, run.saved = before ++ edit :: after ∧
      (∀ later ∈ after, later.item ≠ edit.item) ∧ ¬edit.Shows run.stored) ∧
    ∃ run, configMachine.Reachable run ∧ run.favorites = [] ∧ run.receivers = [] ∧ run.pending = none ∧
      run.configured.current ≠ run.stored.current := by
  constructor
  · refine ⟨afterOverwritten, Machine.reachable_of_exec denLoaded overwritten ⟨denConfig, rfl⟩
      (Option.some_get overwritten_isSome).symm, [], .receiver "attic" ⟨"192.168.1.30", none, some "attic"⟩,
      [.current "attic", .favorite ⟨"den", "STEREO", true⟩], ?_, ?_, ?_⟩
    · decide +kernel
    · decide
    · show ¬afterOverwritten.stored.receivers.lookup "attic" = some ⟨"192.168.1.30", none, some "attic"⟩
      decide +kernel
  · refine ⟨afterForgotten, Machine.reachable_of_exec denLoaded forgotten ⟨denConfig, rfl⟩
      (Option.some_get forgotten_isSome).symm, ?_⟩
    decide +kernel

/-- The save of the favorite ends, and then the attic's receiver is saved. -/
def savedInTurn : List ConfigAction :=
  [.toggle "STEREO", .toggle "MOVIE", .readFavorites 0 true, .storeFavorites 0 true, .endFavorites 0,
    .readFavorites 0 true, .storeFavorites 0 true, .endFavorites 0, .manualSetup "192.168.1.30" "attic",
    .readReceiver 0 true, .storeReceiver 0 true, .endReceiver 0]

theorem savedInTurn_isSome :
    (configMachine.execBy (fun run action => undisturbed run action = true) denLoaded savedInTurn).isSome = true := by
  decide +kernel

def afterSavedInTurn : ConfigRun :=
  (configMachine.execBy (fun run action => undisturbed run action = true) denLoaded savedInTurn).get savedInTurn_isSome

theorem configuration_converges_savedInTurn : Converges afterSavedInTurn ∧
    afterSavedInTurn.stored.soundModeFavorites = [("den", [⟨"MOVIE"⟩, ⟨"STEREO"⟩])] ∧
    afterSavedInTurn.configured.current = some "attic" ∧ afterSavedInTurn.saved.length = 4 := by
  refine ⟨configuration_converges afterSavedInTurn (Machine.reachableBy_of_execBy denLoaded savedInTurn ⟨denConfig, rfl⟩
    (Option.some_get savedInTurn_isSome).symm), ?_⟩
  decide +kernel

end Example

end DenonAvr.Gui
