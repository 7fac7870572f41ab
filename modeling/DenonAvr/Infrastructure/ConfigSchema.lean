import DenonAvr.Infrastructure.ConfigYaml

/-!
# The two schemas of the configuration file

A configuration that is saved is read back as it was, but for the names that are blank (`decodeText_encodeText`). The
file of an earlier release is read as its one receiver with all its favorites, in whichever of the two forms they are
listed (`migrated_of_decodeText`).
-/

namespace DenonAvr.Infrastructure

open Domain

/-- Without a model and a friendly name that are blank. -/
def ReceiverIdentity.cleaned (identity : ReceiverIdentity) : ReceiverIdentity where
  host := identity.host
  model := optionalText identity.model
  friendlyName := optionalText identity.friendlyName

namespace ConfiguredReceivers

def cleaned (config : ConfiguredReceivers) : ConfiguredReceivers :=
  { config with receivers := config.receivers.map fun (name, identity) => (name, identity.cleaned) }

/-- Without the favorites that are blank, too. -/
def stored (config : ConfiguredReceivers) : ConfiguredReceivers :=
  { config.cleaned with
    soundModeFavorites := config.soundModeFavorites.map fun (receiver, favorites) =>
      (receiver, favorites.filter fun favorite => !isBlank favorite.mode) }

/-- Every favorite was made by `SoundModeFavorite::new`. -/
def Favored (config : ConfiguredReceivers) : Prop :=
  ∀ entry ∈ config.soundModeFavorites, ∀ favorite ∈ entry.2, SoundModeFavorite.new favorite.mode = .ok favorite

/-- What is written of a configuration. -/
def file (config : ConfiguredReceivers) : ConfigFile where
  version := currentVersion
  current := config.current
  receivers := config.receivers.map fun (name, identity) => (name, recordOf identity)
  soundModeFavorites := config.soundModeFavorites.map fun (receiver, favorites) =>
    (receiver, favorites.map SoundModeFavorite.mode)

/-- The favorite is listed for the receiver. -/
def HasFavorite (config : ConfiguredReceivers) (receiver mode : String) : Prop :=
  ∃ favorites, (receiver, favorites) ∈ config.soundModeFavorites ∧ ⟨mode⟩ ∈ favorites

end ConfiguredReceivers

/-- The keys that are written: an empty optional field is skipped. -/
def ConfigFile.keys (file : ConfigFile) : List String :=
  "version" :: (if file.current.isSome then ["current"] else []) ++ "receivers" ::
    (if file.soundModeFavorites.isEmpty then [] else ["sound_mode_favorites"])

/-- `serde_yaml` decodes what it encodes: the mapping, and the file it is the mapping of. -/
structure YamlText.Faithful (yaml : YamlText) : Prop where
  keys_write : ∀ {file text}, yaml.write file = .ok text → yaml.keys text = .ok (some file.keys)
  read_write : ∀ {file text}, yaml.write file = .ok text → yaml.readFile text = .ok file

/-! ### Blank text -/

section Cleaned
variable {identity : ReceiverIdentity} {config : ConfiguredReceivers} {name : String}

theorem optionalText_optionalText (value : Option String) : optionalText (optionalText value) = optionalText value := by
  unfold optionalText
  rw [Option.filter_filter]
  simp

theorem identityOf_recordOf (identity : ReceiverIdentity) : identityOf (recordOf identity) = identity.cleaned := by
  unfold identityOf recordOf ReceiverIdentity.cleaned
  simp only [optionalText_optionalText]

theorem cleaned_identityOf (record : ReceiverRecord) : (identityOf record).cleaned = identityOf record := by
  unfold identityOf ReceiverIdentity.cleaned
  simp only [optionalText_optionalText]

theorem isConfigured_stored (config : ConfiguredReceivers) (name : String) :
    config.stored.isConfigured name = config.isConfigured name := by
  rw [Bool.eq_iff_iff]
  simp [ConfiguredReceivers.isConfigured, ConfiguredReceivers.stored, ConfiguredReceivers.cleaned]

/-- Blank text is of no account in what makes a configuration valid. -/
theorem validate_stored (config : ConfiguredReceivers) : config.stored.validate = config.validate := by
  have hreceivers : (config.stored.receivers.forM fun (name, receiver) =>
      ConfiguredReceivers.validateReceiver name receiver) =
        config.receivers.forM fun (name, receiver) => ConfiguredReceivers.validateReceiver name receiver :=
    List.forM_map
  have hfavorites : (config.stored.soundModeFavorites.find? fun (name, _) => !config.isConfigured name) =
      (config.soundModeFavorites.find? fun (name, _) => !config.isConfigured name).map fun (receiver, favorites) =>
        (receiver, favorites.filter fun favorite => !isBlank favorite.mode) :=
    List.find?_map
  unfold ConfiguredReceivers.validate
  rw [hreceivers]
  simp only [isConfigured_stored]
  rw [hfavorites]
  cases config.soundModeFavorites.find? fun (name, _) => !config.isConfigured name <;> rfl

/-- A favorite is read back as it was, unless it is blank. -/
theorem toOption_new_mode (favorite : SoundModeFavorite) :
    (SoundModeFavorite.new favorite.mode).toOption = Option.guard (fun favorite => !isBlank favorite.mode) favorite := by
  unfold SoundModeFavorite.new
  cases hblank : isBlank favorite.mode <;> simp [Option.guard, hblank, Except.toOption]

theorem favoritesOf_modes (config : ConfiguredReceivers) :
    favoritesOf config.file.soundModeFavorites = config.stored.soundModeFavorites := by
  unfold favoritesOf ConfiguredReceivers.file
  rw [List.map_map]
  refine List.map_congr_left fun entry _ => Prod.ext rfl ?_
  show (entry.2.map SoundModeFavorite.mode).filterMap _ = entry.2.filter _
  rw [List.filterMap_map, ← List.filterMap_eq_filter]
  exact List.filterMap_congr fun favorite _ => toOption_new_mode favorite

theorem stored_eq_cleaned (h : config.Favored) : config.stored = config.cleaned := by
  have hkept : (config.soundModeFavorites.map fun (receiver, favorites) =>
      (receiver, favorites.filter fun favorite => !isBlank favorite.mode)) = config.soundModeFavorites := by
    refine (List.map_congr_left fun entry hentry => ?_).trans (List.map_id _)
    refine Prod.ext rfl (List.filter_eq_self.mpr fun favorite hfavorite => ?_)
    have hnew := h entry hentry favorite hfavorite
    unfold SoundModeFavorite.new at hnew
    split_ifs at hnew with hblank
    simpa using hblank
  unfold ConfiguredReceivers.stored
  rw [hkept]
  rfl

theorem favored_favoritesOf (favorites : List (String × List String)) :
    ∀ entry ∈ favoritesOf favorites, ∀ favorite ∈ entry.2, SoundModeFavorite.new favorite.mode = .ok favorite := by
  intro entry hentry favorite hfavorite
  obtain ⟨⟨receiver, modes⟩, -, rfl⟩ := List.mem_map.mp hentry
  obtain ⟨mode, -, hmode⟩ := List.mem_filterMap.mp hfavorite
  unfold SoundModeFavorite.new at hmode ⊢
  split_ifs at hmode with hblank
  · cases hmode
  · cases hmode
    rw [if_neg hblank]

end Cleaned

/-! ### This release's schema -/

section RoundTrip
variable {yaml : YamlText} {config : ConfiguredReceivers} {text : Text}

/-- Nothing but the file is written, and only when it is valid. -/
theorem encodeText_eq_ok_iff :
    encodeText yaml config = .ok text ↔ config.validate = .ok () ∧ yaml.write config.file = .ok text := by
  unfold encodeText validating
  cases config.validate with
  | error message => simp [Except.mapError, bind, Except.bind]
  | ok =>
    show (yaml.write config.file).mapError _ = .ok text ↔ _
    cases yaml.write config.file <;> simp [Except.mapError]

theorem schemaOf_write (hyaml : yaml.Faithful) (hwrite : yaml.write config.file = .ok text) :
    schemaOf yaml text = .ok .multiReceiver := by
  unfold schemaOf
  rw [hyaml.keys_write hwrite]
  have hversion : "version" ∈ config.file.keys := List.mem_cons_self
  have hreceiver : "receiver" ∉ config.file.keys := by
    unfold ConfigFile.keys
    split_ifs <;> simp
  simp [parsing, Except.mapError, bind, Except.bind, hversion, hreceiver, pure, Except.pure]

/-- What a file of this release's version is decoded to. -/
theorem decodeText_multi {file : ConfigFile} (hschema : schemaOf yaml text = .ok .multiReceiver)
    (hfile : yaml.readFile text = .ok file) (hversion : file.version = currentVersion) :
    decodeText yaml text =
      (validating ⟨file.current, file.receivers.map fun (name, record) => (name, identityOf record),
        favoritesOf file.soundModeFavorites⟩).map fun _ =>
          ⟨file.current, file.receivers.map fun (name, record) => (name, identityOf record),
            favoritesOf file.soundModeFavorites⟩ := by
  unfold decodeText
  rw [hschema]
  simp only [bind, Except.bind, hfile, parsing, Except.mapError, hversion, ne_eq, not_true_eq_false, if_false, pure, Except.pure]
  cases validating _ <;> rfl

/-- **The round trip**: what is saved is read back, without what is blank. -/
theorem decodeText_encodeText (hyaml : yaml.Faithful) (h : encodeText yaml config = .ok text) :
    decodeText yaml text = .ok config.stored := by
  obtain ⟨hvalid, hwrite⟩ := encodeText_eq_ok_iff.mp h
  have hreceivers : (config.file.receivers.map fun (name, record) => (name, identityOf record)) =
      config.stored.receivers := by
    show (config.receivers.map _).map _ = config.receivers.map _
    rw [List.map_map]
    refine List.map_congr_left fun entry _ => ?_
    exact Prod.ext rfl (identityOf_recordOf entry.2)
  rw [decodeText_multi (schemaOf_write hyaml hwrite) (hyaml.read_write hwrite) rfl, hreceivers,
    favoritesOf_modes]
  show (validating config.stored).map _ = _
  unfold validating
  rw [validate_stored, hvalid]
  rfl

theorem file_encoded (hyaml : yaml.Faithful) (hvalid : config.validate = .ok ()) (hfavored : config.Favored)
    (hwrite : yaml.write config.file = .ok text) :
    encodeText yaml config = .ok text ∧ decodeText yaml text = .ok config.cleaned := by
  have hencode := encodeText_eq_ok_iff.mpr ⟨hvalid, hwrite⟩
  rw [← stored_eq_cleaned hfavored]
  exact ⟨hencode, decodeText_encodeText hyaml hencode⟩

end RoundTrip

/-! ### The schema of earlier releases -/

/-- The mode is listed for the receiver, in any category. -/
def SoundModeFavoritesFile.HasMode : SoundModeFavoritesFile → String → String → Prop
  | .categoryKeyed favorites, receiver, mode =>
    ∃ categories, (receiver, categories) ∈ favorites ∧ ∃ category modes, (category, modes) ∈ categories ∧ mode ∈ modes
  | .simple favorites, receiver, mode => ∃ modes, (receiver, modes) ∈ favorites ∧ mode ∈ modes

/-- The name its receiver gets. -/
def LegacyConfigFile.name (file : LegacyConfigFile) : String :=
  (optionalText file.receiver.friendlyName).getD "default"

/-- The one receiver of the file, as the current one, and all its favorites. -/
structure Migrated (file : LegacyConfigFile) (config : ConfiguredReceivers) : Prop where
  receivers : config.receivers = [(file.name, identityOf file.receiver)]
  current : config.current = some file.name
  favorites : ∀ receiver mode,
    config.HasFavorite receiver mode ↔ file.soundModeFavorites.HasMode receiver mode ∧ isBlank mode = false

section Migration
variable {yaml : YamlText} {config : ConfiguredReceivers} {text : Text} {receiver mode : String}

theorem mem_setOf {items : List String} {item : String} : item ∈ setOf items ↔ item ∈ items := by
  unfold setOf
  rw [List.mem_insertionSort, List.mem_dedup]

theorem hasMode_iff (favorites : SoundModeFavoritesFile) :
    favorites.HasMode receiver mode ↔ ∃ modes, (receiver, modes) ∈ favorites.intoModes ∧ mode ∈ modes := by
  cases favorites with
  | simple favorites => rfl
  | categoryKeyed favorites =>
    constructor
    · rintro ⟨categories, hreceiver, category, modes, hcategory, hmode⟩
      refine ⟨_, List.mem_map.mpr ⟨_, hreceiver, rfl⟩, ?_⟩
      exact mem_setOf.mpr (List.mem_flatMap.mpr ⟨_, hcategory, hmode⟩)
    · rintro ⟨modes, hmodes, hmode⟩
      obtain ⟨⟨receiver', categories⟩, hreceiver, heq⟩ := List.mem_map.mp hmodes
      obtain ⟨rfl, rfl⟩ := Prod.mk.inj heq
      obtain ⟨⟨category, modes⟩, hcategory, hmode⟩ := List.mem_flatMap.mp (mem_setOf.mp hmode)
      exact ⟨categories, hreceiver, category, modes, hcategory, hmode⟩

theorem mem_favoritesOf {favorites : List (String × List String)} :
    (∃ modes, (receiver, modes) ∈ favoritesOf favorites ∧ ⟨mode⟩ ∈ modes) ↔
      (∃ modes, (receiver, modes) ∈ favorites ∧ mode ∈ modes) ∧ isBlank mode = false := by
  have hnew : ∀ mode', (SoundModeFavorite.new mode').toOption = some ⟨mode⟩ ↔ mode' = mode ∧ isBlank mode = false := by
    intro mode'
    unfold SoundModeFavorite.new
    cases hblank : isBlank mode' with
    | true =>
      refine ⟨fun h => (nomatch h), ?_⟩
      rintro ⟨rfl, h⟩
      cases hblank.symm.trans h
    | false =>
      refine ⟨fun h => ?_, ?_⟩
      · obtain rfl := SoundModeFavorite.mk.inj (Option.some.inj h)
        exact ⟨rfl, hblank⟩
      · rintro ⟨rfl, -⟩
        rfl
  constructor
  · rintro ⟨modes, hmodes, hmode⟩
    obtain ⟨⟨receiver', listed⟩, hlisted, heq⟩ := List.mem_map.mp hmodes
    obtain ⟨rfl, rfl⟩ := Prod.mk.inj heq
    obtain ⟨mode', hmode', hsome⟩ := List.mem_filterMap.mp hmode
    obtain ⟨rfl, hblank⟩ := (hnew mode').mp hsome
    exact ⟨⟨listed, hlisted, hmode'⟩, hblank⟩
  · rintro ⟨⟨listed, hlisted, hmode⟩, hblank⟩
    refine ⟨_, List.mem_map.mpr ⟨_, hlisted, rfl⟩, ?_⟩
    exact List.mem_filterMap.mpr ⟨mode, hmode, (hnew mode).mpr ⟨rfl, hblank⟩⟩

/-- What is made of a file of an earlier release, if it is valid. -/
theorem decodeText_single (hschema : schemaOf yaml text = .ok .singleReceiver) (h : decodeText yaml text = .ok config) :
    ∃ file, yaml.readLegacy text = .ok file ∧ config.validate = .ok () ∧
      config = ⟨some file.name, [(file.name, identityOf file.receiver)], favoritesOf file.soundModeFavorites.intoModes⟩ := by
  unfold decodeText at h
  rw [hschema] at h
  simp only [bind, Except.bind, pure, Except.pure] at h
  cases hfile : yaml.readLegacy text with
  | error message =>
    rw [hfile] at h
    cases h
  | ok file =>
    rw [hfile] at h
    simp only [parsing, Except.mapError] at h
    split at h
    · cases h
    · rename_i hvalid
      cases h
      refine ⟨file, rfl, ?_, rfl⟩
      unfold validating at hvalid
      cases hresult : ConfiguredReceivers.validate _ with
      | error message =>
        rw [hresult] at hvalid
        cases hvalid
      | ok => rfl

theorem favored_of_decodeText (hschema : schemaOf yaml text = .ok .singleReceiver) (h : decodeText yaml text = .ok config) :
    config.Favored ∧ config.cleaned = config := by
  obtain ⟨file, -, -, rfl⟩ := decodeText_single hschema h
  refine ⟨favored_favoritesOf _, ?_⟩
  unfold ConfiguredReceivers.cleaned
  simp only [List.map_cons, List.map_nil, cleaned_identityOf]

theorem migrated_of_decodeText (hschema : schemaOf yaml text = .ok .singleReceiver)
    (h : decodeText yaml text = .ok config) : ∃ file, yaml.readLegacy text = .ok file ∧ Migrated file config := by
  obtain ⟨file, hfile, -, rfl⟩ := decodeText_single hschema h
  refine ⟨file, hfile, rfl, rfl, fun receiver mode => ?_⟩
  rw [hasMode_iff]
  exact mem_favoritesOf

end Migration

/-- **The schemas of the configuration file.** -/
theorem schemas_round_trip (yaml : YamlText) (hyaml : yaml.Faithful) :
    (∀ config : ConfiguredReceivers, config.validate = .ok () → config.Favored →
      ∀ text, yaml.write config.file = .ok text →
        encodeText yaml config = .ok text ∧ decodeText yaml text = .ok config.cleaned) ∧
    (∀ old config, schemaOf yaml old = .ok .singleReceiver → decodeText yaml old = .ok config →
      (∃ file, yaml.readLegacy old = .ok file ∧ Migrated file config) ∧
      ∀ text, yaml.write config.file = .ok text →
        encodeText yaml config = .ok text ∧ decodeText yaml text = .ok config) := by
  refine ⟨fun config hvalid hfavored text hwrite => file_encoded hyaml hvalid hfavored hwrite, ?_⟩
  intro old config hschema hdecode
  refine ⟨migrated_of_decodeText hschema hdecode, fun text hwrite => ?_⟩
  obtain ⟨hfavored, hcleaned⟩ := favored_of_decodeText hschema hdecode
  obtain ⟨-, -, hvalid, -⟩ := decodeText_single hschema hdecode
  have hencoded := file_encoded hyaml hvalid hfavored hwrite
  rw [hcleaned] at hencoded
  exact hencoded

section Example

def categoryText : Text :=
  "receiver:\n  host: 10.0.0.2\n  friendly_name: Living\nsound_mode_favorites:\n  Living:\n    Movie:\n    - Auro3D\n    - ' '\n".toList

def categoryFile : LegacyConfigFile :=
  ⟨⟨"10.0.0.2", none, some "Living"⟩, .categoryKeyed [("Living", [("Movie", [" ", "Auro3D"])])]⟩

def migratedText : Text :=
  ("version: 2\ncurrent: Living\nreceivers:\n  Living:\n    host: 10.0.0.2\n    friendly_name: Living\n" ++
    "sound_mode_favorites:\n  Living:\n  - Auro3D\n").toList

def migratedConfig : ConfiguredReceivers :=
  ⟨some "Living", [("Living", ⟨"10.0.0.2", none, some "Living"⟩)], [("Living", [⟨"Auro3D"⟩])]⟩

/-- `serde_yaml` for these two files, whatever their texts. -/
def migrationYaml (old new : Text) : YamlText where
  keys := fun text =>
    if text = new then .ok (some migratedConfig.file.keys)
    else .ok (if text = old then some ["receiver", "sound_mode_favorites"] else none)
  readFile := fun text => if text = new then .ok migratedConfig.file else .error "missing field `version`"
  readLegacy := fun text => if text = old then .ok categoryFile else .error "missing field `receiver`"
  write := fun file => if file = migratedConfig.file then .ok new else .error "not a file of this example"

theorem migrationYaml_write (old new : Text) : (migrationYaml old new).write migratedConfig.file = .ok new := by
  simp [migrationYaml]

theorem migrationYaml_faithful (old new : Text) : (migrationYaml old new).Faithful := by
  have hwritten : ∀ {file text}, (migrationYaml old new).write file = .ok text →
      file = migratedConfig.file ∧ text = new := by
    intro file text hwrite
    dsimp only [migrationYaml] at hwrite
    split_ifs at hwrite with hfile
    cases hwrite
    exact ⟨hfile, rfl⟩
  constructor <;>
  · intro file text hwrite
    obtain ⟨rfl, rfl⟩ := hwritten hwrite
    exact if_pos rfl

theorem schemas_round_trip_living :
    (∃ file, (migrationYaml categoryText migratedText).readLegacy categoryText = .ok file ∧
        Migrated file migratedConfig) ∧
      encodeText (migrationYaml categoryText migratedText) migratedConfig = .ok migratedText ∧
      decodeText (migrationYaml categoryText migratedText) migratedText = .ok migratedConfig := by
  have hread := (schemas_round_trip _ (migrationYaml_faithful categoryText migratedText)).2 categoryText migratedConfig
    (by decide +kernel) (by decide +kernel)
  exact ⟨hread.1, hread.2 migratedText (migrationYaml_write _ _)⟩

end Example

end DenonAvr.Infrastructure
