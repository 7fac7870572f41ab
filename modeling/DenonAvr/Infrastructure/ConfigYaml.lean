import DenonAvr.Infrastructure.TokenFile

/-!
# The receiver configuration

The saved receivers, the text of their file, and the `ETag` that `GET /v1/config` gives a client. The YAML and JSON
libraries are parameters.

Two configurations with the same `ETag` are the same, short of a collision of SHA-256 (`eq_or_collides`).
-/

namespace DenonAvr.Infrastructure

open Domain Application Library Policy

/-- Text of a file. -/
abbrev Text := List Char

/-! ### Configured receivers -/

structure SoundModeFavorite where
  mode : String
deriving DecidableEq

def SoundModeFavorite.new (mode : String) : Except String SoundModeFavorite :=
  if isBlank mode then .error "sound mode favorite must not be empty" else .ok ⟨mode⟩

structure ReceiverIdentity where
  host : String
  model : Option String
  friendlyName : Option String
deriving DecidableEq

/-- The maps are listed by their keys, in order, and the sets by their elements. -/
structure ConfiguredReceivers where
  current : Option String
  receivers : List (String × ReceiverIdentity)
  soundModeFavorites : List (String × List SoundModeFavorite)
deriving DecidableEq

/-- The elements of a set, in order. -/
def setOf (items : List String) : List String := items.dedup.insertionSort (· ≤ ·)

def hasLineBreak (value : String) : Bool := value.toList.any fun c => c = '\r' || c = '\n'

namespace ConfiguredReceivers

def default : ConfiguredReceivers := ⟨none, [], []⟩

def validateReceiver (name : String) (receiver : ReceiverIdentity) : Except String Unit :=
  if isBlank name then .error "receiver name must not be empty"
  else if isBlank receiver.host then .error ("receiver " ++ name ++ " has an empty host")
  else if hasLineBreak name || hasLineBreak receiver.host then .error ("receiver " ++ name ++ " contains a line break")
  else if ReceiverId.isReservedName name then
    .error ("receiver name " ++ name ++ " uses a prefix reserved for receivers chosen by address")
  else .ok ()

def isConfigured (config : ConfiguredReceivers) (name : String) : Bool := (config.receivers.lookup name).isSome

def validate (config : ConfiguredReceivers) : Except String Unit := do
  config.receivers.forM fun (name, receiver) => validateReceiver name receiver
  match config.current with
  | some current =>
    if !config.isConfigured current then .error ("current receiver " ++ current ++ " is not configured")
  | none => pure ()
  match config.soundModeFavorites.find? fun (name, _) => !config.isConfigured name with
  | some (name, _) => .error ("sound mode favorites reference unknown receiver " ++ name)
  | none => pure ()

end ConfiguredReceivers

/-! ### The file -/

/-- An `OperationError` of the kind `Configuration`. -/
structure ConfigurationError where
  context : String
  message : String
deriving DecidableEq

structure ReceiverRecord where
  host : String
  model : Option String
  friendlyName : Option String
deriving DecidableEq

def currentVersion : ℕ := 2

/-- The file of this release. -/
structure ConfigFile where
  version : ℕ
  current : Option String
  receivers : List (String × ReceiverRecord)
  soundModeFavorites : List (String × List String)
deriving DecidableEq

inductive SoundModeFavoritesFile
  | categoryKeyed (favorites : List (String × List (String × List String)))
  | simple (favorites : List (String × List String))
deriving DecidableEq

/-- The file of earlier releases. -/
structure LegacyConfigFile where
  receiver : ReceiverRecord
  soundModeFavorites : SoundModeFavoritesFile
deriving DecidableEq

/-- What is used of `serde_yaml`. -/
structure YamlText where
  /-- The keys of the mapping that the text is, if it is one. -/
  keys : Text → Except String (Option (List String))
  readFile : Text → Except String ConfigFile
  readLegacy : Text → Except String LegacyConfigFile
  write : ConfigFile → Except String Text

inductive Schema
  | singleReceiver
  | multiReceiver
deriving DecidableEq

def parsing {α : Type} (result : Except String α) : Except ConfigurationError α :=
  result.mapError fun message => ⟨"parsing configuration", message⟩

def validating (config : ConfiguredReceivers) : Except ConfigurationError Unit :=
  config.validate.mapError fun message => ⟨"validating configuration", message⟩

def schemaOf (yaml : YamlText) (text : Text) : Except ConfigurationError Schema := do
  match ← parsing (yaml.keys text) with
  | none => parsing (.error "the file is not a YAML mapping")
  | some keys =>
    match decide ("version" ∈ keys), decide ("receiver" ∈ keys) with
    | true, false => pure .multiReceiver
    | false, true => pure .singleReceiver
    | true, true => parsing (.error "the file has both `version` and `receiver`")
    | false, false => parsing (.error "the file has neither `version` nor `receiver`")

def optionalText (value : Option String) : Option String := value.filter fun text => !isBlank text

def identityOf (record : ReceiverRecord) : ReceiverIdentity :=
  ⟨record.host, optionalText record.model, optionalText record.friendlyName⟩

/-- A mode that is not one is left out. -/
def favoritesOf (favorites : List (String × List String)) : List (String × List SoundModeFavorite) :=
  favorites.map fun (receiver, modes) =>
    (receiver, modes.filterMap fun mode => (SoundModeFavorite.new mode).toOption)

def SoundModeFavoritesFile.intoModes : SoundModeFavoritesFile → List (String × List String)
  | .categoryKeyed favorites =>
    favorites.map fun (receiver, categories) => (receiver, setOf (categories.flatMap Prod.snd))
  | .simple favorites => favorites

/-- Decodes either schema. -/
def decodeText (yaml : YamlText) (text : Text) : Except ConfigurationError ConfiguredReceivers := do
  let config ← match ← schemaOf yaml text with
    | .singleReceiver =>
      let file ← parsing (yaml.readLegacy text)
      let identity := identityOf file.receiver
      let name := identity.friendlyName.getD "default"
      pure ⟨some name, [(name, identity)], favoritesOf file.soundModeFavorites.intoModes⟩
    | .multiReceiver =>
      let file ← parsing (yaml.readFile text)
      if file.version ≠ currentVersion then
        parsing (.error ("configuration version " ++ file.version.repr ++ " is not supported; this release reads version " ++
          currentVersion.repr))
      else
        pure ⟨file.current, file.receivers.map fun (name, record) => (name, identityOf record),
          favoritesOf file.soundModeFavorites⟩
  validating config
  pure config

def recordOf (identity : ReceiverIdentity) : ReceiverRecord :=
  ⟨identity.host, optionalText identity.model, optionalText identity.friendlyName⟩

def encodeText (yaml : YamlText) (config : ConfiguredReceivers) : Except ConfigurationError Text := do
  validating config
  (yaml.write ⟨currentVersion, config.current, config.receivers.map fun (name, identity) => (name, recordOf identity),
    config.soundModeFavorites.map fun (receiver, favorites) => (receiver, favorites.map SoundModeFavorite.mode)⟩).mapError
      fun message => ⟨"encoding configuration", message⟩

/-- The configuration of a file that may be missing. -/
def configurationOf (yaml : YamlText) : Option Text → Except ConfigurationError ConfiguredReceivers
  | some text => decodeText yaml text
  | none => .ok .default

def isReadableCurrentSchema (yaml : YamlText) (text : Text) : Bool :=
  decide ((schemaOf yaml text).toOption = some .multiReceiver) && (decodeText yaml text).toOption.isSome

/-- The text to write, and what is in the file that must be kept first. -/
structure SavePlan where
  text : Text
  backup : Option Text
deriving DecidableEq

def planSave (yaml : YamlText) (existing : Option Text) (config : ConfiguredReceivers) :
    Except ConfigurationError SavePlan := do
  let text ← encodeText yaml config
  -- a blank file holds nothing worth keeping
  pure ⟨text, existing.filter fun old => !old.all isWhitespace && !isReadableCurrentSchema yaml old⟩

/-! ### The `ETag` -/

/-- A field that is left out when it is `None`. -/
def optionalField (key : String) (value : Option String) : List (String × Json) :=
  match value with
  | some text => [(key, .string text)]
  | none => []

def identityJson (identity : ReceiverIdentity) : Json :=
  .object (("host", .string identity.host) ::
    (optionalField "model" identity.model ++ optionalField "friendly_name" identity.friendlyName))

/-- The `ConfigDto`. -/
def configJson (config : ConfiguredReceivers) : Json :=
  .object (optionalField "current" config.current ++
    [("receivers", .object (config.receivers.map fun (name, identity) => (name, identityJson identity))),
      ("sound_mode_favorites", .object (config.soundModeFavorites.map fun (name, favorites) =>
        (name, .array (favorites.map fun favorite => .string favorite.mode))))])

/-- The libraries that a configuration goes through. -/
structure ConfigEnv where
  yaml : YamlText
  /-- `serde_json::to_vec`. -/
  json : Json → Text
  sha256 : Text → TokenDigest

def etagOf (env : ConfigEnv) (config : ConfiguredReceivers) : String :=
  "\"" ++ toHex (env.sha256 (env.json (configJson config))).val ++ "\""

/-- The JSON of the two has one digest, and is not the same. -/
def Collides (env : ConfigEnv) (config other : ConfiguredReceivers) : Prop :=
  env.sha256 (env.json (configJson config)) = env.sha256 (env.json (configJson other)) ∧
    env.json (configJson config) ≠ env.json (configJson other)

section Etag
variable {env : ConfigEnv} {config other : ConfiguredReceivers}

theorem identityJson_injective : Function.Injective identityJson := by
  rintro ⟨host, model, name⟩ ⟨host', model', name'⟩ h
  obtain ⟨hhost, hrest⟩ := List.cons.inj (Json.object.inj h)
  obtain rfl := Json.string.inj (Prod.mk.inj hhost).2
  cases model <;> cases model' <;> cases name <;> cases name' <;> simp_all [optionalField]

theorem configJson_injective : Function.Injective configJson := by
  rintro ⟨current, receivers, favorites⟩ ⟨current', receivers', favorites'⟩ h
  have hfields := Json.object.inj h
  have hmode : Function.Injective fun favorite : SoundModeFavorite => Json.string favorite.mode := by
    rintro ⟨mode⟩ ⟨mode'⟩ hmode
    exact congrArg SoundModeFavorite.mk (Json.string.inj hmode)
  -- the three fields, whether or not the first is left out
  have hparts : current = current' ∧
      (receivers.map fun (name, identity) => (name, identityJson identity)) =
        (receivers'.map fun (name, identity) => (name, identityJson identity)) ∧
      (favorites.map fun (name, favorites) =>
        (name, Json.array (favorites.map fun favorite : SoundModeFavorite => .string favorite.mode))) =
        (favorites'.map fun (name, favorites) => (name, .array (favorites.map fun favorite => .string favorite.mode))) := by
    cases current <;> cases current' <;> simp_all [optionalField]
  obtain ⟨rfl, hreceivers, hfavorites⟩ := hparts
  have hreceiver : Function.Injective fun entry : String × ReceiverIdentity => (entry.1, identityJson entry.2) := by
    rintro ⟨name, identity⟩ ⟨name', identity'⟩ hentry
    obtain ⟨hname, hidentity⟩ := Prod.mk.inj hentry
    exact Prod.ext hname (identityJson_injective hidentity)
  have hfavorite : Function.Injective fun entry : String × List SoundModeFavorite =>
      (entry.1, Json.array (entry.2.map fun favorite => .string favorite.mode)) := by
    rintro ⟨name, modes⟩ ⟨name', modes'⟩ hentry
    obtain ⟨hname, hmodes⟩ := Prod.mk.inj hentry
    exact Prod.ext hname (hmode.list_map (Json.array.inj hmodes))
  obtain rfl := hreceiver.list_map hreceivers
  obtain rfl := hfavorite.list_map hfavorites
  rfl

/-- Two configurations with one `ETag`. -/
theorem eq_or_collides (hjson : Function.Injective env.json) (h : etagOf env config = etagOf env other) :
    config = other ∨ Collides env config other := by
  have hdigest : env.sha256 (env.json (configJson config)) = env.sha256 (env.json (configJson other)) := by
    unfold etagOf at h
    rw [String.append_left_inj, String.append_right_inj] at h
    have hhex := congrArg fromHex h
    rw [fromHex_toHex, fromHex_toHex] at hhex
    exact Option.some.inj hhex
  by_cases hsame : env.json (configJson config) = env.json (configJson other)
  · exact .inl (configJson_injective (hjson hsame))
  · exact .inr ⟨hdigest, hsame⟩

end Etag

end DenonAvr.Infrastructure
