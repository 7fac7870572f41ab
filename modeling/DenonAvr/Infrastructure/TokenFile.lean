import DenonAvr.Infrastructure.AuditLine

/-!
# The token file

The tokens the server has issued, each with the digest of its secret, and the file that holds them. What was written
is read back as the tokens it was written from, as long as they keep the rules that reading checks (`Sound`).
-/

namespace DenonAvr.Infrastructure

open Domain Application Library Policy
open Library.Json (get ofFields orNull hexChar)

/-! ### Tokens -/

/-- A SHA-256. -/
abbrev TokenDigest := {bytes : List UInt8 // bytes.length = 32}

structure TokenRecord where
  id : TokenId
  label : AgentLabel
  created : WallTime
  revoked : Option WallTime
deriving DecidableEq

def TokenRecord.isActive (record : TokenRecord) : Bool := record.revoked.isNone

/-- `Entry`. -/
structure TokenEntry where
  record : TokenRecord
  digest : TokenDigest
deriving DecidableEq

/-- A token as the file has it. -/
structure Stored where
  id : String
  label : String
  createdMs : ℕ
  revokedMs : Option ℕ
  digest : String
deriving DecidableEq

def toHex (bytes : List UInt8) : String :=
  String.ofList (bytes.flatMap fun byte => [hexChar (byte.toNat / 16), hexChar (byte.toNat % 16)])

def fromHex (text : String) : Option TokenDigest :=
  (hexBytes text.toList).bind fun bytes => if h : bytes.length = 32 then some ⟨bytes, h⟩ else none

/-- `Entry::stored`. -/
def TokenEntry.stored (entry : TokenEntry) : Stored :=
  { id := entry.record.id.value, label := entry.record.label.value, createdMs := entry.record.created,
    revokedMs := entry.record.revoked, digest := toHex entry.digest.val }

/-! ### The text -/

def formatVersion : ℕ := 1

/-- What is written to `agent-tokens.json`. -/
structure TokenFile where
  version : ℕ
  tokens : List Stored
deriving DecidableEq

def storedFields (stored : Stored) : List (String × Json) :=
  [("id", .string stored.id),
    ("label", .string stored.label),
    ("created_ms", .number stored.createdMs),
    ("revoked_ms", orNull (fun time : ℕ => .number time) stored.revokedMs),
    ("digest", .string stored.digest)]

def fileFields (file : TokenFile) : List (String × Json) :=
  [("version", .number file.version),
    ("tokens", .array (file.tokens.map fun stored => .object (ofFields (storedFields stored))))]

/-- A field that may be missing. -/
def optionalNat (fields : List (String × Json)) (key : String) : Option (Option ℕ) :=
  ((get fields key).elim (some none)) (unlessNull Json.asNat)

def decodeStored (value : Json) : Option Stored := do
  let fields ← value.asObject
  let id ← (← get fields "id").asStr
  let label ← (← get fields "label").asStr
  let createdMs ← (← get fields "created_ms").asNat
  let revokedMs ← optionalNat fields "revoked_ms"
  let digest ← (← get fields "digest").asStr
  return { id, label, createdMs, revokedMs, digest }

def decodeFile (value : Json) : Option TokenFile := do
  let fields ← value.asObject
  let version ← asU32 (← get fields "version")
  let items ← (← get fields "tokens").asArray
  let tokens ← items.mapM decodeStored
  return { version, tokens }

/-- The text that a save writes. -/
def fileText (json : JsonText) (tokens : List Stored) : List Char :=
  json.write (.object (ofFields (fileFields ⟨formatVersion, tokens⟩))) ++ ['\n']

/-- Why the file cannot be used. -/
def malformed (why : String) : String := "agent-tokens.json cannot be used (" ++ why ++ "); it was not replaced"

/-- The rules for one more token. -/
def readToken (entries : List TokenEntry) (stored : Stored) : Except String (List TokenEntry) := do
  let label ← ((agentLabel stored.label).filter fun label => labelIsWellFormed label.value).elim
    (.error (malformed "a token has a label outside the label rule")) .ok
  let id ← (tokenId stored.id).elim
    (.error (malformed "a token id is \"t-\" and eight lowercase hexadecimal digits")) .ok
  let record : TokenRecord := { id, label, created := stored.createdMs, revoked := stored.revokedMs }
  let digest ← (fromHex stored.digest).elim (.error (malformed "a digest is not 64 hexadecimal digits")) .ok
  if entries.any fun entry => entry.record.id == record.id then .error (malformed "two tokens have one id")
  else if record.isActive && entries.any fun entry => entry.record.isActive && entry.record.label == record.label then
    .error (malformed "two active tokens have one label")
  else .ok (entries ++ [⟨record, digest⟩])

/-- `read_entries`, of a file that can be read. -/
def readEntriesOf (json : JsonText) : Option (List Char) → Except String (List TokenEntry)
  | none => .ok []
  | some text =>
    match (json.read text).bind decodeFile with
    | none => .error (malformed "it is not the JSON of a token file")
    | some file =>
      if file.version ≠ formatVersion then .error (malformed ("version " ++ toString file.version ++ " is not known"))
      else file.tokens.foldlM readToken []

/-! ### What was written is read back -/

/-- `serde_json` reads the file that a save wrote. -/
def ReadsBack (json : JsonText) : Prop :=
  ∀ tokens, json.read (fileText json tokens) = some (.object (ofFields (fileFields ⟨formatVersion, tokens⟩)))

/-- The rules that the tokens of a file keep. -/
structure Sound (entries : List TokenEntry) : Prop where
  labels : ∀ entry ∈ entries, labelIsWellFormed entry.record.label.value = true
  ids : (entries.map fun entry => entry.record.id).Nodup
  active : ((entries.filter fun entry => entry.record.isActive).map fun entry => entry.record.label).Nodup

section Text
variable {json : JsonText} {entries done : List TokenEntry} {entry : TokenEntry} {stored : Stored}

theorem elim_eq_ok {ε α : Type} {x : Option α} {error : ε} {a : α} :
    x.elim (Except.error error) Except.ok = .ok a ↔ x = some a := by
  cases x <;> simp

theorem fromHex_toHex (digest : TokenDigest) : fromHex (toHex digest.val) = some digest := digestOfText_digestText digest

theorem storedFields_nodup (stored : Stored) : ((storedFields stored).map Prod.fst).Nodup := by simp [storedFields]

theorem fileFields_nodup (file : TokenFile) : ((fileFields file).map Prod.fst).Nodup := by simp [fileFields]

theorem decodeStored_storedFields (stored : Stored) :
    decodeStored (.object (ofFields (storedFields stored))) = some stored := by
  have hget : ∀ key, get (ofFields (storedFields stored)) key = (storedFields stored).lookup key :=
    Json.get_ofFields (storedFields_nodup stored)
  have hrevoked := unlessNull_orNull Json.asNat (fun time : ℕ => .number time) id stored.revokedMs (by simp) (by simp)
  unfold decodeStored optionalNat
  simp only [Json.asObject_object, Option.bind_eq_bind, Option.bind_some, hget]
  simp [storedFields, List.lookup_cons, hrevoked]

theorem decodeFile_fileFields {file : TokenFile} (h : file.version < 2 ^ 32) :
    decodeFile (.object (ofFields (fileFields file))) = some file := by
  have hget : ∀ key, get (ofFields (fileFields file)) key = (fileFields file).lookup key :=
    Json.get_ofFields (fileFields_nodup file)
  have htokens : (file.tokens.map fun stored => Json.object (ofFields (storedFields stored))).mapM decodeStored =
      some file.tokens := by
    induction file.tokens with
    | nil => rfl
    | cons stored rest ih => simp [decodeStored_storedFields, ih]
  unfold decodeFile
  simp only [Json.asObject_object, Option.bind_eq_bind, Option.bind_some, hget]
  simp [fileFields, List.lookup_cons, asU32_number h, htokens]

theorem Sound.sublist (h : Sound entries) (hsub : done.Sublist entries) : Sound done :=
  ⟨fun entry hentry => h.labels entry (hsub.subset hentry), h.ids.sublist (hsub.map _),
    h.active.sublist ((hsub.filter _).map _)⟩

/-- One more token is within the rules: its label is well-formed, its id is new, and no other token is active under
its label if it is active. -/
theorem sound_concat :
    Sound (entries ++ [entry]) ↔
      Sound entries ∧ labelIsWellFormed entry.record.label.value = true ∧
        (∀ other ∈ entries, other.record.id ≠ entry.record.id) ∧
        (entry.record.isActive = true →
          ∀ other ∈ entries, other.record.isActive = true → other.record.label ≠ entry.record.label) := by
  constructor
  · intro h
    refine ⟨h.sublist (List.sublist_append_left _ _), h.labels entry (by simp), ?_, ?_⟩
    · have hids := h.ids
      rw [List.map_append, List.nodup_append] at hids
      exact fun other hother => hids.2.2 _ (List.mem_map_of_mem hother) _ (by simp)
    · intro hactive other hother hother'
      have hlabels := h.active
      rw [List.filter_append, List.map_append, List.nodup_append] at hlabels
      refine hlabels.2.2 _ (List.mem_map_of_mem (List.mem_filter.mpr ⟨hother, hother'⟩)) _ ?_
      simp [hactive]
  · rintro ⟨h, hlabel, hid, hactive⟩
    refine ⟨?_, ?_, ?_⟩
    · intro other hother
      obtain hother | hother := List.mem_append.mp hother
      · exact h.labels other hother
      · rw [List.mem_singleton.mp hother]
        exact hlabel
    · rw [List.map_append, List.nodup_append]
      refine ⟨h.ids, by simp, fun a ha b hb => ?_⟩
      obtain ⟨other, hother, rfl⟩ := List.mem_map.mp ha
      rw [List.map_singleton, List.mem_singleton] at hb
      rw [hb]
      exact hid other hother
    · rw [List.filter_append, List.map_append, List.nodup_append]
      refine ⟨h.active, ?_, fun a ha b hb => ?_⟩
      · rw [List.filter_singleton]
        cases entry.record.isActive <;> simp
      · obtain ⟨other, hother, rfl⟩ := List.mem_map.mp ha
        obtain ⟨last, hlast, rfl⟩ := List.mem_map.mp hb
        obtain ⟨hother, hother'⟩ := List.mem_filter.mp hother
        obtain ⟨hlast, hlast'⟩ := List.mem_filter.mp hlast
        obtain rfl := List.mem_singleton.mp hlast
        exact hactive hlast' other hother hother'

/-- The rules, as reading checks them. -/
theorem readToken_stored (h : Sound (entries ++ [entry])) : readToken entries entry.stored = .ok (entries ++ [entry]) := by
  obtain ⟨-, hlabel, hid, hactive⟩ := sound_concat.mp h
  have hsameId : (entries.any fun other => other.record.id == entry.record.id) = false := by
    rw [List.any_eq_false]
    exact fun other hother heq => hid other hother (eq_of_beq heq)
  have hsameLabel : (entry.record.isActive && entries.any fun other =>
      other.record.isActive && other.record.label == entry.record.label) = false := by
    rw [Bool.and_eq_false_imp]
    intro hentry
    rw [List.any_eq_false]
    intro other hother hboth
    rw [Bool.and_eq_true] at hboth
    exact hactive hentry other hother hboth.1 (eq_of_beq hboth.2)
  unfold readToken TokenEntry.stored
  simp only [agentLabel_value, tokenId_value, fromHex_toHex, Option.filter_some, hlabel, ↓reduceIte, Option.elim_some]
  show (if (entries.any fun other => other.record.id == entry.record.id) = true then _ else
    if (entry.record.isActive && entries.any fun other =>
      other.record.isActive && other.record.label == entry.record.label) = true then _ else _) = _
  rw [hsameId, hsameLabel]
  rfl

theorem readTokens_stored (h : Sound (done ++ entries)) :
    (entries.map TokenEntry.stored).foldlM readToken done = .ok (done ++ entries) := by
  induction entries generalizing done with
  | nil => rw [List.append_nil]; rfl
  | cons entry entries ih =>
    rw [List.append_cons] at h ⊢
    rw [List.map_cons, List.foldlM_cons, readToken_stored (h.sublist (List.sublist_append_left _ _))]
    exact ih h

/-- **The token file is read back** as the tokens it was written from. -/
theorem readEntriesOf_fileText (hjson : ReadsBack json) (h : Sound entries) :
    readEntriesOf json (some (fileText json (entries.map TokenEntry.stored))) = .ok entries := by
  have hread : (json.read (fileText json (entries.map TokenEntry.stored))).bind decodeFile =
      some ⟨formatVersion, entries.map TokenEntry.stored⟩ := by
    rw [hjson, Option.bind_some]
    exact decodeFile_fileFields (by show formatVersion < 2 ^ 32; decide)
  unfold readEntriesOf
  dsimp only
  rw [hread]
  show (if formatVersion ≠ formatVersion then _ else _) = _
  rw [if_neg (fun hne => hne rfl)]
  exact readTokens_stored (by rwa [List.nil_append])

/-- What is read keeps the rules, whatever the file holds. -/
theorem sound_readToken (h : Sound done) (hread : readToken done stored = .ok entries) : Sound entries := by
  unfold readToken at hread
  obtain ⟨label, hlabel, hread⟩ := bind_eq_ok.mp hread
  obtain ⟨id, -, hread⟩ := bind_eq_ok.mp hread
  obtain ⟨digest, -, hread⟩ := bind_eq_ok.mp hread
  obtain ⟨-, hwell⟩ := Option.filter_eq_some_iff.mp (elim_eq_ok.mp hlabel)
  split_ifs at hread with hsameId hsameLabel
  obtain rfl := Except.ok.inj hread
  refine sound_concat.mpr ⟨h, hwell, ?_, ?_⟩
  · intro other hother heq
    exact hsameId (List.any_eq_true.mpr ⟨other, hother, beq_iff_eq.mpr heq⟩)
  · intro hactive other hother hother' heq
    refine hsameLabel (Bool.and_eq_true_iff.mpr ⟨hactive, List.any_eq_true.mpr ⟨other, hother, ?_⟩⟩)
    exact Bool.and_eq_true_iff.mpr ⟨hother', beq_iff_eq.mpr heq⟩

theorem sound_readTokens {tokens : List Stored} (h : Sound done)
    (hread : tokens.foldlM readToken done = .ok entries) : Sound entries := by
  induction tokens generalizing done with
  | nil =>
    obtain rfl := Except.ok.inj hread
    exact h
  | cons stored tokens ih =>
    rw [List.foldlM_cons] at hread
    cases hfirst : readToken done stored with
    | error why =>
      rw [hfirst] at hread
      cases hread
    | ok next =>
      rw [hfirst] at hread
      exact ih (sound_readToken h hfirst) hread

theorem sound_nil : Sound [] := ⟨by simp, by simp, by simp⟩

theorem sound_readEntriesOf {text : Option (List Char)} (h : readEntriesOf json text = .ok entries) : Sound entries := by
  unfold readEntriesOf at h
  cases text with
  | none =>
    obtain rfl := Except.ok.inj h
    exact sound_nil
  | some text =>
    dsimp only at h
    split at h
    · cases h
    · split_ifs at h
      exact sound_readTokens sound_nil h

end Text

section Example

/-- A library that reads what `canonical` writes, with blanks behind it. -/
def blanksDropped : JsonText :=
  ⟨Json.canonical.write, fun text => Json.canonical.read (text.reverse.dropWhile isJsonBlank).reverse⟩

theorem blanksDropped_readsBack : ReadsBack blanksDropped := by
  intro tokens
  unfold fileText
  generalize ofFields (fileFields ⟨formatVersion, tokens⟩) = fields
  obtain ⟨body, hbody⟩ := Json.canonical_write_object fields
  have hread : Json.canonical.read (Json.canonical.write (.object fields)) = some (.object fields) :=
    Json.canonical_read_render (.object fields)
  show Json.canonical.read ((Json.canonical.write (.object fields) ++ ['\n']).reverse.dropWhile isJsonBlank).reverse = _
  rw [hbody] at hread ⊢
  have hdrop : (('{' :: body ++ ['}'] ++ ['\n']).reverse.dropWhile isJsonBlank).reverse = '{' :: body ++ ['}'] := by
    rw [List.reverse_append, List.reverse_singleton, List.singleton_append, List.dropWhile_cons_of_pos (by decide),
      List.reverse_append, List.reverse_singleton, List.singleton_append, List.dropWhile_cons_of_neg (by decide),
      List.reverse_cons, List.reverse_reverse]
  rw [hdrop]
  exact hread

end Example

end DenonAvr.Infrastructure
