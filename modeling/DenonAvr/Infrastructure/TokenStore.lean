import DenonAvr.Infrastructure.TokenFile
import DenonAvr.Library.Machine

/-!
# The token store

Issuing, revoking and the credential check, over the store's memory and its file. A save writes the whole file beside
the old one and renames it into place (`save_spec`), and the memory changes after the save only.

`tokenStore` is a store under calls that run to their end, one after the other, with a failure possible at each save
and a crash at any point of one. In every state it reaches, opening the file gives the store that is in memory.
-/

namespace DenonAvr.Infrastructure

open Domain Application Library Policy

/-! ### The disk -/

/-- The credentials directory, as far as `write_atomically` uses it. A name stands for a file, or for none; a file that
has lost its name can still be written by who has it open. -/
structure Disk where
  /-- `agent-tokens.json`. -/
  file : Option ℕ
  /-- `agent-tokens.json.tmp`. -/
  temporary : Option ℕ
  /-- What each file holds. -/
  contents : List (List Char)
deriving DecidableEq

namespace Disk

/-- What is read at `agent-tokens.json`. -/
def text? (disk : Disk) : Option (List Char) := disk.file.bind fun file => disk.contents[file]?

def removeTemporary (disk : Disk) : Disk := { disk with temporary := none }

/-- `create_private`: the temporary file must not be there. -/
def createTemporary (disk : Disk) : Option (ℕ × Disk) :=
  if disk.temporary = none then
    some (disk.contents.length,
      { disk with temporary := some disk.contents.length, contents := disk.contents ++ [[]] })
  else none

def writeTo (file : ℕ) (text : List Char) (disk : Disk) : Disk :=
  { disk with contents := disk.contents.modify file (· ++ text) }

/-- `fs::rename`: what had the name is gone. -/
def renameTemporary (disk : Disk) : Option Disk :=
  disk.temporary.map fun file => { disk with file := some file, temporary := none }

/-- The name stands for a file that is there. -/
def Valid (disk : Disk) : Prop := ∀ file, disk.file = some file → file < disk.contents.length

end Disk

/-- Where a save stops, short of the rename. -/
inductive SaveFault
  /-- The temporary file could not be created, an old one having been removed or not. -/
  | creating (removed : Bool)
  /-- So much had been written. -/
  | writing (landed : ℕ)
  | renaming
deriving DecidableEq

/-- `write_atomically`, and whether it succeeded. -/
def save (text : List Char) (fault : Option SaveFault) (disk : Disk) : Disk × Bool :=
  match fault with
  | some (.creating removed) => (if removed then disk.removeTemporary else disk, false)
  | _ =>
    match disk.removeTemporary.createTemporary with
    | none => (disk.removeTemporary, false)
    | some (file, disk) =>
      match fault with
      | some (.writing landed) => (disk.writeTo file (text.take landed), false)
      | some _ => (disk.writeTo file text, false)
      | none => ((disk.writeTo file text).renameTemporary.getD (disk.writeTo file text), true)

section Disk
variable {disk : Disk} {file : ℕ} {text : List Char} {fault : Option SaveFault}

theorem valid_writeTo (hvalid : disk.Valid) : (disk.writeTo file text).Valid := by
  intro other hother
  show other < (disk.contents.modify file _).length
  rw [List.length_modify]
  exact hvalid other hother

theorem text?_writeTo (hother : disk.file ≠ some file) : (disk.writeTo file text).text? = disk.text? := by
  unfold Disk.text? Disk.writeTo
  cases hfile : disk.file with
  | none => rfl
  | some named =>
    have hne : file ≠ named := fun heq => hother (by rw [hfile, heq])
    rw [Option.bind_some, Option.bind_some, List.getElem?_modify_ne _ _ hne]

/-- A new file leaves what is in the others. -/
theorem createTemporary_spec (hvalid : disk.Valid) {created : Disk}
    (h : disk.createTemporary = some (file, created)) :
    created.Valid ∧ created.text? = disk.text? ∧ created.file ≠ some file ∧ created.temporary = some file ∧
      created.contents[file]? = some [] := by
  unfold Disk.createTemporary at h
  split_ifs at h
  obtain ⟨rfl, rfl⟩ := Prod.mk.inj (Option.some.inj h)
  refine ⟨?_, ?_, fun heq => (hvalid _ heq).false, rfl, by simp⟩
  · intro other hother
    have := hvalid other hother
    simp only [List.length_append, List.length_singleton]
    omega
  · unfold Disk.text?
    cases hfile : disk.file with
    | none => rfl
    | some named => rw [Option.bind_some, Option.bind_some, List.getElem?_append_left (hvalid named hfile)]

theorem renameTemporary_spec (htemporary : disk.temporary = some file) (hcontents : disk.contents[file]? = some text) :
    ∃ renamed, disk.renameTemporary = some renamed ∧ renamed.Valid ∧ renamed.text? = some text := by
  refine ⟨{ disk with file := some file, temporary := none }, by rw [Disk.renameTemporary, htemporary]; rfl, ?_,
    hcontents⟩
  intro other hother
  obtain rfl := Option.some.inj hother
  exact (List.getElem?_eq_some_iff.mp hcontents).1

/-- **A save** puts the text in place of what was in the file, or leaves what was there. -/
theorem save_spec (hvalid : disk.Valid) (text : List Char) (fault : Option SaveFault) :
    ∃ disk', save text fault disk = (disk', fault.isNone) ∧ disk'.Valid ∧
      disk'.text? = if fault = none then some text else disk.text? := by
  obtain ⟨file, created, hcreate⟩ : ∃ file created, disk.removeTemporary.createTemporary = some (file, created) :=
    ⟨_, _, if_pos rfl⟩
  obtain ⟨hcreated, htext, hother, htemporary, hempty⟩ := @createTemporary_spec disk.removeTemporary _ hvalid _ hcreate
  have hpart : ∀ part, (created.writeTo file part).Valid ∧ (created.writeTo file part).text? = disk.text? := fun part =>
    ⟨valid_writeTo hcreated, (text?_writeTo hother).trans htext⟩
  unfold save
  rw [hcreate]
  rcases fault with _ | (removed | landed | _)
  · have hfull : (created.writeTo file text).contents[file]? = some text := by
      show (created.contents.modify file _)[file]? = _
      rw [List.getElem?_modify_eq, hempty]
      rfl
    obtain ⟨renamed, hrename, hrenamed, htext⟩ := @renameTemporary_spec
      (created.writeTo file text) file text htemporary hfull
    refine ⟨renamed, ?_, hrenamed, htext⟩
    dsimp only
    rw [hrename]
    rfl
  · cases removed with
    | true => exact ⟨_, rfl, hvalid, rfl⟩
    | false => exact ⟨_, rfl, hvalid, rfl⟩
  · exact ⟨_, rfl, hpart _⟩
  · exact ⟨_, rfl, hpart _⟩

end Disk

/-! ### Secrets and ids -/

def agentPrefix : String := "dara_"
def operatorPrefix : String := "daro_"

def base64Alphabet : List Char := "ABCDEFGHIJKLMNOPQRSTUVWXYZabcdefghijklmnopqrstuvwxyz0123456789-_".toList

def base64Char (n : ℕ) : Char := base64Alphabet.getD (n % 64) 'A'

/-- Base64url without padding. -/
def base64url : List UInt8 → List Char
  | [] => []
  | [a] =>
    let n := a.toNat * 2 ^ 16
    [base64Char (n / 2 ^ 18), base64Char (n / 2 ^ 12)]
  | [a, b] =>
    let n := a.toNat * 2 ^ 16 + b.toNat * 2 ^ 8
    [base64Char (n / 2 ^ 18), base64Char (n / 2 ^ 12), base64Char (n / 2 ^ 6)]
  | a :: b :: c :: rest =>
    let n := a.toNat * 2 ^ 16 + b.toNat * 2 ^ 8 + c.toNat
    [base64Char (n / 2 ^ 18), base64Char (n / 2 ^ 12), base64Char (n / 2 ^ 6), base64Char n] ++ base64url rest

inductive TokenError
  | invalidLabel
  | labelInUse
  | notFound
  | storage (why : String)
deriving DecidableEq

/-- The secret that random bytes make. -/
def secretOf (pre : String) (random : List UInt8) : String := String.ofList (pre.toList ++ base64url random)

/-- `generate_secret`. There are no random bytes when the source of them failed. -/
def generateSecret (pre : String) (random : Option (List UInt8)) : Except TokenError String :=
  random.elim (.error (.storage "no random bytes")) fun bytes => .ok (secretOf pre bytes)

/-- The attempts of `fresh_id`, each with the bytes it draws. -/
def freshIdFrom (existing : List Stored) : List (Option (List UInt8)) → Except TokenError String
  | [] => .error (.storage "no unused token id was found")
  | none :: _ => .error (.storage "no random bytes")
  | some bytes :: rest =>
    let id := "t-" ++ toHex bytes
    if existing.all fun stored => decide (stored.id ≠ id) then .ok id else freshIdFrom existing rest

def freshId (existing : List Stored) (draws : List (Option (List UInt8))) : Except TokenError String :=
  freshIdFrom existing (draws.take 16)

/-! ### The store -/

/-- What the store is opened with. -/
structure TokenEnv where
  json : JsonText
  sha256 : String → TokenDigest
  /-- The secret in `operator.token`. -/
  operatorSecret : String

/-- The store's memory. -/
structure TokenStore where
  /-- Why the file could not be read. The store then has no tokens and refuses to issue or revoke. -/
  fault : Option String
  operatorDigest : TokenDigest
  entries : List TokenEntry
deriving DecidableEq

/-- `FileTokenStore::open`, after the operator's token was read or made. -/
def openStore (env : TokenEnv) (disk : Disk) : TokenStore :=
  match readEntriesOf env.json disk.text? with
  | .ok entries => { fault := none, operatorDigest := env.sha256 env.operatorSecret, entries }
  | .error why => { fault := some why, operatorDigest := env.sha256 env.operatorSecret, entries := [] }

structure IssuedToken where
  record : TokenRecord
  secret : String
deriving DecidableEq

/-- `issue` up to its save: what is to be written, the new token, and its secret. -/
def prepareIssue (env : TokenEnv) (store : TokenStore) (label : AgentLabel) (now : WallTime)
    (random : Option (List UInt8)) (draws : List (Option (List UInt8))) :
    Except TokenError (List Stored × TokenEntry × String) :=
  if labelIsWellFormed label.value = false then .error .invalidLabel
  else
    match store.fault with
    | some fault => .error (.storage fault)
    | none =>
      if store.entries.any fun entry => entry.record.label == label && entry.record.isActive then .error .labelInUse
      else do
        let next := store.entries.map TokenEntry.stored
        let secret ← generateSecret agentPrefix random
        let digest := env.sha256 secret
        let id ← freshId next draws
        let tokenId ← (tokenId id).elim (.error (.storage "an id could not be formed")) .ok
        let record : TokenRecord := { id := tokenId, label, created := now, revoked := none }
        return (next ++ [{ id, label := label.value, createdMs := now, revokedMs := none, digest := toHex digest.val }],
          ⟨record, digest⟩, secret)

def TokenStore.add (store : TokenStore) (entry : TokenEntry) : TokenStore :=
  { store with entries := store.entries ++ [entry] }

def writeFailed : TokenError := .storage "the file could not be written"

/-- `issue`. -/
def issue (env : TokenEnv) (disk : Disk) (store : TokenStore) (label : AgentLabel) (now : WallTime)
    (random : Option (List UInt8)) (draws : List (Option (List UInt8))) (fault : Option SaveFault) :
    Disk × TokenStore × Except TokenError IssuedToken :=
  match prepareIssue env store label now random draws with
  | .error error => (disk, store, .error error)
  | .ok (next, entry, secret) =>
    match save (fileText env.json next) fault disk with
    | (disk, true) => (disk, store.add entry, .ok ⟨entry.record, secret⟩)
    | (disk, false) => (disk, store, .error writeFailed)

/-- `revoke` up to its save: the token if it is revoked already, or what is to be written. -/
def prepareRevoke (store : TokenStore) (id : TokenId) (now : WallTime) :
    Except TokenError (TokenRecord ⊕ List Stored) :=
  match store.fault with
  | some fault => .error (.storage fault)
  | none =>
    match store.entries.find? fun entry => entry.record.id = id with
    | none => .error .notFound
    | some entry =>
      if entry.record.isActive = false then .ok (.inl entry.record)
      else
        .ok (.inr ((store.entries.map TokenEntry.stored).map fun stored =>
          if stored.id = id.value then { stored with revokedMs := some now } else stored))

/-- Mark the first token with this id. -/
def markRevoked (id : TokenId) (now : WallTime) : List TokenEntry → Option (TokenRecord × List TokenEntry)
  | [] => none
  | entry :: rest =>
    if entry.record.id = id then
      let record := { entry.record with revoked := some now }
      some (record, { entry with record } :: rest)
    else (markRevoked id now rest).map fun (record, rest) => (record, entry :: rest)

/-- `revoke` after its save. -/
def finishRevoke (store : TokenStore) (id : TokenId) (now : WallTime) : TokenStore × Except TokenError TokenRecord :=
  match markRevoked id now store.entries with
  | none => (store, .error .notFound)
  | some (record, entries) => ({ store with entries }, .ok record)

def revoke (env : TokenEnv) (disk : Disk) (store : TokenStore) (id : TokenId) (now : WallTime) (fault : Option SaveFault) :
    Disk × TokenStore × Except TokenError TokenRecord :=
  match prepareRevoke store id now with
  | .error error => (disk, store, .error error)
  | .ok (.inl record) => (disk, store, .ok record)
  | .ok (.inr next) =>
    match save (fileText env.json next) fault disk with
    | (disk, true) => (disk, finishRevoke store id now)
    | (disk, false) => (disk, store, .error writeFailed)

inductive Credential
  | agent (label : AgentLabel) (id : TokenId)
  | operatorToken
  | unknown
deriving DecidableEq

/-- `authenticate`. -/
def authenticate (env : TokenEnv) (store : TokenStore) (presented : String) : Credential :=
  let agent := agentPrefix.toList.isPrefixOf presented.toList
  let operator := operatorPrefix.toList.isPrefixOf presented.toList
  if !agent && !operator then .unknown
  else
    let digest := env.sha256 presented
    if operator then if digest = store.operatorDigest then .operatorToken else .unknown
    else
      let found := (store.entries.filter fun entry => entry.record.isActive).foldl
        (fun found entry => if digest = entry.digest then some (entry.record.label, entry.record.id) else found) none
      match found with
      | some (label, id) => .agent label id
      | none => .unknown

/-! ### Runs -/

structure TokenRun where
  disk : Disk
  store : TokenStore
  /-- The secrets generated so far. -/
  drawn : List String
  /-- The tokens whose `issue` succeeded, each with its secret. -/
  issued : List (TokenId × String)
  /-- The tokens whose `revoke` succeeded. -/
  revoked : List TokenId
deriving DecidableEq

inductive TokenAction
  | issue (label : AgentLabel) (now : WallTime) (random : Option (List UInt8)) (draws : List (Option (List UInt8)))
      (fault : Option SaveFault)
  | revoke (id : TokenId) (now : WallTime) (fault : Option SaveFault)
  /-- The process ends and another opens the store. -/
  | reopen
  /-- The process ends in the save of an `issue`, at `point` or right after the rename. -/
  | crashIssue (label : AgentLabel) (now : WallTime) (random : Option (List UInt8))
      (draws : List (Option (List UInt8))) (point : Option SaveFault)
  | crashRevoke (id : TokenId) (now : WallTime) (point : Option SaveFault)

/-- Random bytes make a secret that was not made before, and SHA-256 tells it from those that were and from those of the
tokens in the store. -/
def FreshSecret (env : TokenEnv) (run : TokenRun) (random : Option (List UInt8)) : Prop :=
  ∀ bytes ∈ random.toList,
    (∀ secret ∈ run.drawn, env.sha256 secret ≠ env.sha256 (secretOf agentPrefix bytes)) ∧
      ∀ entry ∈ run.store.entries, entry.digest ≠ env.sha256 (secretOf agentPrefix bytes)

instance (env : TokenEnv) (run : TokenRun) (random : Option (List UInt8)) : Decidable (FreshSecret env run random) :=
  inferInstanceAs (Decidable (∀ bytes ∈ random.toList, _ ∧ _))

/-- The disk after a crash in the save of `next`. -/
def crashed (env : TokenEnv) (disk : Disk) (next : Option (List Stored)) (point : Option SaveFault) : Disk :=
  next.elim disk fun next => (save (fileText env.json next) point disk).1

def drawnWith (run : TokenRun) (random : Option (List UInt8)) : List String :=
  run.drawn ++ random.toList.map (secretOf agentPrefix)

/-- What an `issue` would write. -/
def issueWrites (env : TokenEnv) (store : TokenStore) (label : AgentLabel) (now : WallTime)
    (random : Option (List UInt8)) (draws : List (Option (List UInt8))) : Option (List Stored) :=
  (prepareIssue env store label now random draws).toOption.map Prod.fst

def revokeWrites (store : TokenStore) (id : TokenId) (now : WallTime) : Option (List Stored) :=
  (prepareRevoke store id now).toOption.bind Sum.getRight?

/-- The store on a file that may hold anything when it is first opened. -/
def tokenStore (env : TokenEnv) : Machine TokenRun TokenAction where
  init := fun run => ∃ disk : Disk, disk.Valid ∧ run = ⟨disk, openStore env disk, [], [], []⟩
  step := fun run action =>
    match action with
    | .issue label now random draws fault =>
      if FreshSecret env run random then
        let (disk, store, result) := issue env run.disk run.store label now random draws fault
        some { run with
          disk, store,
          drawn := drawnWith run random,
          issued := run.issued ++ result.toOption.toList.map fun issued => (issued.record.id, issued.secret) }
      else none
    | .revoke id now fault =>
      let (disk, store, result) := revoke env run.disk run.store id now fault
      some { run with disk, store, revoked := run.revoked ++ result.toOption.toList.map TokenRecord.id }
    | .reopen => some { run with store := openStore env run.disk }
    | .crashIssue label now random draws point =>
      if FreshSecret env run random then
        let disk := crashed env run.disk (issueWrites env run.store label now random draws) point
        some { run with disk, store := openStore env disk, drawn := drawnWith run random }
      else none
    | .crashRevoke id now point =>
      let disk := crashed env run.disk (revokeWrites run.store id now) point
      some { run with disk, store := openStore env disk }

/-! ### What is prepared -/

section Prepare
variable {env : TokenEnv} {store : TokenStore} {label : AgentLabel} {id : TokenId} {now : WallTime}
  {random : Option (List UInt8)} {draws : List (Option (List UInt8))} {next existing : List Stored}
  {entries : List TokenEntry} {entry : TokenEntry} {secret text : String}

theorem not_mem_of_freshIdFrom {attempts : List (Option (List UInt8))} (h : freshIdFrom existing attempts = .ok text) :
    ∀ stored ∈ existing, stored.id ≠ text := by
  induction attempts with
  | nil => cases h
  | cons draw rest ih =>
    cases draw with
    | none => cases h
    | some bytes =>
      unfold freshIdFrom at h
      dsimp only at h
      split_ifs at h with hunused
      · obtain rfl := Except.ok.inj h
        exact fun stored hstored => of_decide_eq_true (List.all_eq_true.mp hunused stored hstored)
      · exact ih h

/-- What an `issue` writes: the tokens there are and a new one, with an id of its own. -/
theorem prepareIssue_spec (hsound : Sound store.entries)
    (h : prepareIssue env store label now random draws = .ok (next, entry, secret)) :
    store.fault = none ∧ Sound (store.entries ++ [entry]) ∧ next = (store.entries ++ [entry]).map TokenEntry.stored ∧
      random.map (secretOf agentPrefix) = some secret ∧ entry.digest = env.sha256 secret ∧
      entry.record.isActive = true := by
  unfold prepareIssue at h
  split at h
  · cases h
  rename_i hlabel
  split at h
  · cases h
  rename_i hfault
  split at h
  · cases h
  rename_i hused
  obtain ⟨drawn, hdrawn, h⟩ := bind_eq_ok.mp h
  obtain ⟨id, hid, h⟩ := bind_eq_ok.mp h
  obtain ⟨token, htoken, h⟩ := bind_eq_ok.mp h
  obtain ⟨rfl, rfl, rfl⟩ : _ ∧ _ ∧ _ := by simpa using Except.ok.inj h
  have hvalue : token.value = id := by
    have hsome := elim_eq_ok.mp htoken
    unfold tokenId at hsome
    split_ifs at hsome
    rw [← Option.some.inj hsome]
  have hunused := not_mem_of_freshIdFrom hid
  refine ⟨hfault, sound_concat.mpr ⟨hsound, by simpa using hlabel, ?_, ?_⟩, ?_, ?_, rfl, rfl⟩
  · intro other hother heq
    refine hunused other.stored (List.mem_map_of_mem hother) ?_
    rw [← hvalue]
    exact congrArg TokenId.value heq
  · intro _ other hother hactive heq
    exact hused (List.any_eq_true.mpr ⟨other, hother, Bool.and_eq_true_iff.mpr ⟨beq_iff_eq.mpr heq, hactive⟩⟩)
  · rw [List.map_append, List.map_singleton]
    unfold TokenEntry.stored
    rw [hvalue]
  · unfold generateSecret at hdrawn
    cases random with
    | none => cases hdrawn
    | some bytes => rw [← Except.ok.inj hdrawn]; rfl

/-- The token, revoked if it is the one with this id. -/
def revokedAt (id : TokenId) (now : WallTime) (entry : TokenEntry) : TokenEntry :=
  if entry.record.id = id then { entry with record := { entry.record with revoked := some now } } else entry

theorem revokedAt_id (entry : TokenEntry) : (revokedAt id now entry).record.id = entry.record.id := by
  unfold revokedAt
  split_ifs <;> rfl

theorem revokedAt_label (entry : TokenEntry) : (revokedAt id now entry).record.label = entry.record.label := by
  unfold revokedAt
  split_ifs <;> rfl

theorem revokedAt_digest (entry : TokenEntry) : (revokedAt id now entry).digest = entry.digest := by
  unfold revokedAt
  split_ifs <;> rfl

theorem isActive_revokedAt (entry : TokenEntry) :
    (revokedAt id now entry).record.isActive = (entry.record.isActive && !decide (entry.record.id = id)) := by
  unfold revokedAt TokenRecord.isActive
  split_ifs with h <;> simp [h]

theorem stored_revokedAt (entry : TokenEntry) :
    (revokedAt id now entry).stored =
      if entry.stored.id = id.value then { entry.stored with revokedMs := some now } else entry.stored := by
  have hiff : entry.stored.id = id.value ↔ entry.record.id = id := by
    refine ⟨fun h => ?_, fun h => congrArg TokenId.value h⟩
    obtain ⟨value, hvalue⟩ := id
    obtain ⟨⟨⟨other, hother⟩, label, created, revoked⟩, digest⟩ := entry
    obtain rfl : other = value := h
    rfl
  unfold revokedAt
  by_cases h : entry.record.id = id
  · rw [if_pos h, if_pos (hiff.mpr h)]
    rfl
  · rw [if_neg h, if_neg fun heq => h (hiff.mp heq)]

theorem sound_revokedAt (h : Sound entries) : Sound (entries.map (revokedAt id now)) := by
  refine ⟨?_, ?_, ?_⟩
  · intro entry hentry
    obtain ⟨other, hother, rfl⟩ := List.mem_map.mp hentry
    rw [revokedAt_label]
    exact h.labels other hother
  · rw [List.map_map]
    exact (List.map_congr_left fun entry _ => revokedAt_id entry) ▸ h.ids
  · have hsub : (((entries.map (revokedAt id now)).filter fun entry => entry.record.isActive).map
        fun entry => entry.record.label).Sublist
          ((entries.filter fun entry => entry.record.isActive).map fun entry => entry.record.label) := by
      rw [List.filter_map, List.map_map]
      have hlabels : ((fun entry : TokenEntry => entry.record.label) ∘ revokedAt id now) =
          fun entry => entry.record.label := funext revokedAt_label
      rw [hlabels]
      refine List.Sublist.map _ (List.monotone_filter_right _ fun entry hactive => ?_)
      rw [Function.comp_apply, isActive_revokedAt, Bool.and_eq_true] at hactive
      exact hactive.1
    exact h.active.sublist hsub

theorem markRevoked_spec (hids : (entries.map fun entry => entry.record.id).Nodup)
    (hfind : (entries.find? fun entry => entry.record.id = id) = some entry) :
    markRevoked id now entries = some ({ entry.record with revoked := some now }, entries.map (revokedAt id now)) := by
  induction entries with
  | nil => cases hfind
  | cons first rest ih =>
    obtain ⟨hfirst, hrest⟩ := List.nodup_cons.mp hids
    unfold markRevoked
    by_cases hid : first.record.id = id
    · rw [List.find?_cons_of_pos (by simpa using hid)] at hfind
      obtain rfl := Option.some.inj hfind
      have hsame : rest.map (revokedAt id now) = rest := by
        refine (List.map_congr_left fun other hother => if_neg fun heq => hfirst ?_).trans (List.map_id _)
        show first.record.id ∈ _
        rw [hid, ← heq]
        exact List.mem_map_of_mem hother
      rw [if_pos hid, List.map_cons, hsame]
      simp [revokedAt, hid]
    · rw [List.find?_cons_of_neg (by simpa using hid)] at hfind
      rw [if_neg hid, ih hrest hfind, List.map_cons]
      simp [revokedAt, hid]

/-- What a `revoke` finds: the token, which is revoked already or is revoked in what it writes. -/
theorem prepareRevoke_eq_ok {prepared : TokenRecord ⊕ List Stored} (h : prepareRevoke store id now = .ok prepared) :
    store.fault = none ∧ ∃ entry, store.entries.find? (fun entry => entry.record.id = id) = some entry ∧
      prepared = if entry.record.isActive = false then .inl entry.record
        else .inr ((store.entries.map TokenEntry.stored).map fun stored =>
          if stored.id = id.value then { stored with revokedMs := some now } else stored) := by
  unfold prepareRevoke at h
  split at h
  · cases h
  rename_i hfault
  split at h
  · cases h
  rename_i entry hfind
  refine ⟨hfault, entry, hfind, ?_⟩
  split_ifs at h ⊢ with hactive
  · exact (Except.ok.inj h).symm
  · exact (Except.ok.inj h).symm

theorem prepareRevoke_done {record : TokenRecord} (h : prepareRevoke store id now = .ok (.inl record)) :
    store.fault = none ∧ ∃ entry ∈ store.entries, entry.record.id = id ∧ entry.record.isActive = false ∧
      entry.record = record := by
  obtain ⟨hfault, entry, hfind, hprepared⟩ := prepareRevoke_eq_ok h
  split_ifs at hprepared with hactive
  exact ⟨hfault, entry, List.mem_of_find?_eq_some hfind, by simpa using List.find?_some hfind, hactive,
    (Sum.inl.inj hprepared).symm⟩

/-- What a `revoke` writes: the tokens there are, one of them revoked. -/
theorem prepareRevoke_spec (hsound : Sound store.entries) (h : prepareRevoke store id now = .ok (.inr next)) :
    store.fault = none ∧ next = (store.entries.map (revokedAt id now)).map TokenEntry.stored ∧
      (∃ entry ∈ store.entries, entry.record.id = id) ∧
        ∃ record, record.id = id ∧
          finishRevoke store id now = ({ store with entries := store.entries.map (revokedAt id now) }, .ok record) := by
  obtain ⟨hfault, entry, hfind, hprepared⟩ := prepareRevoke_eq_ok h
  split_ifs at hprepared
  obtain rfl := Sum.inr.inj hprepared
  have hid : entry.record.id = id := by simpa using List.find?_some hfind
  refine ⟨hfault, ?_, ⟨entry, List.mem_of_find?_eq_some hfind, hid⟩,
    { entry.record with revoked := some now }, hid, ?_⟩
  · rw [List.map_map, List.map_map]
    exact List.map_congr_left fun entry _ => (stored_revokedAt entry).symm
  · unfold finishRevoke
    rw [markRevoked_spec hsound.ids hfind]

end Prepare

/-! ### What an operation does -/

section Operation
variable {env : TokenEnv} {disk disk' : Disk} {store : TokenStore} {label : AgentLabel} {id : TokenId} {now : WallTime}
  {random : Option (List UInt8)} {draws : List (Option (List UInt8))} {fault point : Option SaveFault}
  {entries : List TokenEntry}

/-- Opening looks at what is in the file only. -/
theorem openStore_congr (h : disk'.text? = disk.text?) : openStore env disk' = openStore env disk := by
  unfold openStore
  rw [h]

theorem openStore_of_ok (h : readEntriesOf env.json disk.text? = .ok entries) :
    openStore env disk = ⟨none, env.sha256 env.operatorSecret, entries⟩ := by
  unfold openStore
  rw [h]

theorem readEntriesOf_of_openStore (hopen : openStore env disk = store) (hfault : store.fault = none) :
    readEntriesOf env.json disk.text? = .ok store.entries := by
  subst hopen
  unfold openStore at hfault ⊢
  cases hread : readEntriesOf env.json disk.text? with
  | ok entries => rfl
  | error why =>
    rw [hread] at hfault
    cases hfault

theorem sound_openStore (env : TokenEnv) (disk : Disk) : Sound (openStore env disk).entries := by
  unfold openStore
  cases hread : readEntriesOf env.json disk.text? with
  | ok entries => exact sound_readEntriesOf hread
  | error why => exact sound_nil

theorem operatorDigest_openStore (env : TokenEnv) (disk : Disk) :
    (openStore env disk).operatorDigest = env.sha256 env.operatorSecret := by
  unfold openStore
  cases readEntriesOf env.json disk.text? <;> rfl

/-- Opening a file with these tokens. -/
theorem openStore_fileText (hjson : ReadsBack env.json) (hopen : openStore env disk = store) (hfault : store.fault = none)
    (hsound : Sound entries) (htext : disk'.text? = some (fileText env.json (entries.map TokenEntry.stored))) :
    openStore env disk' = { store with entries } := by
  have hdigest : store.operatorDigest = env.sha256 env.operatorSecret := hopen ▸ operatorDigest_openStore env disk
  obtain ⟨fault, digest, held⟩ := store
  obtain rfl : fault = none := hfault
  obtain rfl : digest = env.sha256 env.operatorSecret := hdigest
  exact openStore_of_ok (htext ▸ readEntriesOf_fileText hjson hsound)

variable (label now random draws fault) in
/-- **`issue`** fails and changes nothing that is read, or adds a token to the memory and the file. -/
theorem issue_cases (hjson : ReadsBack env.json) (hvalid : disk.Valid) (hopen : openStore env disk = store) :
    (∃ disk' error, issue env disk store label now random draws fault = (disk', store, .error error) ∧ disk'.Valid ∧
        disk'.text? = disk.text?) ∨
      ∃ disk' next entry secret, prepareIssue env store label now random draws = .ok (next, entry, secret) ∧
        issue env disk store label now random draws fault = (disk', store.add entry, .ok ⟨entry.record, secret⟩) ∧
          store.fault = none ∧ disk'.Valid ∧ openStore env disk' = store.add entry := by
  have hsound : Sound store.entries := hopen ▸ sound_openStore env disk
  unfold issue
  cases hprepare : prepareIssue env store label now random draws with
  | error error => exact .inl ⟨disk, error, rfl, hvalid, rfl⟩
  | ok prepared =>
    obtain ⟨next, entry, secret⟩ := prepared
    obtain ⟨hfault, hnext, rfl, -, -⟩ := prepareIssue_spec hsound hprepare
    obtain ⟨disk', hsave, hvalid', htext⟩ := save_spec hvalid
      (fileText env.json ((store.entries ++ [entry]).map TokenEntry.stored)) fault
    dsimp only
    rw [hsave]
    cases fault with
    | some fault => exact .inl ⟨disk', _, rfl, hvalid', htext⟩
    | none =>
      refine .inr ⟨disk', _, entry, secret, rfl, rfl, hfault, hvalid', ?_⟩
      exact openStore_fileText hjson hopen hfault hnext htext

variable (id now fault) in
theorem revoke_cases (hjson : ReadsBack env.json) (hvalid : disk.Valid) (hopen : openStore env disk = store) :
    (∃ disk' error, revoke env disk store id now fault = (disk', store, .error error) ∧ disk'.Valid ∧
        disk'.text? = disk.text?) ∨
      (∃ entry ∈ store.entries, entry.record.id = id ∧ entry.record.isActive = false ∧ store.fault = none ∧
        revoke env disk store id now fault = (disk, store, .ok entry.record)) ∨
      ∃ disk' next record, prepareRevoke store id now = .ok (.inr next) ∧ record.id = id ∧ store.fault = none ∧ disk'.Valid ∧
        (∃ entry ∈ store.entries, entry.record.id = id) ∧
        revoke env disk store id now fault =
          (disk', { store with entries := store.entries.map (revokedAt id now) }, .ok record) ∧
        openStore env disk' = { store with entries := store.entries.map (revokedAt id now) } := by
  have hsound : Sound store.entries := hopen ▸ sound_openStore env disk
  unfold revoke
  cases hprepare : prepareRevoke store id now with
  | error error => exact .inl ⟨disk, error, rfl, hvalid, rfl⟩
  | ok prepared =>
    cases prepared with
    | inl record =>
      obtain ⟨hfault, entry, hentry, hid, hactive, rfl⟩ := prepareRevoke_done hprepare
      exact .inr (.inl ⟨entry, hentry, hid, hactive, hfault, rfl⟩)
    | inr next =>
      obtain ⟨hfault, rfl, hmem, record, hid, hfinish⟩ := prepareRevoke_spec hsound hprepare
      obtain ⟨disk', hsave, hvalid', htext⟩ := save_spec hvalid
        (fileText env.json ((store.entries.map (revokedAt id now)).map TokenEntry.stored)) fault
      dsimp only
      rw [hsave]
      cases fault with
      | some fault => exact .inl ⟨disk', _, rfl, hvalid', htext⟩
      | none =>
        refine .inr (.inr ⟨disk', _, record, rfl, hid, hfault, hvalid', hmem, ?_, ?_⟩)
        · rw [hfinish]
          rfl
        · exact openStore_fileText hjson hopen hfault (sound_revokedAt hsound) htext

variable (env) in
/-- **A crash** leaves the file as it was or with what was being written in it. -/
theorem crashed_cases (hvalid : disk.Valid) (next : Option (List Stored)) (point : Option SaveFault) :
    (crashed env disk next point).Valid ∧
      ((crashed env disk next point).text? = disk.text? ∨
        ∃ tokens, next = some tokens ∧ (crashed env disk next point).text? = some (fileText env.json tokens)) := by
  cases next with
  | none => exact ⟨hvalid, .inl rfl⟩
  | some tokens =>
    obtain ⟨disk', hsave, hvalid', htext⟩ := save_spec hvalid (fileText env.json tokens) point
    have hdisk : crashed env disk (some tokens) point = disk' := congrArg Prod.fst hsave
    rw [hdisk]
    refine ⟨hvalid', ?_⟩
    cases point with
    | none => exact .inr ⟨tokens, rfl, htext⟩
    | some point => exact .inl htext

variable (label now random draws) in
theorem crashIssue_cases (hjson : ReadsBack env.json) (hvalid : disk.Valid) (hopen : openStore env disk = store)
    (point : Option SaveFault) :
    (crashed env disk (issueWrites env store label now random draws) point).Valid ∧
      (openStore env (crashed env disk (issueWrites env store label now random draws) point) = store ∨
        ∃ next entry secret, prepareIssue env store label now random draws = .ok (next, entry, secret) ∧
          openStore env (crashed env disk (issueWrites env store label now random draws) point) = store.add entry) := by
  have hsound : Sound store.entries := hopen ▸ sound_openStore env disk
  obtain ⟨hvalid', hsame | ⟨tokens, hwrites, htext⟩⟩ :=
    crashed_cases env hvalid (issueWrites env store label now random draws) point
  · exact ⟨hvalid', .inl ((openStore_congr hsame).trans hopen)⟩
  · unfold issueWrites at hwrites
    cases hprepare : prepareIssue env store label now random draws with
    | error error =>
      rw [hprepare] at hwrites
      cases hwrites
    | ok prepared =>
      obtain ⟨next, entry, secret⟩ := prepared
      rw [hprepare] at hwrites
      obtain rfl : next = tokens := Option.some.inj hwrites
      obtain ⟨hfault, hnext, rfl, -, -⟩ := prepareIssue_spec hsound hprepare
      exact ⟨hvalid', .inr ⟨_, entry, secret, rfl, openStore_fileText hjson hopen hfault hnext htext⟩⟩

variable (id now) in
theorem crashRevoke_cases (hjson : ReadsBack env.json) (hvalid : disk.Valid) (hopen : openStore env disk = store)
    (point : Option SaveFault) :
    (crashed env disk (revokeWrites store id now) point).Valid ∧
      (openStore env (crashed env disk (revokeWrites store id now) point) = store ∨
        ∃ next, prepareRevoke store id now = .ok (.inr next) ∧
          openStore env (crashed env disk (revokeWrites store id now) point) =
            { store with entries := store.entries.map (revokedAt id now) }) := by
  have hsound : Sound store.entries := hopen ▸ sound_openStore env disk
  obtain ⟨hvalid', hsame | ⟨tokens, hwrites, htext⟩⟩ :=
    crashed_cases env hvalid (revokeWrites store id now) point
  · exact ⟨hvalid', .inl ((openStore_congr hsame).trans hopen)⟩
  · unfold revokeWrites at hwrites
    cases hprepare : prepareRevoke store id now with
    | error error =>
      rw [hprepare] at hwrites
      cases hwrites
    | ok prepared =>
      cases prepared with
      | inl record =>
        rw [hprepare] at hwrites
        cases hwrites
      | inr next =>
        rw [hprepare] at hwrites
        obtain rfl : next = tokens := Option.some.inj hwrites
        obtain ⟨hfault, rfl, -, -⟩ := prepareRevoke_spec hsound hprepare
        exact ⟨hvalid', .inr ⟨_, rfl, openStore_fileText hjson hopen hfault (sound_revokedAt hsound) htext⟩⟩

end Operation

/-! ### The credential check -/

section Authenticate
variable {env : TokenEnv} {store : TokenStore} {presented secret : String} {label : AgentLabel} {id : TokenId}

/-- The last of the tokens that match. -/
theorem foldl_match {digest : TokenDigest} {entries : List TokenEntry} {found : Option (AgentLabel × TokenId)}
    {result : AgentLabel × TokenId}
    (h : entries.foldl (fun found entry =>
      if digest = entry.digest then some (entry.record.label, entry.record.id) else found) found = some result) :
    found = some result ∨ ∃ entry ∈ entries, entry.digest = digest ∧ (entry.record.label, entry.record.id) = result := by
  induction entries generalizing found with
  | nil => exact .inl h
  | cons entry rest ih =>
    rw [List.foldl_cons] at h
    obtain hfound | ⟨other, hother, hmatch⟩ := ih h
    · split_ifs at hfound with hdigest
      · exact .inr ⟨entry, List.mem_cons_self, hdigest.symm, Option.some.inj hfound⟩
      · exact .inl hfound
    · exact .inr ⟨other, List.mem_cons_of_mem _ hother, hmatch⟩

/-- Who is let in as an agent has the secret of an active token. -/
theorem authenticate_eq_agent (h : authenticate env store presented = .agent label id) :
    ∃ entry ∈ store.entries, entry.record.isActive = true ∧ entry.digest = env.sha256 presented ∧
      entry.record.label = label ∧ entry.record.id = id := by
  unfold authenticate at h
  dsimp only at h
  split_ifs at h
  split at h
  · rename_i found hfound
    obtain ⟨rfl, rfl⟩ := Credential.agent.inj h
    obtain hnone | ⟨entry, hentry, hdigest, hresult⟩ := foldl_match hfound
    · cases hnone
    · obtain ⟨hentry, hactive⟩ := List.mem_filter.mp hentry
      obtain ⟨hlabel, hid⟩ := Prod.mk.inj hresult
      exact ⟨entry, hentry, hactive, hdigest, hlabel, hid⟩
  · cases h

/-- An agent's secret is not taken for the operator's. -/
theorem operatorPrefix_secretOf (bytes : List UInt8) :
    operatorPrefix.toList.isPrefixOf (secretOf agentPrefix bytes).toList = false := by
  unfold secretOf
  rw [String.toList_ofList]
  rfl

variable (env store) in
theorem authenticate_secretOf (bytes : List UInt8) :
    authenticate env store (secretOf agentPrefix bytes) = .unknown ∨
      ∃ label id, authenticate env store (secretOf agentPrefix bytes) = .agent label id := by
  unfold authenticate
  dsimp only
  rw [operatorPrefix_secretOf, if_neg Bool.false_ne_true]
  split
  · exact .inl rfl
  · split
    · exact .inr ⟨_, _, rfl⟩
    · exact .inl rfl

end Authenticate

/-! ### Every run -/

/-- What holds of a store in every state of a run. -/
structure Holds (env : TokenEnv) (run : TokenRun) : Prop where
  valid : run.disk.Valid
  opened : openStore env run.disk = run.store
  /-- A token that was revoked is there, and not active. -/
  revoked : ∀ id ∈ run.revoked, ∃ entry ∈ run.store.entries, entry.record.id = id ∧ entry.record.isActive = false
  drawn : ∀ token ∈ run.issued, token.2 ∈ run.drawn ∧ ∃ bytes, token.2 = secretOf agentPrefix bytes
  /-- Only the token that was issued with it has the digest of a secret. -/
  issued : ∀ token ∈ run.issued, ∀ entry ∈ run.store.entries, entry.digest = env.sha256 token.2 →
    entry.record.id = token.1

section Runs
variable {env : TokenEnv} {run : TokenRun} {disk disk' : Disk} {store : TokenStore} {entry : TokenEntry}
  {id : TokenId} {now : WallTime} {random : Option (List UInt8)} {secret : String}

theorem Holds.sound (h : Holds env run) : Sound run.store.entries := h.opened ▸ sound_openStore env run.disk

theorem Holds.same (h : Holds env run) (hvalid : disk'.Valid) (hopened : openStore env disk' = run.store)
    {drawn : List String} (hdrawn : run.drawn ⊆ drawn) : Holds env { run with disk := disk', drawn } :=
  ⟨hvalid, hopened, h.revoked, fun token htoken => ⟨hdrawn (h.drawn token htoken).1, (h.drawn token htoken).2⟩, h.issued⟩

theorem Holds.add (h : Holds env run) (hvalid : disk'.Valid)
    (hopened : openStore env disk' = run.store.add entry) (hfresh : FreshSecret env run random)
    (hsecret : random.map (secretOf agentPrefix) = some secret) (hdigest : entry.digest = env.sha256 secret) :
    Holds env { run with disk := disk', store := run.store.add entry, drawn := drawnWith run random } := by
  obtain ⟨bytes, rfl, rfl⟩ := Option.map_eq_some_iff.mp hsecret
  refine ⟨hvalid, hopened, ?_, ?_, ?_⟩
  · intro id hid
    obtain ⟨other, hother, hrevoked⟩ := h.revoked id hid
    exact ⟨other, List.mem_append_left _ hother, hrevoked⟩
  · intro token htoken
    exact ⟨List.mem_append_left _ (h.drawn token htoken).1, (h.drawn token htoken).2⟩
  · intro token htoken other hother hsame
    obtain hother | hother := List.mem_append.mp hother
    · exact h.issued token htoken other hother hsame
    · obtain rfl := List.mem_singleton.mp hother
      exact absurd (hsame.symm.trans hdigest) ((hfresh bytes (by simp)).1 _ (h.drawn token htoken).1)

theorem Holds.give
    (h : Holds env { run with disk := disk', store := run.store.add entry, drawn := drawnWith run random })
    (hfresh : FreshSecret env run random) (hsecret : random.map (secretOf agentPrefix) = some secret) :
    Holds env { run with
      disk := disk', store := run.store.add entry, drawn := drawnWith run random,
      issued := run.issued ++ [(entry.record.id, secret)] } := by
  obtain ⟨bytes, rfl, rfl⟩ := Option.map_eq_some_iff.mp hsecret
  refine ⟨h.valid, h.opened, h.revoked, ?_, ?_⟩
  · intro token htoken
    obtain htoken | htoken := List.mem_append.mp htoken
    · exact h.drawn token htoken
    · obtain rfl := List.mem_singleton.mp htoken
      exact ⟨List.mem_append_right _ (by simp), bytes, rfl⟩
  · intro token htoken other hother hsame
    obtain htoken | htoken := List.mem_append.mp htoken
    · exact h.issued token htoken other hother hsame
    · obtain rfl := List.mem_singleton.mp htoken
      obtain hother | hother := List.mem_append.mp hother
      · exact absurd hsame ((hfresh bytes (by simp)).2 other hother)
      · rw [List.mem_singleton.mp hother]

theorem Holds.revoke (h : Holds env run) (hvalid : disk'.Valid)
    (hopened : openStore env disk' = { run.store with entries := run.store.entries.map (revokedAt id now) }) :
    Holds env { run with
      disk := disk', store := { run.store with entries := run.store.entries.map (revokedAt id now) } } := by
  refine ⟨hvalid, hopened, ?_, h.drawn, ?_⟩
  · intro other hother
    obtain ⟨entry, hentry, hid, hactive⟩ := h.revoked other hother
    refine ⟨_, List.mem_map_of_mem hentry, (revokedAt_id entry).trans hid, ?_⟩
    rw [isActive_revokedAt, hactive, Bool.false_and]
  · intro token htoken entry hentry hsame
    obtain ⟨other, hother, rfl⟩ := List.mem_map.mp hentry
    rw [revokedAt_digest] at hsame
    rw [revokedAt_id]
    exact h.issued token htoken other hother hsame

theorem Holds.confirm (h : Holds env run) {ids : List TokenId}
    (hids : ∀ id ∈ ids, ∃ entry ∈ run.store.entries, entry.record.id = id ∧ entry.record.isActive = false) :
    Holds env { run with revoked := run.revoked ++ ids } :=
  ⟨h.valid, h.opened, fun id hid => (List.mem_append.mp hid).elim (h.revoked id) (hids id), h.drawn, h.issued⟩

theorem step_issue (label : AgentLabel) (draws : List (Option (List UInt8))) (fault : Option SaveFault) :
    (tokenStore env).step run (.issue label now random draws fault) =
      if FreshSecret env run random then
        some { run with
          disk := (issue env run.disk run.store label now random draws fault).1,
          store := (issue env run.disk run.store label now random draws fault).2.1,
          drawn := drawnWith run random,
          issued := run.issued ++ (issue env run.disk run.store label now random draws fault).2.2.toOption.toList.map
            fun issued => (issued.record.id, issued.secret) }
      else none := rfl

theorem step_revoke (fault : Option SaveFault) :
    (tokenStore env).step run (.revoke id now fault) =
      some { run with
        disk := (revoke env run.disk run.store id now fault).1,
        store := (revoke env run.disk run.store id now fault).2.1,
        revoked := run.revoked ++
          (revoke env run.disk run.store id now fault).2.2.toOption.toList.map TokenRecord.id } := rfl

theorem holds_of_reachable (hjson : ReadsBack env.json) (h : (tokenStore env).Reachable run) : Holds env run := by
  refine h.invariant ?_ ?_
  · rintro _ ⟨disk, hvalid, rfl⟩
    exact ⟨hvalid, rfl, by simp, by simp, by simp⟩
  · intro run action run' _ hholds hstep
    have hmore : ∀ random, run.drawn ⊆ drawnWith run random := fun random => List.subset_append_left _ _
    cases action with
    | issue label now random draws fault =>
      rw [step_issue] at hstep
      obtain ⟨hfresh, hrun⟩ := Option.ite_none_right_eq_some.mp hstep
      obtain rfl := Option.some.inj hrun
      obtain ⟨disk', error, hissue, hvalid, htext⟩ | ⟨disk', next, entry, secret, hprepare, hissue, -, hvalid, hopened⟩ :=
        issue_cases label now random draws fault hjson
          hholds.valid hholds.opened
      · rw [hissue]
        show Holds env { run with disk := disk', drawn := drawnWith run random, issued := run.issued ++ [] }
        rw [List.append_nil]
        exact hholds.same hvalid ((openStore_congr htext).trans hholds.opened) (hmore random)
      · obtain ⟨-, -, -, hsecret, hdigest, -⟩ := prepareIssue_spec hholds.sound hprepare
        rw [hissue]
        exact (hholds.add hvalid hopened hfresh hsecret hdigest).give hfresh hsecret
    | revoke id now fault =>
      rw [step_revoke] at hstep
      obtain rfl := Option.some.inj hstep
      obtain ⟨disk', error, hrevoke, hvalid, htext⟩ | ⟨entry, hentry, hid, hactive, -, hrevoke⟩ |
        ⟨disk', next, record, -, hid, -, hvalid, ⟨entry, hentry, hentryId⟩, hrevoke, hopened⟩ :=
        revoke_cases id now fault hjson hholds.valid hholds.opened
      · rw [hrevoke]
        show Holds env { run with disk := disk', revoked := run.revoked ++ [] }
        rw [List.append_nil]
        exact hholds.same hvalid ((openStore_congr htext).trans hholds.opened) (List.Subset.refl _)
      · rw [hrevoke]
        refine hholds.confirm fun other hother => ?_
        obtain rfl := List.mem_singleton.mp hother
        exact ⟨entry, hentry, rfl, hactive⟩
      · rw [hrevoke]
        refine (hholds.revoke hvalid hopened).confirm fun other hother => ?_
        obtain rfl := List.mem_singleton.mp hother
        refine ⟨_, List.mem_map_of_mem hentry, (revokedAt_id entry).trans (hentryId.trans hid.symm), ?_⟩
        rw [isActive_revokedAt, decide_eq_true hentryId, Bool.not_true, Bool.and_false]
    | reopen =>
      obtain rfl := Option.some.inj hstep
      rw [hholds.opened]
      exact hholds
    | crashIssue label now random draws point =>
      obtain ⟨hfresh, hrun⟩ := Option.ite_none_right_eq_some.mp hstep
      obtain rfl := Option.some.inj hrun
      obtain ⟨hvalid, hsame | ⟨next, entry, secret, hprepare, hopened⟩⟩ :=
        crashIssue_cases label now random draws hjson hholds.valid
          hholds.opened point
      · rw [hsame]
        exact hholds.same hvalid hsame (hmore random)
      · obtain ⟨-, -, -, hsecret, hdigest, -⟩ := prepareIssue_spec hholds.sound hprepare
        rw [hopened]
        exact hholds.add hvalid hopened hfresh hsecret hdigest
    | crashRevoke id now point =>
      obtain rfl := Option.some.inj hstep
      obtain ⟨hvalid, hsame | ⟨next, -, hopened⟩⟩ :=
        crashRevoke_cases id now hjson hholds.valid hholds.opened point
      · rw [hsame]
        exact hholds.same hvalid hsame (List.Subset.refl _)
      · rw [hopened]
        exact hholds.revoke hvalid hopened

/-- What is in memory when the save of an `issue` was good. -/
theorem issue_store (hvalid : disk.Valid) {label : AgentLabel} {draws : List (Option (List UInt8))} {next : List Stored}
    (hprepare : prepareIssue env store label now random draws = .ok (next, entry, secret)) :
    (issue env disk store label now random draws none).2.1 = store.add entry := by
  obtain ⟨disk', hsave, -, -⟩ := save_spec hvalid (fileText env.json next) none
  unfold issue
  rw [hprepare]
  dsimp only
  rw [hsave]
  rfl

theorem revoke_store (hvalid : disk.Valid) (hsound : Sound store.entries) {next : List Stored}
    (hprepare : prepareRevoke store id now = .ok (.inr next)) :
    (revoke env disk store id now none).2.1 = { store with entries := store.entries.map (revokedAt id now) } := by
  obtain ⟨disk', hsave, -, -⟩ := save_spec hvalid (fileText env.json next) none
  obtain ⟨-, -, -, record, -, hfinish⟩ := prepareRevoke_spec hsound hprepare
  unfold revoke
  rw [hprepare]
  dsimp only
  rw [hsave]
  exact congrArg Prod.fst hfinish

/-- What the token store keeps to. -/
structure Keeps (env : TokenEnv) (run : TokenRun) : Prop where
  /-- No label has two active tokens. -/
  oneActive :
    ((run.store.entries.filter fun entry => entry.record.isActive).map fun entry => entry.record.label).Nodup
  uniqueIds : (run.store.entries.map fun entry => entry.record.id).Nodup
  /-- After an operation that succeeds, the file describes what is in memory. -/
  issued : ∀ label now random draws fault disk store token,
    issue env run.disk run.store label now random draws fault = (disk, store, .ok token) →
      readEntriesOf env.json disk.text? = .ok store.entries
  revoked : ∀ id now fault disk store record, revoke env run.disk run.store id now fault = (disk, store, .ok record) →
    readEntriesOf env.json disk.text? = .ok store.entries
  /-- One that fails leaves both as they were. -/
  issueFailed : ∀ label now random draws fault disk store error,
    issue env run.disk run.store label now random draws fault = (disk, store, .error error) →
      store = run.store ∧ disk.text? = run.disk.text?
  revokeFailed : ∀ id now fault disk store error,
    revoke env run.disk run.store id now fault = (disk, store, .error error) →
      store = run.store ∧ disk.text? = run.disk.text?
  /-- A token whose revocation succeeded is not accepted. -/
  refused : ∀ id ∈ run.revoked, ∀ presented label, authenticate env run.store presented ≠ .agent label id
  refusedSecret : ∀ token ∈ run.issued, token.1 ∈ run.revoked → authenticate env run.store token.2 = .unknown
  /-- Opened again, the store accepts what it accepted, up to the operation a crash fell into. -/
  reopened : authenticate env (openStore env run.disk) = authenticate env run.store
  crashedIssue : ∀ label now random draws point,
    authenticate env (openStore env (crashed env run.disk (issueWrites env run.store label now random draws) point)) =
        authenticate env run.store ∨
      authenticate env (openStore env (crashed env run.disk (issueWrites env run.store label now random draws) point)) =
        authenticate env (issue env run.disk run.store label now random draws none).2.1
  crashedRevoke : ∀ id now point,
    authenticate env (openStore env (crashed env run.disk (revokeWrites run.store id now) point)) =
        authenticate env run.store ∨
      authenticate env (openStore env (crashed env run.disk (revokeWrites run.store id now) point)) =
        authenticate env (revoke env run.disk run.store id now none).2.1

/-- A token whose revocation succeeded lets nobody in. -/
theorem Holds.refused (h : Holds env run) (hid : id ∈ run.revoked) (presented : String) (label : AgentLabel) :
    authenticate env run.store presented ≠ .agent label id := by
  intro haccepted
  obtain ⟨entry, hentry, hactive, -, -, rfl⟩ := authenticate_eq_agent haccepted
  obtain ⟨other, hother, hsame, hrevoked⟩ := h.revoked _ hid
  have heq : other = entry := List.inj_on_of_nodup_map h.sound.ids hother hentry hsame
  rw [heq, hactive] at hrevoked
  cases hrevoked

/-- **The token store keeps its promises** in every run: any issues, revocations and reopenings, with a failure possible
at each save and a crash at any point of one. -/
theorem tokenStore_keeps (hjson : ReadsBack env.json) (h : (tokenStore env).Reachable run) : Keeps env run := by
  have hholds := holds_of_reachable hjson h
  refine ⟨hholds.sound.active, hholds.sound.ids, ?_, ?_, ?_, ?_, ?_, ?_, by rw [hholds.opened], ?_, ?_⟩
  · intro label now random draws fault disk store token hissue
    obtain ⟨disk', error, hother, -⟩ | ⟨disk', next, entry, secret, -, hother, hfault, -, hopened⟩ :=
      issue_cases label now random draws fault hjson hholds.valid
        hholds.opened
    · rw [hother] at hissue
      cases hissue
    · rw [hother] at hissue
      obtain ⟨rfl, rfl, -⟩ : disk' = disk ∧ run.store.add entry = store ∧ _ := by simpa using hissue
      exact readEntriesOf_of_openStore hopened hfault
  · intro id now fault disk store record hrevoke
    obtain ⟨disk', error, hother, -⟩ | ⟨entry, -, -, -, hfault, hother⟩ |
      ⟨disk', next, record', -, -, hfault, -, -, hother, hopened⟩ :=
      revoke_cases id now fault hjson hholds.valid hholds.opened
    · rw [hother] at hrevoke
      cases hrevoke
    · rw [hother] at hrevoke
      cases hrevoke
      exact readEntriesOf_of_openStore hholds.opened hfault
    · rw [hother] at hrevoke
      cases hrevoke
      exact readEntriesOf_of_openStore hopened hfault
  · intro label now random draws fault disk store error hissue
    obtain ⟨disk', error', hother, -, htext⟩ | ⟨disk', next, entry, secret, -, hother, -⟩ :=
      issue_cases label now random draws fault hjson hholds.valid
        hholds.opened
    · rw [hother] at hissue
      cases hissue
      exact ⟨rfl, htext⟩
    · rw [hother] at hissue
      cases hissue
  · intro id now fault disk store error hrevoke
    obtain ⟨disk', error', hother, -, htext⟩ | ⟨entry, -, -, -, -, hother⟩ | ⟨disk', next, record, -, -, -, -, -, hother, -⟩ :=
      revoke_cases id now fault hjson hholds.valid hholds.opened
    · rw [hother] at hrevoke
      cases hrevoke
      exact ⟨rfl, htext⟩
    · rw [hother] at hrevoke
      cases hrevoke
    · rw [hother] at hrevoke
      cases hrevoke
  · exact fun id hid => hholds.refused hid
  · intro token htoken hrevoked
    obtain ⟨-, bytes, hbytes⟩ := hholds.drawn token htoken
    obtain hunknown | ⟨label, id, haccepted⟩ := authenticate_secretOf env run.store bytes
    · rw [hbytes, hunknown]
    · -- who has the secret is let in as the token that was issued with it
      rw [← hbytes] at haccepted
      obtain ⟨entry, hentry, -, hdigest, -, rfl⟩ := authenticate_eq_agent haccepted
      rw [hholds.issued token htoken entry hentry hdigest] at haccepted
      exact absurd haccepted (hholds.refused hrevoked _ _)
  · intro label now random draws point
    obtain ⟨-, hsame | ⟨next, entry, secret, hprepare, hopened⟩⟩ := crashIssue_cases label now random draws
      hjson hholds.valid hholds.opened point
    · exact .inl (by rw [hsame])
    · exact .inr (by rw [hopened, issue_store hholds.valid hprepare])
  · intro id now point
    obtain ⟨-, hsame | ⟨next, hprepare, hopened⟩⟩ :=
      crashRevoke_cases id now hjson hholds.valid hholds.opened point
    · exact .inl (by rw [hsame])
    · exact .inr (by rw [hopened, revoke_store hholds.valid hholds.sound hprepare])

end Runs

section Example

/-- A digest of 32 bytes for strings that differ near their end. -/
def lastBytes (text : String) : TokenDigest :=
  ⟨((text.toList.reverse.map fun c : Char => UInt8.ofNat c.toNat) ++ List.replicate 32 0).take 32, by simp⟩

def smallEnv : TokenEnv := ⟨blanksDropped, lastBytes, "daro_operator"⟩

def kitchen : AgentLabel := ⟨"kitchen", by decide⟩

def kitchenId : TokenId := ⟨"t-01020304", by decide⟩

/-- On a first start a token is issued; its revocation fails, and then succeeds. -/
def firstRun : List TokenAction :=
  [.issue kitchen 1 (some (List.replicate 32 7)) [some [1, 2, 3, 4]] none,
    .revoke kitchenId 2 (some (.writing 20)), .revoke kitchenId 3 none]

def noFile : Disk := ⟨none, none, []⟩

def firstStart : TokenRun := ⟨noFile, openStore smallEnv noFile, [], [], []⟩

theorem firstRun_isSome : ((tokenStore smallEnv).exec firstStart firstRun).isSome = true := by decide +kernel

def afterFirstRun : TokenRun := ((tokenStore smallEnv).exec firstStart firstRun).get firstRun_isSome

example : afterFirstRun.revoked = [kitchenId] := by decide +kernel

theorem tokenStore_keeps_firstRun : Keeps smallEnv afterFirstRun :=
  tokenStore_keeps blanksDropped_readsBack
    (Machine.reachable_of_exec firstStart firstRun ⟨noFile, by simp [Disk.Valid, noFile], rfl⟩ (Option.some_get _).symm)

end Example

end DenonAvr.Infrastructure
