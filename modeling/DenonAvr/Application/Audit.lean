import DenonAvr.Application.Control
import DenonAvr.Application.Ledger

/-!
# The audit log

What the service records about each decision, how a later run reads it back, and the ledger it rebuilds from what
it read.

A log is a set of files with the time each was last written. `since` reads the records from a time on and leaves
out a file that was last written long before it; when the files' times agree with those of their records within
the margin, that loses nothing (`mem_since_of_agrees`). `rebuild` counts every volume write that was about to be
dispatched, unless the same operation finished as not dispatched (`mem_rebuild`).
-/

namespace DenonAvr.Application

open Domain Policy

/-! ### Records -/

def auditSchema : ℕ := 1

/-- The SHA-256 of the policy file's bytes. -/
abbrev PolicyDigest := {bytes : List UInt8 // bytes.length = 32}

inductive AuditDecision
  | allow | requireApproval | deny
deriving DecidableEq

inductive EndpointKind
  | operator | agent
deriving DecidableEq

/-- Why a caller was refused at an endpoint. -/
inductive RefusalReason
  | peerNotAdmitted
  | noCredential
  | unknownCredential
  | operatorTokenOnAgentEndpoint
  | agentTokenOnOperatorEndpoint
  | resourceNotServed
deriving DecidableEq

/-- `t-` and eight lowercase hexadecimal digits. -/
def tokenIdIsWellFormed (value : String) : Bool :=
  match value.toList with
  | 't' :: '-' :: digits => digits.length == 8 && digits.all fun c => c.isDigit || ('a' ≤ c && c ≤ 'f')
  | _ => false

structure TokenId where
  value : String
  valid : tokenIdIsWellFormed value = true
deriving DecidableEq

inductive AuditEvent
  | decided (intent : String) (decision : AuditDecision) (reasons rules : List String)
      (baseline : List CoreField) (policy : Option PolicyDigest)
  /-- The gate is about to call the session. The levels are set for volume changes only. -/
  | dispatching (intent : String) (before target : Option ℤ) (preconditionFields : List CoreField)
  | finished (status : String) (dispatch : DispatchCertainty) (confirmed : Bool) (reason : Option String)
  | policyLoaded (digest : PolicyDigest)
  | policyLoadFailed (error : String)
  | accessRefused (endpoint : EndpointKind) (reason : RefusalReason) (peerUid : Option ℕ)
      (resource : Option String) (suppressed : ℕ)
  | tokenIssued (id : TokenId) (label : AgentLabel)
  | tokenRevoked (id : TokenId) (label : AgentLabel)
deriving DecidableEq

structure AuditRecord where
  schema : ℕ := auditSchema
  /-- When the service that wrote this started. -/
  run : WallTime
  time : WallTime
  operation : Option OperationId
  principal : Option Principal
  receiver : Option ReceiverId
  event : AuditEvent
deriving DecidableEq

def maxIntentText : ℕ := 128

/-- `text` cut to at most `max` characters. -/
def bounded (text : String) (max : ℕ) : String := String.ofList (text.toList.take max)

def zonePowerText : ZonePower → String
  | .on => "on"
  | .off => "off"

def soundModeText : SoundModeIntent → String
  | .auto => "auto"
  | .direct => "direct"
  | .pureDirect => "pure_direct"
  | .stereo => "stereo"
  | .recallMovie => "recall_movie"
  | .recallMusic => "recall_music"
  | .recallGame => "recall_game"
  | .select name => name

/-- The request in the words the policy uses. -/
def intentText (intent : ReceiverIntent) : String :=
  let text := match intent with
    | .systemPower .on => "system_power on"
    | .systemPower .standby => "system_power standby"
    | .mainZonePower power => "main_zone_power " ++ zonePowerText power
    | .zone2Power power => "zone2_power " ++ zonePowerText power
    | .source source => "source " ++ source.value
    | .volume .minimum => "volume minimum"
    | .volume (.dbHalfSteps steps) => "volume " ++ halfStepsAsDb steps.val
    | .mute .on => "mute on"
    | .mute .off => "mute off"
    | .soundMode mode => "sound_mode " ++ soundModeText mode
  bounded (String.ofList (text.toList.map fun c => if isControl c then ' ' else c)) maxIntentText

/-- `AgentState::dispatching`. -/
def dispatchingEvent (intent : ReceiverIntent) (state : ReceiverState) (preconditionFields : List CoreField) :
    AuditEvent :=
  match targetOf intent with
  | some target =>
    .dispatching (intentText intent) ((observedVolume state).map Level.halfSteps) (some target.halfSteps)
      preconditionFields
  | none => .dispatching (intentText intent) none none preconditionFields

/-- `decided`. -/
def decidedEvent (intent : ReceiverIntent) (decision : Decision) (digest : PolicyDigest) : AuditEvent :=
  .decided (intentText intent)
    (match decision.effect with
      | .allow => .allow
      | .requireApproval => .requireApproval
      | .deny => .deny)
    (decision.reasons.map Reason.text) decision.rules ((decision.baseline.map baselineFields).getD [])
    (some digest)

/-- The limits that fired, as one sentence for the agent. -/
def reasonText (decision : Decision) : String :=
  match decision.reasons with
  | [] => "the policy does not allow this"
  | reasons => String.intercalate "; " (reasons.map Reason.text)

/-! ### Files -/

structure LogFile where
  /-- The last-written time, when the file system has one. -/
  written : Option WallTime
  /-- The records of the lines that can be used, oldest first. -/
  records : List AuditRecord
deriving DecidableEq

/-- `CLOCK_MARGIN_MILLIS`. -/
def clockMargin : ℕ := 5 * 60 * 1000

def LogFile.lastWrittenBefore (file : LogFile) (start : WallTime) : Bool :=
  file.written.any fun written => decide (written + clockMargin < start)

/-- Every record written at or after `start`, the files oldest first. -/
def since (files : List LogFile) (start : WallTime) : List AuditRecord :=
  files.flatMap fun file =>
    if file.lastWrittenBefore start then [] else file.records.filter fun record => decide (start ≤ record.time)

/-- A file's last-written time is not before that of a record in it by more than the margin. -/
def LogFile.Agrees (file : LogFile) : Prop :=
  ∀ record ∈ file.records, ∀ written, file.written = some written → record.time ≤ written + clockMargin

theorem mem_of_mem_since {files : List LogFile} {start : WallTime} {record : AuditRecord}
    (h : record ∈ since files start) : (∃ file ∈ files, record ∈ file.records) ∧ start ≤ record.time := by
  obtain ⟨file, hfile, hmem⟩ := List.mem_flatMap.mp h
  split_ifs at hmem
  · cases hmem
  · obtain ⟨hrecord, htime⟩ := List.mem_filter.mp hmem
    exact ⟨⟨file, hfile, hrecord⟩, of_decide_eq_true htime⟩

/-- No record from `start` on is in a file that is left out. -/
theorem mem_since_of_agrees {files : List LogFile} {start : WallTime} {record : AuditRecord} {file : LogFile}
    (hfile : file ∈ files) (hagrees : file.Agrees) (hmem : record ∈ file.records) (htime : start ≤ record.time) :
    record ∈ since files start := by
  refine List.mem_flatMap.mpr ⟨file, hfile, ?_⟩
  have hread : ¬ file.lastWrittenBefore start = true := by
    unfold LogFile.lastWrittenBefore
    rw [Option.any_eq_true]
    rintro ⟨written, hwritten, hlt⟩
    have hle := hagrees record hmem written hwritten
    exact absurd (htime.trans hle) (not_le.mpr (of_decide_eq_true hlt))
  rw [if_neg hread]
  exact List.mem_filter.mpr ⟨hmem, decide_eq_true htime⟩

/-! ### Rebuilding the ledger -/

/-- A level from a record; one that is not on the scale counts as the lowest. -/
def levelOrLowest (halfSteps : ℤ) : Level := (Level.fromHalfSteps halfSteps).getD Level.minimum

@[simp] theorem levelOrLowest_halfSteps (level : Level) : levelOrLowest level.halfSteps = level := by
  unfold levelOrLowest
  rw [Level.fromHalfSteps_halfSteps]
  rfl

namespace AuditRecord

def key? (record : AuditRecord) : Option OpKey := record.operation.map fun operation => ⟨record.run, operation⟩

/-- The operation this record says did not dispatch. -/
def notDispatched? (record : AuditRecord) : Option OpKey :=
  match record.event with
  | .finished _ .notDispatched _ _ => record.key?
  | _ => none

/-- The volume change this record says was about to be dispatched. -/
def volumeChange? (record : AuditRecord) : Option (ReceiverId × RecentChange) :=
  match record.event, record.receiver with
  | .dispatching _ before (some target) _, some receiver =>
    some (receiver,
      { time := record.time, before := before.map levelOrLowest, target := levelOrLowest target })
  | _, _ => none

/-- The entry the record counts as, unless its operation is one of `notDispatched`. -/
def ledgerEntry (notDispatched : List OpKey) (record : AuditRecord) : Option LedgerEntry :=
  record.volumeChange?.bind fun (receiver, change) =>
    if record.key?.any fun key => decide (key ∈ notDispatched) then none
    else some ⟨receiver, record.key?.getD ⟨record.run, 0⟩, change⟩

end AuditRecord

/-- The ledger the records describe, as of `now`. -/
def Ledger.rebuild (records : List AuditRecord) (now : WallTime) : Ledger :=
  let notDispatched := records.filterMap AuditRecord.notDispatched?
  let ledger : Ledger := ⟨records.filterMap (AuditRecord.ledgerEntry notDispatched)⟩
  ledger.prune now

section Rebuild
variable {records : List AuditRecord} {now : WallTime} {record : AuditRecord} {entry : LedgerEntry}

theorem mem_rebuild :
    entry ∈ (Ledger.rebuild records now).entries ↔
      (∃ record ∈ records, record.ledgerEntry (records.filterMap AuditRecord.notDispatched?) = some entry) ∧
        now.saturatingSub retention ≤ entry.change.time := by
  unfold Ledger.rebuild
  simp only [Ledger.mem_prune, List.mem_filterMap]

/-- A record that counts: its operation's, under the operation's key, with the levels the record has. -/
theorem ledgerEntry_eq_some {notDispatched : List OpKey} (h : record.ledgerEntry notDispatched = some entry) :
    entry.key.run = record.run ∧
      record.volumeChange? = some (entry.receiver, entry.change) ∧
        ∀ key, record.key? = some key → entry.key = key ∧ key ∉ notDispatched := by
  obtain ⟨⟨receiver, change⟩, hchange, hentry⟩ := Option.bind_eq_some_iff.mp h
  dsimp only at hentry
  split_ifs at hentry with hnot
  cases hentry
  refine ⟨?_, hchange, fun key hkey => ?_⟩
  · unfold AuditRecord.key?
    cases record.operation <;> rfl
  · rw [hkey] at hnot
    refine ⟨?_, fun hmem => hnot (decide_eq_true hmem)⟩
    rw [hkey]
    rfl

/-- **A dispatch on record is counted** unless a record says that its operation did not dispatch, as long as it is
not older than the retention. -/
theorem mem_rebuild_of_dispatching {key : OpKey} {receiver : ReceiverId} {change : RecentChange}
    (hmem : record ∈ records) (hkey : record.key? = some key)
    (hchange : record.volumeChange? = some (receiver, change))
    (hnot : ∀ other ∈ records, other.notDispatched? ≠ some key)
    (htime : now.saturatingSub retention ≤ change.time) :
    ⟨receiver, key, change⟩ ∈ (Ledger.rebuild records now).entries := by
  refine mem_rebuild.mpr ⟨⟨record, hmem, ?_⟩, htime⟩
  have hfree : ¬ (record.key?.any fun key =>
      decide (key ∈ records.filterMap AuditRecord.notDispatched?)) = true := by
    rw [hkey]
    intro hany
    obtain ⟨other, hother, heq⟩ := List.mem_filterMap.mp (of_decide_eq_true hany)
    exact hnot other hother heq
  unfold AuditRecord.ledgerEntry
  rw [hchange, Option.bind_some]
  dsimp only
  rw [if_neg hfree, hkey]
  rfl

/-- The record of a volume write reads back as the change that was reserved for it, at the record's time. -/
theorem volumeChange?_dispatching {intent : ReceiverIntent} {state : ReceiverState} {fields : List CoreField}
    {receiver : ReceiverId} {target : Level} (hevent : record.event = dispatchingEvent intent state fields)
    (hreceiver : record.receiver = some receiver) (htarget : targetOf intent = some target) :
    record.volumeChange? = some (receiver, ⟨record.time, observedVolume state, target⟩) := by
  unfold AuditRecord.volumeChange?
  rw [hevent, hreceiver]
  unfold dispatchingEvent
  rw [htarget]
  simp only [levelOrLowest_halfSteps, Option.map_map]
  have hid : (levelOrLowest ∘ Level.halfSteps) = id := funext levelOrLowest_halfSteps
  rw [hid, Option.map_id, id_eq]

end Rebuild

end DenonAvr.Application
