import DenonAvr.Domain.Receiver

/-!
# The X3800H core protocol

Commands and their framing, the correlation of a reply with its query, and the core profile: `query`,
`encode`, `parse`, and the bridge `coreFrame` from wire frames to domain frames.

Correlation looks at a prefix, the parser at the whole line, so a reply can belong to a query and still carry
no observation (`Unknown`, malformed, the volume ceiling). What does hold is that it never carries one of
another field (`field_of_responseMatches`): every frame of a field begins with the family of its query.
-/

namespace DenonAvr.Protocol

open Domain

def hasPrefix (start line : String) : Bool := start.toList.isPrefixOf line.toList

/-- The text after a prefix of `n` characters. -/
def afterPrefix (n : ℕ) (line : String) : String := String.ofList (line.toList.drop n)

/-! ### Commands -/

inductive AvrProtocolError
  | invalidCommand (message : String)
  | invalidVolume (message : String)
  | malformedResponse (message : String)
deriving DecidableEq, Repr

def AvrProtocolError.text : AvrProtocolError → String
  | invalidCommand message | invalidVolume message | malformedResponse message => message

def commandIsEmpty (command : String) : Bool := command.isEmpty
def hasLineBreak (command : String) : Bool := command.toList.any fun c => c == '\r' || c == '\n'

/-- A command: non-empty text without a line break. -/
structure AvrCommand where
  text : String
  nonempty : commandIsEmpty text = false
  oneLine : hasLineBreak text = false
deriving DecidableEq

def AvrCommand.new (command : String) : Except AvrProtocolError AvrCommand :=
  if hempty : commandIsEmpty command = true then .error (.invalidCommand "command is empty")
  else if hbreak : hasLineBreak command = true then
    .error (.invalidCommand "command contains a line break")
  else .ok ⟨command, by simpa using hempty, by simpa using hbreak⟩

def carriageReturn : UInt8 := 13

def utf8Bytes (text : String) : List UInt8 := text.toUTF8.data.toList

/-! ### Correlation -/

/-- `str::trim_end`. -/
def trimEnd (text : List Char) : List Char := (text.reverse.dropWhile isWhitespace).reverse

/-- The family a query's response belongs to: the command up to its query marker. -/
def getCommandFamily (command : String) : String :=
  String.ofList (trimEnd (command.toList.takeWhile (· ≠ '?')))

def isAsciiDigit (c : Char) : Bool := '0' ≤ c && c ≤ '9'

/-- Whether `response` answers a query of `family`. -/
def responseMatches (family response : String) : Bool :=
  hasPrefix family response &&
    let suffix := response.toList.drop family.toList.length
    family != "MV" || suffix == "---".toList || (!suffix.isEmpty && suffix.all isAsciiDigit)

/-! ### The core profile -/

inductive X3800hFrame
  | systemPower (value : SystemPower)
  | mainZonePower (value : ZonePower)
  | zone2Power (value : ZonePower)
  | source (value : SourceId)
  | volume (value : MasterVolume)
  | mute (value : MuteState)
  | soundMode (value : SoundModeStatus)
  | volumeUnavailable
  /-- Receiver-reported volume ceiling; not the current Main Zone volume. -/
  | volumeLimit (line : String)
  | unknown (line : String)
deriving DecidableEq

/-- The query for a field. -/
def queryText : CoreField → String
  | .systemPower => "PW?"
  | .mainZonePower => "ZM?"
  | .zone2Power => "Z2?"
  | .source => "SI?"
  | .volume => "MV?"
  | .mute => "MU?"
  | .soundMode => "MS?"

theorem queryText_valid (field : CoreField) :
    commandIsEmpty (queryText field) = false ∧ hasLineBreak (queryText field) = false := by
  cases field <;> decide

def query (intent : ReceiverIntent) : AvrCommand :=
  ⟨queryText intent.field, (queryText_valid _).1, (queryText_valid _).2⟩

/-- Two decimal digits, at least. -/
def twoDigits (n : ℕ) : String := if n < 10 then "0" ++ toString n else toString n

def volumeCommand : MasterVolume → String
  | .minimum => "MVMIN"
  | .dbHalfSteps step =>
    let native := (step.val + 160).toNat
    if native % 2 = 0 then "MV" ++ twoDigits (native / 2) else "MV" ++ twoDigits (native / 2) ++ "5"

def soundModeCommand : SoundModeIntent → Except AvrProtocolError String
  | .auto => .ok "MSAUTO"
  | .direct => .ok "MSDIRECT"
  | .pureDirect => .ok "MSPURE DIRECT"
  | .stereo => .ok "MSSTEREO"
  | .recallMovie => .ok "MSMOVIE"
  | .recallMusic => .ok "MSMUSIC"
  | .recallGame => .ok "MSGAME"
  | .select value =>
    if isPlainText value then .ok ("MS" ++ value)
    else .error (.invalidCommand "sound mode is empty or contains controls")

/-- The text `encode` makes a command of. -/
def encodeText : ReceiverIntent → Except AvrProtocolError String
  | .systemPower .on => .ok "PWON"
  | .systemPower .standby => .ok "PWSTANDBY"
  | .mainZonePower .on => .ok "ZMON"
  | .mainZonePower .off => .ok "ZMOFF"
  | .zone2Power .on => .ok "Z2ON"
  | .zone2Power .off => .ok "Z2OFF"
  | .source id =>
    match canonicalX3800hSource id.value with
    | some canonical => .ok ("SI" ++ canonical)
    | none => .error (.invalidCommand "source is not supported by X3800H profile")
  | .volume value => .ok (volumeCommand value)
  | .mute .on => .ok "MUON"
  | .mute .off => .ok "MUOFF"
  | .soundMode mode => soundModeCommand mode

def encode (intent : ReceiverIntent) : Except AvrProtocolError AvrCommand := do
  AvrCommand.new (← encodeText intent)

/-! ### Parsing -/

/-- The value of a string of decimal digits. -/
def digitsValue (digits : List Char) : Option ℕ :=
  if digits.isEmpty || !digits.all isAsciiDigit then none
  else some (digits.foldl (fun n c => 10 * n + (c.toNat - '0'.toNat)) 0)

/-- `str::parse::<i16>` on a text of at most two characters: digits, behind a sign perhaps. -/
def parseI16 : List Char → Option ℤ
  | '+' :: digits => (digitsValue digits).map Int.ofNat
  | '-' :: digits => (digitsValue digits).map fun n => -Int.ofNat n
  | digits => (digitsValue digits).map Int.ofNat

/-- The native code behind `MV`. A character of more than one byte is no part of a numeral, so counting
characters where the source counts bytes decides alike. -/
def nativeOf (code : List Char) : Option ℤ :=
  if code.length = 2 then (parseI16 code).map (· * 2)
  else if code.length = 3 ∧ code.getLast? = some '5' then (parseI16 (code.take 2)).map (· * 2 + 1)
  else none

def parseVolume (line : String) : Except AvrProtocolError MasterVolume :=
  if line = "MVMIN" then .ok .minimum
  else
    match nativeOf (line.toList.drop 2) with
    | none => .error (.invalidVolume "invalid X3800H volume frame")
    | some native => (MasterVolume.ofHalfSteps (native - 160)).mapError .invalidVolume

/-- The lines `parse` names outright. -/
def parseExact : String → Option X3800hFrame
  | "PWON" => some (.systemPower .on)
  | "PWSTANDBY" => some (.systemPower .standby)
  | "ZMON" => some (.mainZonePower .on)
  | "ZMOFF" => some (.mainZonePower .off)
  | "Z2ON" => some (.zone2Power .on)
  | "Z2OFF" => some (.zone2Power .off)
  | "MUON" => some (.mute .on)
  | "MUOFF" => some (.mute .off)
  | "MV---" => some .volumeUnavailable
  | _ => none

def parse (line : String) : Except AvrProtocolError X3800hFrame :=
  match parseExact line with
  | some frame => .ok frame
  | none =>
    if hasPrefix "MVMAX " line then .ok (.volumeLimit line)
    else if hasPrefix "MV" line then (parseVolume line).map .volume
    else if hasPrefix "SI" line then
      ((SourceId.new (afterPrefix 2 line)).map .source).mapError .malformedResponse
    else if hasPrefix "MS" line && decide (2 < line.toList.length) then
      .ok (.soundMode ⟨afterPrefix 2 line, afterPrefix 2 line⟩)
    else .ok (.unknown line)

/-- Unknown frames and volume ceilings remain diagnostics: they never become canonical state. -/
def coreFrame : X3800hFrame → Option CoreFrame
  | .systemPower value => some (.systemPower value)
  | .mainZonePower value => some (.mainZonePower value)
  | .zone2Power value => some (.zone2Power value)
  | .source value => some (.source value)
  | .volume value => some (.volume value)
  | .mute value => some (.mute value)
  | .soundMode value => some (.soundMode value)
  | .volumeUnavailable => some (.volumeUnavailable "MV---")
  | .volumeLimit _ => none
  | .unknown _ => none

/-- The observation a line carries, if it parses to one. -/
def observationOf (line : String) : Option CoreFrame :=
  match parse line with
  | .ok frame => coreFrame frame
  | .error _ => none

/-! ### Families -/

/-- The family of a field's query. -/
def familyOf (field : CoreField) : String := getCommandFamily (queryText field)

theorem familyOf_length (field : CoreField) : (familyOf field).toList.length = 2 := by
  cases field <;> decide

theorem familyOf_injective : Function.Injective familyOf := by
  intro f g
  revert f g
  decide

theorem take_of_hasPrefix {start line : String} (h : hasPrefix start line = true) :
    line.toList.take start.toList.length = start.toList := by
  have hpre := List.isPrefixOf_iff_prefix.mp h
  exact (List.prefix_iff_eq_take.mp hpre).symm

/-- A line belongs to one family at most. -/
theorem eq_of_hasPrefix_familyOf {line : String} {f g : CoreField}
    (hf : hasPrefix (familyOf f) line = true) (hg : hasPrefix (familyOf g) line = true) : f = g := by
  apply familyOf_injective
  have hf' := take_of_hasPrefix hf
  have hg' := take_of_hasPrefix hg
  rw [familyOf_length] at hf' hg'
  exact String.toList_injective (hf'.symm.trans hg')

theorem hasPrefix_of_responseMatches {family line : String} (h : responseMatches family line = true) :
    hasPrefix family line = true := by
  unfold responseMatches at h
  exact (Bool.and_eq_true_iff.mp h).1

theorem hasPrefix_of_parseExact {line : String} {wire : X3800hFrame} {frame : CoreFrame}
    (hexact : parseExact line = some wire) (h : coreFrame wire = some frame) :
    hasPrefix (familyOf frame.field) line = true := by
  unfold parseExact at hexact
  split at hexact
  case h_10 => cases hexact
  all_goals
    cases hexact
    cases h
    decide

theorem parse_of_parseExact {line : String} {wire : X3800hFrame} (h : parseExact line = some wire) :
    parse line = .ok wire := by
  simp only [parse, h]

/-- What a line parses to when it is none of the fixed ones and carries an observation. -/
theorem parse_cases {line : String} {wire : X3800hFrame} {frame : CoreFrame}
    (hexact : parseExact line = none) (hparse : parse line = .ok wire)
    (h : coreFrame wire = some frame) :
    (frame.field = .volume ∧ hasPrefix "MV" line = true) ∨
      (frame.field = .source ∧ hasPrefix "SI" line = true) ∨
        (frame.field = .soundMode ∧ hasPrefix "MS" line = true) := by
  simp only [parse, hexact] at hparse
  split_ifs at hparse with hmax hmv hsi hms
  · cases hparse
    cases h
  · cases hvolume : parseVolume line with
    | error error => simp [hvolume, Except.map] at hparse
    | ok volume =>
      simp only [hvolume, Except.map, Except.ok.injEq] at hparse
      subst hparse
      cases h
      exact .inl ⟨rfl, hmv⟩
  · cases hsource : SourceId.new (afterPrefix 2 line) with
    | error error => simp [hsource, Except.map, Except.mapError] at hparse
    | ok source =>
      simp only [hsource, Except.map, Except.mapError, Except.ok.injEq] at hparse
      subst hparse
      cases h
      exact .inr (.inl ⟨rfl, hsi⟩)
  · cases hparse
    cases h
    exact .inr (.inr ⟨rfl, (Bool.and_eq_true_iff.mp hms).1⟩)
  · cases hparse
    cases h

theorem familyOf_volume : familyOf .volume = "MV" := by decide
theorem familyOf_source : familyOf .source = "SI" := by decide
theorem familyOf_soundMode : familyOf .soundMode = "MS" := by decide

/-- A line that carries an observation begins with the family of the observed field. -/
theorem hasPrefix_of_observationOf {line : String} {frame : CoreFrame}
    (h : observationOf line = some frame) : hasPrefix (familyOf frame.field) line = true := by
  unfold observationOf at h
  split at h
  case h_2 => cases h
  rename_i wire hparse
  cases hexact : parseExact line with
  | some wire' =>
    rw [parse_of_parseExact hexact] at hparse
    cases hparse
    exact hasPrefix_of_parseExact hexact h
  | none =>
    rcases parse_cases hexact hparse h with ⟨hfield, hpre⟩ | ⟨hfield, hpre⟩ | ⟨hfield, hpre⟩
    · rw [hfield, familyOf_volume]
      exact hpre
    · rw [hfield, familyOf_source]
      exact hpre
    · rw [hfield, familyOf_soundMode]
      exact hpre

/-- **A reply never speaks about another field** than the one that was queried. -/
theorem field_of_responseMatches {field : CoreField} {line : String} {frame : CoreFrame}
    (hmatches : responseMatches (familyOf field) line = true) (h : observationOf line = some frame) :
    frame.field = field :=
  eq_of_hasPrefix_familyOf (hasPrefix_of_observationOf h) (hasPrefix_of_responseMatches hmatches)

end DenonAvr.Protocol
