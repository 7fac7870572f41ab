import DenonAvr.Protocol.Volume
import DenonAvr.Session.Operate

/-!
# A command's own echo

A receiver that answers a command with the command itself: is the intent seen to hold? Admission, encoder,
parser and matcher have to agree on every value. They do but for the letter case of a source: it is admitted in
any, sent and read back as the profile lists it, and compared as it was given.
-/

namespace DenonAvr.Domain

/-! ### Letter case -/

/-- Between `A` and `z` there is neither blank nor control character. -/
theorem plain_of_range {c : Char} (h : 65 ≤ c.toNat ∧ c.toNat ≤ 122) : isWhitespace c = false ∧ isControl c = false := by
  unfold isWhitespace isControl
  generalize c.toNat = n at h
  constructor
  · simp
    omega
  · simp
    omega

theorem plain_toLower (c : Char) : isWhitespace c.toLower = isWhitespace c ∧ isControl c.toLower = isControl c := by
  by_cases h : c.val ≥ 'A'.val ∧ c.val ≤ 'Z'.val
  · have hlow : 65 ≤ c.toNat := h.1
    have hhigh : c.toNat ≤ 90 := h.2
    have hval : c.toLower.val = c.val + 32 := by
      unfold Char.toLower
      rw [dif_pos h]
      rfl
    have hnat : c.toLower.toNat = c.toNat + 32 := by
      show c.toLower.val.toNat = c.val.toNat + 32
      rw [hval, UInt32.toNat_add]
      have : c.val.toNat ≤ 90 := hhigh
      simp only [UInt32.reduceToNat]
      omega
    obtain ⟨hblank, hcontrol⟩ := plain_of_range (c := c) (by omega)
    obtain ⟨hblank', hcontrol'⟩ := plain_of_range (c := c.toLower) (by omega)
    exact ⟨hblank'.trans hblank.symm, hcontrol'.trans hcontrol.symm⟩
  · have hsame : c.toLower = c := by
      unfold Char.toLower
      exact dif_neg h
    rw [hsame]
    exact ⟨rfl, rfl⟩

theorem isPlainText_eq_of_eqIgnoreAsciiCase {a b : String} (h : eqIgnoreAsciiCase a b = true) :
    isPlainText a = isPlainText b := by
  have hmap : a.toList.map Char.toLower = b.toList.map Char.toLower := beq_iff_eq.mp h
  have hplain : ∀ text : String, isPlainText text =
      (!(text.toList.map Char.toLower).all isWhitespace && !(text.toList.map Char.toLower).any isControl) := by
    intro text
    unfold isPlainText isBlank
    rw [List.all_map, List.any_map]
    congr 2
    · congr 1
      funext c
      exact (plain_toLower c).1.symm
    · congr 1
      funext c
      exact (plain_toLower c).2.symm
  rw [hplain, hplain, hmap]

theorem isPlainText_of_supportsX3800hSoundMode {mode : String} (h : supportsX3800hSoundMode mode = true) :
    isPlainText mode = true := by
  have hall : ∀ candidate ∈ x3800hMovieModes ++ x3800hMusicModes ++ x3800hGameModes ++ x3800hPureModes,
      isPlainText candidate = true := by decide
  obtain ⟨candidate, hmem, heq⟩ := List.any_eq_true.mp h
  rw [← isPlainText_eq_of_eqIgnoreAsciiCase heq]
  exact hall candidate hmem

/-- A name as the profile lists it is its own canonical form. -/
theorem canonicalX3800hSource_of_mem {name : String} (h : name ∈ x3800hInputs) : canonicalX3800hSource name = some name := by
  revert name
  decide

end DenonAvr.Domain

namespace DenonAvr.Protocol

open Domain

/-! ### Lines of sources and sound modes -/

theorem observationOf_source {value : String} (h : isPlainText value = true) :
    observationOf ("SI" ++ value) = some (.source ⟨value, h⟩) := by
  have hline : ("SI" ++ value).toList = 'S' :: 'I' :: value.toList := by
    rw [String.toList_append]
    rfl
  have hexact : parseExact ("SI" ++ value) = none := by
    unfold parseExact
    split
    case h_10 => rfl
    all_goals
      rename_i heq
      rw [heq] at hline
      simp at hline
  have hstart : hasPrefix "MVMAX " ("SI" ++ value) = false ∧ hasPrefix "MV" ("SI" ++ value) = false ∧
      hasPrefix "SI" ("SI" ++ value) = true ∧ afterPrefix 2 ("SI" ++ value) = value := by
    unfold hasPrefix afterPrefix
    rw [hline]
    exact ⟨rfl, rfl, rfl, String.ofList_toList⟩
  have hparse : parse ("SI" ++ value) = .ok (.source ⟨value, h⟩) := by
    unfold parse
    simp [hexact, hstart, SourceId.new, h, Except.map, Except.mapError]
  unfold observationOf
  rw [hparse]
  rfl

theorem observationOf_soundMode {value : String} (h : isPlainText value = true) :
    observationOf ("MS" ++ value) = some (.soundMode ⟨value, value⟩) := by
  have hline : ("MS" ++ value).toList = 'M' :: 'S' :: value.toList := by
    rw [String.toList_append]
    rfl
  have hexact : parseExact ("MS" ++ value) = none := by
    unfold parseExact
    split
    case h_10 => rfl
    all_goals
      rename_i heq
      rw [heq] at hline
      simp at hline
  have hstart : hasPrefix "MVMAX " ("MS" ++ value) = false ∧ hasPrefix "MV" ("MS" ++ value) = false ∧
      hasPrefix "SI" ("MS" ++ value) = false ∧ hasPrefix "MS" ("MS" ++ value) = true ∧
      afterPrefix 2 ("MS" ++ value) = value := by
    unfold hasPrefix afterPrefix
    rw [hline]
    exact ⟨rfl, rfl, rfl, rfl, String.ofList_toList⟩
  have hlong : 2 < ("MS" ++ value).toList.length := by
    have hne : value.toList ≠ [] := by
      intro hnil
      simp [isPlainText, isBlank, hnil] at h
    rw [hline]
    have := List.length_pos_iff.mpr hne
    simp only [List.length_cons]
    omega
  have hparse : parse ("MS" ++ value) = .ok (.soundMode ⟨value, value⟩) := by
    unfold parse
    rw [hexact]
    simp only [hstart.1, hstart.2.1, hstart.2.2.1, hstart.2.2.2.1, hstart.2.2.2.2, hlong, decide_true, Bool.and_self,
      Bool.false_eq_true, if_false, if_true]
  unfold observationOf
  rw [hparse]
  rfl

end DenonAvr.Protocol

namespace DenonAvr.Session

open Domain Protocol

/-! ### The state after an echo -/

section Echo
variable {feed : Feed} {line : String} {frame : CoreFrame} {intent : ReceiverIntent} {now : MonotonicMillis} {inQuery : Bool}

theorem stateMatches_bump (state : ReceiverState) (intent : ReceiverIntent) :
    stateMatches state.bump intent = stateMatches state intent := by
  cases intent <;> rfl

/-- What a field is synchronized for has no part in the comparison. -/
theorem stateMatches_markConverging (state : ReceiverState) (field : CoreField) (cycle : SyncCycleId) (cause : SyncCause)
    (reconcileBy : MonotonicMillis) (intent : ReceiverIntent) :
    stateMatches (state.markConverging field cycle cause reconcileBy) intent = stateMatches state intent := by
  unfold ReceiverState.markConverging
  rw [stateMatches_bump]
  cases field <;> cases intent <;> rfl

/-- A line of the established connection is compared as its frame leaves the state. -/
theorem stateMatches_reduceLine (hconnected : feed.state.epoch = some feed.epoch) (hobs : observationOf line = some frame) :
    stateMatches (feed.reduceLine now line inQuery).1.state intent =
      stateMatches (feed.state.applyFrame (feed.stamp now inQuery) (now + Feed.validity) frame) intent := by
  show stateMatches (feed.reduceLineState now line inQuery).1 intent = _
  rw [Feed.reduceLineState_of_observation feed now inQuery hobs]
  have hreduce : feed.state.reduce (feed.stamp now inQuery) (now + Feed.validity) frame =
      (feed.state.applyFrame (feed.stamp now inQuery) (now + Feed.validity) frame).bump :=
    if_pos (Feed.accepts_stamp_iff.mpr hconnected)
  rw [hreduce]
  cases inQuery with
  | true => exact stateMatches_bump _ _
  | false => exact (stateMatches_markConverging _ _ _ _ _ _).trans (stateMatches_bump _ _)

/-! ### Echoes -/

/-- The intents that ask for the last mode of a category. -/
def isRecall : ReceiverIntent → Bool
  | .soundMode .recallMovie | .soundMode .recallMusic | .soundMode .recallGame => true
  | _ => false

/-- A source in the spelling of the profile; every other intent. -/
def spelledAsListed : ReceiverIntent → Bool
  | .source source => x3800hInputs.contains source.value
  | _ => true

/-- The intent is sent as a line that, received on the feed, shows it to hold. -/
def ConfirmedByEcho (feed : Feed) (now : MonotonicMillis) (inQuery : Bool) (intent : ReceiverIntent) : Prop :=
  ∃ line, encodedLine intent = some line ∧ stateMatches (feed.reduceLine now line inQuery).1.state intent = true

/-- An echo that is read as the frame of its own intent. -/
theorem confirmedByEcho_of_frame (frame : CoreFrame) (hconnected : feed.state.epoch = some feed.epoch)
    (htext : encodeText intent = .ok line)
    (hobs : observationOf line = some frame)
    (hmatches : ∀ state stamp validUntil, stateMatches (ReceiverState.applyFrame state stamp validUntil frame) intent = true) :
    ConfirmedByEcho feed now inQuery intent := by
  refine ⟨line, encodedLine_of_encodeText htext, ?_⟩
  rw [stateMatches_reduceLine hconnected hobs]
  exact hmatches _ _ _

theorem observationOf_volumeCommand (v : MasterVolume) : observationOf (volumeCommand v) = some (.volume v) := by
  unfold observationOf
  rw [parse_volumeCommand]
  rfl

/-- A source is sent in the spelling of the profile, read back in it, and compared with what was asked for. -/
theorem confirmedByEcho_source (hconnected : feed.state.epoch = some feed.epoch) (source : SourceId)
    (hadmitted : admitIntent (.source source) = .ok ()) :
    ConfirmedByEcho feed now inQuery (.source source) ↔ source.value ∈ x3800hInputs := by
  have hplain : ∀ name ∈ x3800hInputs, isPlainText name = true := by decide
  have hsupported : supportsX3800hSource source.value = true := by
    by_contra hnot
    simp [admitIntent, hnot] at hadmitted
  obtain ⟨canonical, hcanonical⟩ : ∃ canonical, canonicalX3800hSource source.value = some canonical := by
    obtain ⟨name, hmem, hname⟩ := List.any_eq_true.mp hsupported
    exact Option.isSome_iff_exists.mp (List.find?_isSome.mpr ⟨name, hmem, hname⟩)
  have hmem : canonical ∈ x3800hInputs := List.mem_of_find?_eq_some hcanonical
  have htext : encodeText (.source source) = .ok ("SI" ++ canonical) := by
    simp only [encodeText, hcanonical]
  have hobs := observationOf_source (hplain canonical hmem)
  constructor
  · rintro ⟨line, hline, hmatches⟩
    rw [encodedLine_of_encodeText htext] at hline
    obtain rfl := Option.some.inj hline
    rw [stateMatches_reduceLine hconnected hobs] at hmatches
    have heq : (⟨canonical, hplain canonical hmem⟩ : SourceId) = source := beq_iff_eq.mp hmatches
    rw [← heq]
    exact hmem
  · intro hlisted
    rw [canonicalX3800hSource_of_mem hlisted] at hcanonical
    obtain rfl := Option.some.inj hcanonical
    exact confirmedByEcho_of_frame _ hconnected htext hobs fun _ _ _ => beq_self_eq_true source

theorem eqIgnoreAsciiCase_refl (text : String) : eqIgnoreAsciiCase text text = true := beq_self_eq_true _

/-- A mode chosen by name is sent, read back and compared as it was given, in any letter case. -/
theorem confirmedByEcho_select (hconnected : feed.state.epoch = some feed.epoch) (mode : String)
    (hadmitted : admitIntent (.soundMode (.select mode)) = .ok ()) :
    ConfirmedByEcho feed now inQuery (.soundMode (.select mode)) := by
  have hsupported : supportsX3800hSoundMode mode = true := by
    by_contra hnot
    simp [admitIntent, hnot] at hadmitted
  have hplain := isPlainText_of_supportsX3800hSoundMode hsupported
  have htext : encodeText (.soundMode (.select mode)) = .ok ("MS" ++ mode) := if_pos hplain
  exact confirmedByEcho_of_frame _ hconnected htext (observationOf_soundMode hplain)
    fun _ _ _ => eqIgnoreAsciiCase_refl mode

/-- **Which commands their own echo confirms**: of the admitted ones that name a value, all but those for a source
in another letter case than the profile's. -/
theorem confirmedByEcho_iff (hconnected : feed.state.epoch = some feed.epoch) (hadmitted : admitIntent intent = .ok ())
    (hrecall : isRecall intent = false) :
    ConfirmedByEcho feed now inQuery intent ↔ spelledAsListed intent = true := by
  cases intent with
  | source source =>
    rw [confirmedByEcho_source hconnected source hadmitted]
    simp [spelledAsListed]
  | systemPower value =>
    refine iff_of_true ?_ rfl
    cases value with
    | on => exact confirmedByEcho_of_frame (.systemPower .on) hconnected rfl (by decide) fun _ _ _ => rfl
    | standby => exact confirmedByEcho_of_frame (.systemPower .standby) hconnected rfl (by decide) fun _ _ _ => rfl
  | mainZonePower value =>
    refine iff_of_true ?_ rfl
    cases value with
    | on => exact confirmedByEcho_of_frame (.mainZonePower .on) hconnected rfl (by decide) fun _ _ _ => rfl
    | off => exact confirmedByEcho_of_frame (.mainZonePower .off) hconnected rfl (by decide) fun _ _ _ => rfl
  | zone2Power value =>
    refine iff_of_true ?_ rfl
    cases value with
    | on => exact confirmedByEcho_of_frame (.zone2Power .on) hconnected rfl (by decide) fun _ _ _ => rfl
    | off => exact confirmedByEcho_of_frame (.zone2Power .off) hconnected rfl (by decide) fun _ _ _ => rfl
  | mute value =>
    refine iff_of_true ?_ rfl
    cases value with
    | on => exact confirmedByEcho_of_frame (.mute .on) hconnected rfl (by decide) fun _ _ _ => rfl
    | off => exact confirmedByEcho_of_frame (.mute .off) hconnected rfl (by decide) fun _ _ _ => rfl
  | volume value =>
    refine iff_of_true ?_ rfl
    exact confirmedByEcho_of_frame (.volume value) hconnected rfl (observationOf_volumeCommand value)
      fun _ _ _ => beq_self_eq_true value
  | soundMode mode =>
    refine iff_of_true ?_ rfl
    cases mode with
    | auto =>
      exact confirmedByEcho_of_frame (.soundMode ⟨"AUTO", "AUTO"⟩) hconnected rfl (by decide)
        fun _ _ _ => eqIgnoreAsciiCase_refl _
    | direct =>
      exact confirmedByEcho_of_frame (.soundMode ⟨"DIRECT", "DIRECT"⟩) hconnected rfl (by decide)
        fun _ _ _ => eqIgnoreAsciiCase_refl _
    | pureDirect =>
      exact confirmedByEcho_of_frame (.soundMode ⟨"PURE DIRECT", "PURE DIRECT"⟩) hconnected rfl (by decide)
        fun _ _ _ => eqIgnoreAsciiCase_refl _
    | stereo =>
      exact confirmedByEcho_of_frame (.soundMode ⟨"STEREO", "STEREO"⟩) hconnected rfl (by decide)
        fun _ _ _ => eqIgnoreAsciiCase_refl _
    | select name => exact confirmedByEcho_select hconnected name hadmitted
    | recallMovie => cases hrecall
    | recallMusic => cases hrecall
    | recallGame => cases hrecall

/-- The CD input in small letters, on a fresh connection. -/
theorem not_confirmedByEcho_cd :
    admitIntent (.source ⟨"cd", by decide⟩) = .ok () ∧
      ¬ ConfirmedByEcho (Feed.new livingRoom) 1000 true (.source ⟨"cd", by decide⟩) := by
  refine ⟨by decide, ?_⟩
  rintro ⟨line, hline, hmatches⟩
  have hsent : encodedLine (.source ⟨"cd", by decide⟩) = some "SICD" := by decide
  obtain rfl := Option.some.inj (hsent.symm.trans hline)
  exact absurd hmatches (by decide)

theorem confirmedByEcho_iff_cd :
    ConfirmedByEcho (Feed.new livingRoom) 1000 true (.source ⟨"CD", by decide⟩) ↔
      spelledAsListed (.source ⟨"CD", by decide⟩) = true :=
  confirmedByEcho_iff rfl (by decide) rfl

end Echo

end DenonAvr.Session
