import DenonAvr.Protocol.X3800h

/-!
# Volume lines

The level behind `MV` is a native code, half steps above -80 dB: two digits, and a `5` for the odd ones
(`volumeCode`). The encoder writes exactly these, and the parser takes them back. What the parser takes besides
is what `str::parse` takes for a number and no receiver sends, a sign (`signedVolume`).

Correlation has a rule of its own for `MV`: what follows are digits, or `---`. It agrees with the parser but on
those signs and on `MVMIN`, which the parser reads as a level and the encoder sends.
-/

namespace DenonAvr.Protocol

open Domain

/-! ### Digits -/

theorem toList_twoDigits {n : ℕ} (h : n < 100) :
    (twoDigits n).toList = [Nat.digitChar (n / 10), Nat.digitChar (n % 10)] := by
  revert n
  decide +kernel

theorem isAsciiDigit_digitChar {d : ℕ} (h : d < 10) : isAsciiDigit (Nat.digitChar d) = true := by
  revert d
  decide

theorem toNat_digitChar {d : ℕ} (h : d < 10) : (Nat.digitChar d).toNat - '0'.toNat = d := by
  revert d
  decide

theorem exists_digitChar {c : Char} (h : isAsciiDigit c = true) : ∃ d < 10, c = Nat.digitChar d := by
  simp only [isAsciiDigit, Bool.and_eq_true, decide_eq_true_eq] at h
  have hlow : 48 ≤ c.toNat := h.1
  have hhigh : c.toNat ≤ 57 := h.2
  refine ⟨c.toNat - 48, by omega, ?_⟩
  apply Char.toNat_inj.mp
  generalize c.toNat = n at hlow hhigh ⊢
  interval_cases n <;> rfl

theorem ne_sign_of_isAsciiDigit {c : Char} (h : isAsciiDigit c = true) : c ≠ '+' ∧ c ≠ '-' := by
  constructor
  · rintro rfl
    exact absurd h (by decide)
  · rintro rfl
    exact absurd h (by decide)

theorem digitsValue_eq_some {digits : List Char} {n : ℕ} (h : digitsValue digits = some n) :
    digits.all isAsciiDigit = true ∧
      digits.foldl (fun n c => 10 * n + (c.toNat - '0'.toNat)) 0 = n := by
  unfold digitsValue at h
  split_ifs at h with hbad
  simp only [Bool.or_eq_true, Bool.not_eq_true', not_or, Bool.not_eq_false] at hbad
  exact ⟨hbad.2, Option.some.inj h⟩

theorem digitsValue_pair {x y : ℕ} (hx : x < 10) (hy : y < 10) :
    digitsValue [Nat.digitChar x, Nat.digitChar y] = some (10 * x + y) := by
  simp only [digitsValue, List.isEmpty_cons, List.all_cons, List.all_nil, isAsciiDigit_digitChar hx,
    isAsciiDigit_digitChar hy, Bool.and_self, Bool.not_true, Bool.or_self, Bool.false_eq_true, if_false,
    List.foldl_cons, List.foldl_nil, toNat_digitChar hx, toNat_digitChar hy]
  congr 1
  omega

theorem pair_of_digitsValue {a b : Char} {n : ℕ} (h : digitsValue [a, b] = some n) :
    ∃ x < 10, ∃ y < 10, a = Nat.digitChar x ∧ b = Nat.digitChar y ∧ n = 10 * x + y := by
  obtain ⟨hdigits, -⟩ := digitsValue_eq_some h
  simp only [List.all_cons, List.all_nil, Bool.and_true, Bool.and_eq_true] at hdigits
  obtain ⟨x, hx, rfl⟩ := exists_digitChar hdigits.1
  obtain ⟨y, hy, rfl⟩ := exists_digitChar hdigits.2
  rw [digitsValue_pair hx hy] at h
  exact ⟨x, hx, y, hy, rfl, rfl, (Option.some.inj h).symm⟩

theorem one_of_digitsValue {b : Char} {n : ℕ} (h : digitsValue [b] = some n) :
    isAsciiDigit b = true ∧ (b = '0' ↔ n = 0) := by
  obtain ⟨hdigit, hn⟩ := digitsValue_eq_some h
  simp only [List.all_cons, List.all_nil, Bool.and_true] at hdigit
  obtain ⟨y, hy, rfl⟩ := exists_digitChar hdigit
  simp only [List.foldl_cons, List.foldl_nil, toNat_digitChar hy, mul_zero, zero_add] at hn
  subst hn
  refine ⟨hdigit, ?_⟩
  revert hy y
  decide

/-! ### Native codes -/

/-- What the encoder puts behind `MV` for a native level. -/
def volumeCode (native : ℕ) : List Char :=
  Nat.digitChar (native / 2 / 10) :: Nat.digitChar (native / 2 % 10) :: if native % 2 = 0 then [] else ['5']

theorem toList_volumeCommand (step : VolumeStep) :
    (volumeCommand (.dbHalfSteps step)).toList = 'M' :: 'V' :: volumeCode (step.val + 160).toNat := by
  have hnative : (step.val + 160).toNat / 2 < 100 := by
    have := step.property
    omega
  unfold volumeCommand volumeCode
  dsimp only
  split_ifs with heven
  · rw [String.toList_append, toList_twoDigits hnative]
    rfl
  · rw [String.toList_append, String.toList_append, toList_twoDigits hnative]
    rfl

theorem parseI16_pair {x y : ℕ} (hx : x < 10) (hy : y < 10) :
    parseI16 [Nat.digitChar x, Nat.digitChar y] = some (Int.ofNat (10 * x + y)) := by
  obtain ⟨hplus, hminus⟩ := ne_sign_of_isAsciiDigit (isAsciiDigit_digitChar hx)
  unfold parseI16
  split
  · rename_i heq
    exact absurd (List.cons.inj heq).1 hplus
  · rename_i heq
    exact absurd (List.cons.inj heq).1 hminus
  · rw [digitsValue_pair hx hy]
    rfl

theorem nativeOf_volumeCode {native : ℕ} (h : native < 200) : nativeOf (volumeCode native) = some (native : ℤ) := by
  have hpair := parseI16_pair (x := native / 2 / 10) (y := native / 2 % 10) (by omega) (by omega)
  rw [Nat.div_add_mod] at hpair
  unfold volumeCode nativeOf
  by_cases heven : native % 2 = 0
  · rw [if_pos heven, if_pos (show List.length [_, _] = 2 from rfl), hpair]
    simp only [Option.map_some, Int.ofNat_eq_natCast, Option.some.injEq]
    omega
  · rw [if_neg heven, if_neg (show List.length [_, _, _] ≠ 2 by simp), if_pos ⟨rfl, rfl⟩]
    show (parseI16 [Nat.digitChar (native / 2 / 10), Nat.digitChar (native / 2 % 10)]).map _ = _
    rw [hpair]
    simp only [Option.map_some, Int.ofNat_eq_natCast, Option.some.injEq]
    omega

/-- The codes with a sign that the parser takes for a level. -/
def signedCode : List Char → Bool
  | [sign, d] => sign == '+' && isAsciiDigit d && d != '0'
  | [sign, d, half] => (sign == '+' && isAsciiDigit d || sign == '-' && d == '0') && half == '5'
  | _ => false

/-- A number of two characters is two digits, or one behind a sign. -/
theorem parseI16_cases {a b : Char} {n : ℤ} (h : parseI16 [a, b] = some n) :
    (∃ x < 10, ∃ y < 10, a = Nat.digitChar x ∧ b = Nat.digitChar y ∧ n = ((10 * x + y : ℕ) : ℤ)) ∨
      (a = '+' ∧ isAsciiDigit b = true ∧ 0 ≤ n ∧ (b = '0' ↔ n = 0)) ∨
        (a = '-' ∧ n ≤ 0 ∧ (b = '0' ↔ n = 0)) := by
  unfold parseI16 at h
  split at h
  · rename_i heq
    obtain ⟨rfl, rfl⟩ := List.cons.inj heq
    obtain ⟨m, hm, rfl⟩ := Option.map_eq_some_iff.mp h
    obtain ⟨hdigit, hzero⟩ := one_of_digitsValue hm
    exact .inr (.inl ⟨rfl, hdigit, Int.natCast_nonneg m, hzero.trans (by simp)⟩)
  · rename_i heq
    obtain ⟨rfl, rfl⟩ := List.cons.inj heq
    obtain ⟨m, hm, rfl⟩ := Option.map_eq_some_iff.mp h
    obtain ⟨-, hzero⟩ := one_of_digitsValue hm
    exact .inr (.inr ⟨rfl, by simp, hzero.trans (by simp)⟩)
  · obtain ⟨m, hm, rfl⟩ := Option.map_eq_some_iff.mp h
    obtain ⟨x, hx, y, hy, rfl, rfl, rfl⟩ := pair_of_digitsValue hm
    exact .inl ⟨x, hx, y, hy, rfl, rfl, rfl⟩

theorem volumeCode_even {x y : ℕ} (hy : y < 10) :
    volumeCode (2 * (10 * x + y)) = [Nat.digitChar x, Nat.digitChar y] := by
  unfold volumeCode
  rw [if_pos (by omega), show 2 * (10 * x + y) / 2 / 10 = x by omega, show 2 * (10 * x + y) / 2 % 10 = y by omega]

theorem volumeCode_odd {x y : ℕ} (hy : y < 10) :
    volumeCode (2 * (10 * x + y) + 1) = [Nat.digitChar x, Nat.digitChar y, '5'] := by
  unfold volumeCode
  rw [if_neg (by omega), show (2 * (10 * x + y) + 1) / 2 / 10 = x by omega,
    show (2 * (10 * x + y) + 1) / 2 % 10 = y by omega]

/-- A code with a level above the lowest native one is the encoder's, or it has a sign. -/
theorem code_of_nativeOf {code : List Char} {native : ℤ} (h : nativeOf code = some native) (hpos : 0 < native) :
    signedCode code = true ∨ (native < 200 ∧ code = volumeCode native.toNat) := by
  unfold nativeOf at h
  split_ifs at h with htwo hthree
  · obtain ⟨a, b, rfl⟩ := List.length_eq_two.mp htwo
    obtain ⟨n, hn, rfl⟩ := Option.map_eq_some_iff.mp h
    rcases parseI16_cases hn with ⟨x, hx, y, hy, rfl, rfl, rfl⟩ | ⟨rfl, hdigit, -, hzero⟩ | ⟨rfl, hle, -⟩
    · refine .inr ⟨by omega, ?_⟩
      rw [show (((10 * x + y : ℕ) : ℤ) * 2).toNat = 2 * (10 * x + y) by omega]
      exact (volumeCode_even hy).symm
    · left
      have hb : b ≠ '0' := fun hb => by
        rw [hzero.mp hb] at hpos
        exact absurd hpos (by decide)
      simp [signedCode, hdigit, hb]
    · omega
  · obtain ⟨a, b, c, rfl⟩ := List.length_eq_three.mp hthree.1
    have hc : c = '5' := by simpa using hthree.2
    subst hc
    obtain ⟨n, hn, rfl⟩ := Option.map_eq_some_iff.mp h
    rcases parseI16_cases (a := a) (b := b) hn with
      ⟨x, hx, y, hy, rfl, rfl, rfl⟩ | ⟨rfl, hdigit, -, -⟩ | ⟨rfl, hle, hzero⟩
    · refine .inr ⟨by omega, ?_⟩
      rw [show (((10 * x + y : ℕ) : ℤ) * 2 + 1).toNat = 2 * (10 * x + y) + 1 by omega]
      exact (volumeCode_odd hy).symm
    · left
      simp [signedCode, hdigit]
    · left
      have hb : b = '0' := hzero.mpr (by omega)
      subst hb
      rfl

/-- The codes with a sign have a level. -/
theorem nativeOf_of_signedCode {code : List Char} (h : signedCode code = true) :
    ∃ native : ℤ, nativeOf code = some native ∧ 0 < native ∧ native < 20 ∧ code ≠ volumeCode native.toNat := by
  unfold signedCode at h
  split at h
  · simp only [Bool.and_eq_true, beq_iff_eq, bne_iff_ne] at h
    obtain ⟨⟨rfl, hdigit⟩, hne⟩ := h
    obtain ⟨y, hy, rfl⟩ := exists_digitChar hdigit
    have hpos : y ≠ 0 := fun hy => hne (by rw [hy]; rfl)
    refine ⟨2 * y, ?_, by omega, by omega, ?_⟩
    · revert hy y
      decide
    · revert hy y
      decide
  · simp only [Bool.and_eq_true, Bool.or_eq_true, beq_iff_eq] at h
    obtain ⟨⟨rfl, hdigit⟩ | ⟨rfl, rfl⟩, rfl⟩ := h
    · obtain ⟨y, hy, rfl⟩ := exists_digitChar hdigit
      refine ⟨2 * y + 1, ?_, by omega, by omega, ?_⟩
      · revert hy y
        decide
      · revert hy y
        decide
    · exact ⟨1, by decide, by decide, by decide, by decide⟩
  · cases h

/-! ### Volume lines -/

/-- A volume line with a sign. -/
def signedVolume (line : String) : Bool := hasPrefix "MV" line && signedCode (line.toList.drop 2)

theorem toList_of_hasPrefix_mv {line : String} (h : hasPrefix "MV" line = true) :
    line.toList = 'M' :: 'V' :: line.toList.drop 2 := by
  have htake := take_of_hasPrefix h
  conv_lhs => rw [← List.take_append_drop 2 line.toList]
  rw [show line.toList.take 2 = "MV".toList from htake]
  rfl

/-- A line is read as a level by the volume grammar only. -/
theorem parseVolume_of_parse {line : String} {v : MasterVolume} (h : parse line = .ok (.volume v)) :
    hasPrefix "MV" line = true ∧ parseVolume line = .ok v := by
  unfold parse at h
  split at h
  · rename_i hexact
    cases h
    unfold parseExact at hexact
    split at hexact <;> cases hexact
  · split_ifs at h with hmax hmv hsi hms
    · cases h
    · cases hvolume : parseVolume line with
      | error error => simp [hvolume, Except.map] at h
      | ok volume =>
        simp only [hvolume, Except.map, Except.ok.injEq, X3800hFrame.volume.injEq] at h
        exact ⟨hmv, by rw [h]⟩
    · cases hsource : SourceId.new (afterPrefix 2 line) <;> simp [hsource, Except.map, Except.mapError] at h
    · cases h
    · cases h

theorem length_of_nativeOf {code : List Char} {native : ℤ} (h : nativeOf code = some native) : code.length < 4 := by
  unfold nativeOf at h
  split_ifs at h with htwo hthree <;> omega

/-- And a line the volume grammar reads is none of the fixed ones. -/
theorem parse_of_parseVolume {line : String} {v : MasterVolume} (hmv : hasPrefix "MV" line = true)
    (h : parseVolume line = .ok v) : parse line = .ok (.volume v) := by
  have hexact : parseExact line = none := by
    unfold parseExact
    split
    case h_10 => rfl
    case h_9 =>
      rw [show parseVolume "MV---" = .error (.invalidVolume "invalid X3800H volume frame") by decide] at h
      cases h
    all_goals exact absurd hmv (by decide)
  have hmax : hasPrefix "MVMAX " line = false := by
    unfold parseVolume at h
    split_ifs at h with hmin
    · subst hmin
      decide
    · cases hnative : nativeOf (line.toList.drop 2) with
      | none => simp [hnative] at h
      | some native =>
        have hlength := length_of_nativeOf hnative
        by_contra hmax
        have hle := (List.isPrefixOf_iff_prefix.mp (Bool.not_eq_false _ ▸ hmax : hasPrefix "MVMAX " line = true)).length_le
        rw [List.length_drop] at hlength
        have : "MVMAX ".toList.length = 6 := by decide
        omega
  unfold parse
  rw [hexact]
  simp only [hmax, hmv, h, Except.map, Bool.false_eq_true, if_false, if_true]

theorem ofHalfSteps_eq_ok {value : ℤ} {v : MasterVolume} :
    MasterVolume.ofHalfSteps value = .ok v ↔ ∃ h : -159 ≤ value ∧ value ≤ 36, v = .dbHalfSteps ⟨value, h⟩ := by
  unfold MasterVolume.ofHalfSteps
  split_ifs with h
  · simp only [Except.ok.injEq]
    exact ⟨fun heq => ⟨h, heq.symm⟩, fun ⟨_, heq⟩ => heq.symm⟩
  · constructor
    · intro heq
      cases heq
    · rintro ⟨h', -⟩
      exact absurd h' h

/-- The level of a line other than `MVMIN`. -/
theorem parseVolume_eq_ok {line : String} {v : MasterVolume} (hmin : line ≠ "MVMIN") :
    parseVolume line = .ok v ↔
      ∃ native, nativeOf (line.toList.drop 2) = some native ∧ MasterVolume.ofHalfSteps (native - 160) = .ok v := by
  unfold parseVolume
  rw [if_neg hmin]
  cases nativeOf (line.toList.drop 2) with
  | none => simp
  | some native =>
    cases hstep : MasterVolume.ofHalfSteps (native - 160) <;> simp [hstep, Except.mapError]

/-- **What is read as a level** is what the encoder sends for it, or has a sign. -/
theorem volume_line_cases {line : String} {v : MasterVolume} (h : parse line = .ok (.volume v)) :
    line = volumeCommand v ∨ signedVolume line = true := by
  obtain ⟨hmv, hvolume⟩ := parseVolume_of_parse h
  by_cases hmin : line = "MVMIN"
  · subst hmin
    cases hvolume
    exact .inl rfl
  · obtain ⟨native, hnative, hstep⟩ := (parseVolume_eq_ok hmin).mp hvolume
    obtain ⟨hrange, rfl⟩ := ofHalfSteps_eq_ok.mp hstep
    rcases code_of_nativeOf hnative (by omega) with hsigned | ⟨-, hcode⟩
    · right
      simp [signedVolume, hmv, hsigned]
    · left
      apply String.toList_injective
      rw [toList_of_hasPrefix_mv hmv, hcode, toList_volumeCommand]
      simp

theorem hasPrefix_volumeCommand (v : MasterVolume) : hasPrefix "MV" (volumeCommand v) = true := by
  cases v with
  | minimum => decide
  | dbHalfSteps step =>
    unfold hasPrefix
    rw [toList_volumeCommand]
    rfl

/-- **What the encoder sends for a level** is read as that level. -/
theorem parse_volumeCommand (v : MasterVolume) : parse (volumeCommand v) = .ok (.volume v) := by
  apply parse_of_parseVolume (hasPrefix_volumeCommand v)
  cases v with
  | minimum => decide
  | dbHalfSteps step =>
    have hrange := step.property
    have hnative : nativeOf ((volumeCommand (.dbHalfSteps step)).toList.drop 2) = some (step.val + 160) := by
      rw [toList_volumeCommand, List.drop_succ_cons, List.drop_succ_cons, List.drop_zero,
        nativeOf_volumeCode (by omega)]
      congr 1
      omega
    have hmin : volumeCommand (.dbHalfSteps step) ≠ "MVMIN" := by
      intro hmin
      rw [hmin] at hnative
      exact absurd hnative (by rw [show nativeOf ("MVMIN".toList.drop 2) = none by decide]; simp)
    rw [parseVolume_eq_ok hmin]
    refine ⟨_, hnative, ofHalfSteps_eq_ok.mpr ⟨by omega, ?_⟩⟩
    congr 1
    exact Subtype.ext (by simp)

/-- A line with a sign is read as a level, and it is not the line of that level. -/
theorem parse_of_signedVolume {line : String} (h : signedVolume line = true) :
    ∃ v, parse line = .ok (.volume v) ∧ line ≠ volumeCommand v := by
  simp only [signedVolume, Bool.and_eq_true] at h
  obtain ⟨hmv, hsigned⟩ := h
  obtain ⟨native, hnative, hpos, hlt, hcode⟩ := nativeOf_of_signedCode hsigned
  have hmin : line ≠ "MVMIN" := by
    rintro rfl
    exact absurd hsigned (by decide)
  refine ⟨.dbHalfSteps ⟨native - 160, by omega⟩, parse_of_parseVolume hmv ?_, fun heq => hcode ?_⟩
  · exact (parseVolume_eq_ok hmin).mpr ⟨native, hnative, ofHalfSteps_eq_ok.mpr ⟨by omega, rfl⟩⟩
  · rw [heq, toList_volumeCommand]
    simp

/-! ### The lines of commands -/

/-- The line a command is sent as. -/
def encodedLine (intent : ReceiverIntent) : Option String := (encode intent).toOption.map AvrCommand.text

theorem encodedLine_eq_some {intent : ReceiverIntent} {line : String} :
    encodedLine intent = some line ↔
      encodeText intent = .ok line ∧ commandIsEmpty line = false ∧ hasLineBreak line = false := by
  unfold encodedLine encode
  cases htext : encodeText intent with
  | error error => simp [bind, Except.bind, Except.toOption]
  | ok text =>
    simp only [bind, Except.bind, AvrCommand.new, Except.ok.injEq]
    split_ifs with hempty hbreak
    · simp only [Except.toOption, Option.map_none, reduceCtorEq, false_iff]
      rintro ⟨rfl, hempty', -⟩
      exact absurd hempty (by rw [hempty']; decide)
    · simp only [Except.toOption, Option.map_none, reduceCtorEq, false_iff]
      rintro ⟨rfl, -, hbreak'⟩
      exact absurd hbreak (by rw [hbreak']; decide)
    · simp only [Except.toOption, Option.map_some, Option.some.injEq]
      constructor
      · rintro rfl
        exact ⟨rfl, by simpa using hempty, by simpa using hbreak⟩
      · exact fun h => h.1

/-- A character that can stand in a command. -/
def isSendable (c : Char) : Bool := !(c == '\r' || c == '\n')

theorem hasLineBreak_eq_false {line : String} (h : ∀ c ∈ line.toList, isSendable c = true) : hasLineBreak line = false := by
  unfold hasLineBreak
  rw [List.any_eq_false]
  intro c hc
  simpa [isSendable] using h c hc

theorem commandIsEmpty_append {start rest : String} (h : start.toList ≠ []) : commandIsEmpty (start ++ rest) = false := by
  unfold commandIsEmpty
  rw [Bool.eq_false_iff]
  intro hempty
  have hnil : (start ++ rest).toList = [] := by
    rw [String.isEmpty_iff.mp hempty]
    rfl
  rw [String.toList_append, List.append_eq_nil_iff] at hnil
  exact h hnil.1

theorem isSendable_volumeCode {native : ℕ} (h : native < 200) {c : Char} (hc : c ∈ volumeCode native) : isSendable c = true := by
  have hdigit : ∀ d < 10, isSendable (Nat.digitChar d) = true := by decide
  unfold volumeCode at hc
  rw [List.mem_cons, List.mem_cons] at hc
  rcases hc with rfl | rfl | hc
  · exact hdigit _ (by omega)
  · exact hdigit _ (by omega)
  · split_ifs at hc
    · cases hc
    · rw [List.mem_singleton.mp hc]
      decide

theorem isSendable_of_plain {value : String} (h : isPlainText value = true) {c : Char} (hc : c ∈ value.toList) :
    isSendable c = true := by
  simp only [isPlainText, Bool.and_eq_true, Bool.not_eq_true', List.any_eq_false] at h
  have hcontrol := h.2 c hc
  unfold isSendable
  rw [Bool.not_eq_true', Bool.or_eq_false_iff]
  constructor
  · rw [beq_eq_false_iff_ne]
    rintro rfl
    exact hcontrol (by decide)
  · rw [beq_eq_false_iff_ne]
    rintro rfl
    exact hcontrol (by decide)

/-- Every text the encoder comes up with can be sent. -/
theorem encodedLine_of_encodeText {intent : ReceiverIntent} {line : String} (h : encodeText intent = .ok line) :
    encodedLine intent = some line := by
  refine encodedLine_eq_some.mpr ⟨h, ?_⟩
  cases intent with
  | systemPower value => cases value <;> cases h <;> decide
  | mainZonePower value => cases value <;> cases h <;> decide
  | zone2Power value => cases value <;> cases h <;> decide
  | mute value => cases value <;> cases h <;> decide
  | source id =>
    simp only [encodeText] at h
    split at h
    · rename_i canonical hcanonical
      have hall : ∀ name ∈ x3800hInputs,
          commandIsEmpty ("SI" ++ name) = false ∧ hasLineBreak ("SI" ++ name) = false := by decide
      cases h
      exact hall canonical (List.mem_of_find?_eq_some hcanonical)
    · cases h
  | volume value =>
    cases h
    cases value with
    | minimum => decide
    | dbHalfSteps step =>
      have hrange := step.property
      constructor
      · unfold volumeCommand
        dsimp only
        split_ifs
        · exact commandIsEmpty_append (by decide)
        · rw [String.append_assoc]
          exact commandIsEmpty_append (by decide)
      · apply hasLineBreak_eq_false
        rw [toList_volumeCommand]
        intro c hc
        rw [List.mem_cons, List.mem_cons] at hc
        rcases hc with rfl | rfl | hc
        · decide
        · decide
        · exact isSendable_volumeCode (by omega) hc
  | soundMode mode =>
    cases mode with
    | select value =>
      simp only [encodeText, soundModeCommand] at h
      split_ifs at h with hplain
      cases h
      refine ⟨commandIsEmpty_append (by decide), hasLineBreak_eq_false fun c hc => ?_⟩
      rw [String.toList_append, List.mem_append] at hc
      rcases hc with hc | hc
      · have hall : "MS".toList.all isSendable = true := by decide
        exact List.all_eq_true.mp hall c hc
      · exact isSendable_of_plain hplain hc
    | _ =>
      cases h
      decide

theorem encodedLine_volume (v : MasterVolume) : encodedLine (.volume v) = some (volumeCommand v) :=
  encodedLine_of_encodeText rfl

/-! ### The grammar -/

/-- Every level the line is read as is sent as that line. -/
def ReadAsSent (line : String) : Prop := ∀ v, parse line = .ok (.volume v) → encodedLine (.volume v) = some line

/-- A level of one digit behind a sign. -/
theorem not_readAsSent_signed : ¬ ReadAsSent "MV+5" := by
  intro h
  have hsent := h (.dbHalfSteps ⟨-150, by decide⟩) (by decide)
  exact absurd hsent (by decide)

/-- **The volume grammar**: a line without a sign is read as the level it is sent for and as no other, and every
level is read back. -/
theorem volume_grammar (line : String) (v : MasterVolume) :
    (ReadAsSent line ↔ signedVolume line = false) ∧
      (encodedLine (.volume v)).map parse = some (.ok (.volume v)) := by
  constructor
  · constructor
    · intro hread
      by_contra hsigned
      obtain ⟨w, hparse, hne⟩ := parse_of_signedVolume (Bool.not_eq_false _ ▸ hsigned)
      have hsent := hread w hparse
      rw [encodedLine_volume] at hsent
      exact hne (Option.some.inj hsent).symm
    · intro hsigned w hparse
      rw [encodedLine_volume]
      rcases volume_line_cases hparse with heq | hbad
      · rw [← heq]
      · rw [hbad] at hsigned
        cases hsigned
  · rw [encodedLine_volume, Option.map_some, parse_volumeCommand]

/-! ### Correlation -/

/-- The family of the answers to an intent's query. -/
def queryFamily (intent : ReceiverIntent) : String := getCommandFamily (query intent).text

theorem queryFamily_eq (intent : ReceiverIntent) : queryFamily intent = familyOf intent.field := rfl

/-- A line read as a level, or as no level, answers the query for the level; a ceiling does not. -/
structure VolumeCorrelated (line : String) : Prop where
  volume : ∀ v, parse line = .ok (.volume v) → responseMatches (familyOf .volume) line = true
  unavailable : parse line = .ok .volumeUnavailable → responseMatches (familyOf .volume) line = true
  limit : ∀ text, parse line = .ok (.volumeLimit text) → responseMatches (familyOf .volume) line = false

/-- What is sent for an intent would answer the query for its field, and no line read as another field does. -/
structure IntentCorrelated (intent : ReceiverIntent) : Prop where
  own : ∀ line, encodedLine intent = some line → responseMatches (queryFamily intent) line = true
  others : ∀ line frame, observationOf line = some frame → frame.field ≠ intent.field →
    responseMatches (queryFamily intent) line = false

theorem responseMatches_mv {line : String} {code : List Char} (hline : line.toList = 'M' :: 'V' :: code) :
    responseMatches (familyOf .volume) line = (code == "---".toList || (!code.isEmpty && code.all isAsciiDigit)) := by
  have hpre : hasPrefix "MV" line = true := by
    unfold hasPrefix
    rw [hline]
    rfl
  rw [familyOf_volume]
  unfold responseMatches
  rw [hpre, hline]
  rfl

theorem all_isAsciiDigit_volumeCode {native : ℕ} (h : native < 200) : (volumeCode native).all isAsciiDigit = true := by
  unfold volumeCode
  rw [List.all_cons, List.all_cons, isAsciiDigit_digitChar (by omega), isAsciiDigit_digitChar (by omega)]
  split_ifs <;> decide

/-- A level but the minimum is sent as a line that answers the query for it. -/
theorem responseMatches_volumeCommand (step : VolumeStep) :
    responseMatches (familyOf .volume) (volumeCommand (.dbHalfSteps step)) = true := by
  have hrange := step.property
  rw [responseMatches_mv (toList_volumeCommand step), all_isAsciiDigit_volumeCode (by omega)]
  simp [volumeCode]

/-- A line with a sign does not. -/
theorem responseMatches_of_signedVolume {line : String} (h : signedVolume line = true) :
    responseMatches (familyOf .volume) line = false := by
  simp only [signedVolume, Bool.and_eq_true] at h
  rw [responseMatches_mv (toList_of_hasPrefix_mv h.1)]
  have hsigned := h.2
  unfold signedCode at hsigned
  split at hsigned
  · rename_i heq
    simp only [Bool.and_eq_true, beq_iff_eq] at hsigned
    obtain ⟨⟨rfl, -⟩, -⟩ := hsigned
    rw [heq]
    rfl
  · rename_i heq
    simp only [Bool.and_eq_true, Bool.or_eq_true, beq_iff_eq] at hsigned
    obtain ⟨⟨rfl, -⟩ | ⟨rfl, rfl⟩, -⟩ := hsigned
    · rw [heq]
      rfl
    · rw [heq]
      rfl
  · cases hsigned

theorem eq_of_parse_volumeUnavailable {line : String} (h : parse line = .ok .volumeUnavailable) : line = "MV---" := by
  unfold parse at h
  split at h
  · rename_i hexact
    cases h
    unfold parseExact at hexact
    split at hexact <;> first | rfl | cases hexact
  · split_ifs at h with hmax hmv hsi hms
    · cases h
    · cases hvolume : parseVolume line <;> simp [hvolume, Except.map] at h
    · cases hsource : SourceId.new (afterPrefix 2 line) <;> simp [hsource, Except.map, Except.mapError] at h
    · cases h
    · cases h

theorem hasPrefix_of_parse_volumeLimit {line text : String} (h : parse line = .ok (.volumeLimit text)) :
    hasPrefix "MVMAX " line = true := by
  unfold parse at h
  split at h
  · rename_i hexact
    cases h
    unfold parseExact at hexact
    split at hexact <;> cases hexact
  · split_ifs at h with hmax hmv hsi hms
    · exact hmax
    · cases hvolume : parseVolume line <;> simp [hvolume, Except.map] at h
    · cases hsource : SourceId.new (afterPrefix 2 line) <;> simp [hsource, Except.map, Except.mapError] at h
    · cases h
    · cases h

theorem responseMatches_of_hasPrefix_mvmax {line : String} (h : hasPrefix "MVMAX " line = true) :
    responseMatches (familyOf .volume) line = false := by
  obtain ⟨rest, hrest⟩ := List.isPrefixOf_iff_prefix.mp h
  have hline : line.toList = 'M' :: 'V' :: 'M' :: 'A' :: 'X' :: ' ' :: rest := hrest.symm
  rw [responseMatches_mv hline]
  rfl

/-- A line is correlated as it is read, but for the minimum and the lines with a sign. -/
theorem volumeCorrelated_iff (line : String) : VolumeCorrelated line ↔ line ≠ "MVMIN" ∧ signedVolume line = false := by
  constructor
  · intro h
    constructor
    · rintro rfl
      exact absurd (h.volume .minimum (by decide)) (by decide)
    · by_contra hsigned
      rw [Bool.not_eq_false] at hsigned
      obtain ⟨v, hparse, -⟩ := parse_of_signedVolume hsigned
      have hmatches := h.volume v hparse
      rw [responseMatches_of_signedVolume hsigned] at hmatches
      cases hmatches
  · rintro ⟨hmin, hsigned⟩
    refine ⟨fun v hparse => ?_, fun hparse => ?_, fun text hparse => ?_⟩
    · rcases volume_line_cases hparse with rfl | hbad
      · cases v with
        | minimum => exact absurd rfl hmin
        | dbHalfSteps step => exact responseMatches_volumeCommand step
      · rw [hbad] at hsigned
        cases hsigned
    · rw [eq_of_parse_volumeUnavailable hparse]
      decide
    · exact responseMatches_of_hasPrefix_mvmax (hasPrefix_of_parse_volumeLimit hparse)

/-- Outside the levels, correlation looks at the prefix only. -/
theorem responseMatches_append {family rest : String} (h : family ≠ "MV") :
    responseMatches family (family ++ rest) = true := by
  have hpre : hasPrefix family (family ++ rest) = true := by
    unfold hasPrefix
    rw [String.toList_append, List.isPrefixOf_iff_prefix]
    exact List.prefix_append _ _
  unfold responseMatches
  rw [hpre]
  simp [h]

theorem intentCorrelated_iff (intent : ReceiverIntent) : IntentCorrelated intent ↔ intent ≠ .volume .minimum := by
  constructor
  · rintro h rfl
    exact absurd (h.own "MVMIN" (by decide)) (by decide)
  · intro hmin
    refine ⟨fun line hline => ?_, fun line frame hobs hfield => ?_⟩
    · rw [queryFamily_eq]
      obtain ⟨htext, -⟩ := encodedLine_eq_some.mp hline
      cases intent with
      | systemPower value => cases value <;> cases htext <;> decide
      | mainZonePower value => cases value <;> cases htext <;> decide
      | zone2Power value => cases value <;> cases htext <;> decide
      | mute value => cases value <;> cases htext <;> decide
      | source id =>
        simp only [encodeText] at htext
        split at htext
        · cases htext
          show responseMatches (familyOf .source) _ = true
          rw [familyOf_source]
          exact responseMatches_append (by decide)
        · cases htext
      | volume value =>
        cases htext
        cases value with
        | minimum => exact absurd rfl hmin
        | dbHalfSteps step => exact responseMatches_volumeCommand step
      | soundMode mode =>
        cases mode with
        | select value =>
          simp only [encodeText, soundModeCommand] at htext
          split_ifs at htext
          cases htext
          show responseMatches (familyOf .soundMode) _ = true
          rw [familyOf_soundMode]
          exact responseMatches_append (by decide)
        | _ =>
          cases htext
          decide
    · by_contra hmatches
      rw [queryFamily_eq, Bool.not_eq_false] at hmatches
      exact hfield (field_of_responseMatches hmatches hobs)

/-- **Correlation agrees with the parser** on every line but `MVMIN` and those with a sign, and on what is sent for
every intent but the one for the minimum. -/
theorem correlation_agrees (line : String) (intent : ReceiverIntent) :
    (VolumeCorrelated line ↔ line ≠ "MVMIN" ∧ signedVolume line = false) ∧
      (IntentCorrelated intent ↔ intent ≠ .volume .minimum) :=
  ⟨volumeCorrelated_iff line, intentCorrelated_iff intent⟩

/-- The minimum, as it is sent and as it is reported, and a level with a sign. -/
theorem not_correlated_minimum :
    ¬ VolumeCorrelated "MVMIN" ∧ ¬ IntentCorrelated (.volume .minimum) ∧ ¬ VolumeCorrelated "MV+5" := by
  refine ⟨fun h => ?_, fun h => ?_, fun h => ?_⟩
  · exact absurd (h.volume .minimum (by decide)) (by decide)
  · exact absurd (h.own "MVMIN" (by decide)) (by decide)
  · exact absurd (h.volume (.dbHalfSteps ⟨-150, by decide⟩) (by decide)) (by decide)

end DenonAvr.Protocol
