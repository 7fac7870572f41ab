import Mathlib.Tactic

/-!
# Lossy UTF-8

Text is a list of characters and `encode` its bytes. `decodeLossy` reads any bytes back: each longest piece that
begins a character and does not complete it, and each byte that begins none, becomes one replacement character.

Text that was encoded is read back whole, text that was cut short is read back up to the cut with at most one
replacement character after it (`decodeLossy_encode_torn`), and a line ending is never part of another character,
so that bytes may be cut into lines before they are read or after (`decodeLossy_newline`).
-/

namespace DenonAvr.Library.Utf8

def replacement : Char := '\uFFFD'

def encode (text : List Char) : List UInt8 := text.flatMap String.utf8EncodeChar

/-- The number that the bytes of one character stand for. -/
def scalarOf : List UInt8 → Option ℕ
  | [a] => some a.toNat
  | [a, b] => some ((a.toNat - 0xC0) * 64 + (b.toNat - 0x80))
  | [a, b, c] => some ((a.toNat - 0xE0) * 4096 + (b.toNat - 0x80) * 64 + (c.toNat - 0x80))
  | [a, b, c, d] =>
    some ((a.toNat - 0xF0) * 262144 + (b.toNat - 0x80) * 4096 + (c.toNat - 0x80) * 64 + (d.toNat - 0x80))
  | _ => none

/-- The character that the bytes are, if they are one. -/
def charOf (bytes : List UInt8) : Option Char :=
  (scalarOf bytes).bind fun scalar =>
    if String.utf8EncodeChar (Char.ofNat scalar) = bytes then some (Char.ofNat scalar) else none

def isTail (b : UInt8) : Bool := 0x80 ≤ b.toNat && b.toNat ≤ 0xBF

/-- A second byte that may follow the first. -/
def isSecond (a b : UInt8) : Bool :=
  isTail b &&
    (a.toNat != 0xE0 || 0xA0 ≤ b.toNat) && (a.toNat != 0xED || b.toNat ≤ 0x9F) &&
      (a.toNat != 0xF0 || 0x90 ≤ b.toNat) && (a.toNat != 0xF4 || b.toNat ≤ 0x8F)

/-- The bytes begin a character and do not complete it. -/
def isPartial : List UInt8 → Bool
  | [a] => 0xC2 ≤ a.toNat && a.toNat ≤ 0xF4
  | [a, b] => 0xE0 ≤ a.toNat && a.toNat ≤ 0xF4 && isSecond a b
  | [a, b, c] => 0xF0 ≤ a.toNat && a.toNat ≤ 0xF4 && isSecond a b && isTail c
  | _ => false

/-- Read bytes after `pending`, which begins a character or is empty. -/
def decodeFrom (pending : List UInt8) : List UInt8 → List Char
  | [] => if pending = [] then [] else [replacement]
  | b :: rest =>
    let restart :=
      match charOf [b] with
      | some c => c :: decodeFrom [] rest
      | none => if isPartial [b] then decodeFrom [b] rest else replacement :: decodeFrom [] rest
    if pending = [] then restart
    else
      match charOf (pending ++ [b]) with
      | some c => c :: decodeFrom [] rest
      | none => if isPartial (pending ++ [b]) then decodeFrom (pending ++ [b]) rest else replacement :: restart

/-- `String::from_utf8_lossy`. -/
def decodeLossy (bytes : List UInt8) : List Char := decodeFrom [] bytes

/-- `str::from_utf8`. -/
def decode (bytes : List UInt8) : Option (List Char) :=
  if encode (decodeLossy bytes) = bytes then some (decodeLossy bytes) else none

/-! ### One character -/

section Char
variable {c d : Char} {torn more : List UInt8} {b : UInt8}

theorem toNat_lt (c : Char) : c.toNat < 0x110000 ∧ ¬ (0xD800 ≤ c.toNat ∧ c.toNat ≤ 0xDFFF) := by
  have h := c.valid
  simp only [UInt32.isValidChar, Nat.isValidChar] at h
  change c.toNat < 0xd800 ∨ 0xdfff < c.toNat ∧ c.toNat < 0x110000 at h
  omega

theorem div_div_sixtyFour (n : ℕ) : n / 64 / 64 = n / 4096 ∧ n / 4096 / 64 = n / 262144 :=
  ⟨Nat.div_div_eq_div_mul n 64 64, Nat.div_div_eq_div_mul n 4096 64⟩

/-- The four forms of a character. -/
theorem encodeChar_cases (c : Char) :
    (∃ a : UInt8, String.utf8EncodeChar c = [a] ∧ c.toNat ≤ 0x7F ∧ a.toNat = c.toNat) ∨
    (∃ a b : UInt8, String.utf8EncodeChar c = [a, b] ∧ 0x7F < c.toNat ∧ c.toNat ≤ 0x7FF ∧
      a.toNat = c.toNat / 64 + 0xC0 ∧ b.toNat = c.toNat % 64 + 0x80) ∨
    (∃ a b d : UInt8, String.utf8EncodeChar c = [a, b, d] ∧ 0x7FF < c.toNat ∧ c.toNat ≤ 0xFFFF ∧
      a.toNat = c.toNat / 4096 + 0xE0 ∧ b.toNat = c.toNat / 64 % 64 + 0x80 ∧ d.toNat = c.toNat % 64 + 0x80) ∨
    ∃ a b d e : UInt8, String.utf8EncodeChar c = [a, b, d, e] ∧ 0xFFFF < c.toNat ∧
      a.toNat = c.toNat / 262144 + 0xF0 ∧ b.toNat = c.toNat / 4096 % 64 + 0x80 ∧
        d.toNat = c.toNat / 64 % 64 + 0x80 ∧ e.toNat = c.toNat % 64 + 0x80 := by
  have hlt := (toNat_lt c).1
  have hval : c.val.toNat = c.toNat := rfl
  unfold String.utf8EncodeChar
  simp only [hval]
  split_ifs with h1 h2 h3
  · exact .inl ⟨_, rfl, h1, by rw [UInt8.toNat_ofNat']; omega⟩
  · refine .inr (.inl ⟨_, _, rfl, by omega, h2, ?_, ?_⟩) <;> (rw [UInt8.toNat_ofNat']; omega)
  · refine .inr (.inr (.inl ⟨_, _, _, rfl, by omega, h3, ?_, ?_, ?_⟩)) <;> (rw [UInt8.toNat_ofNat']; omega)
  · refine .inr (.inr (.inr ⟨_, _, _, _, rfl, by omega, ?_, ?_, ?_, ?_⟩)) <;> (rw [UInt8.toNat_ofNat']; omega)

theorem charOf_encodeChar (c : Char) : charOf (String.utf8EncodeChar c) = some c := by
  have hscalar : scalarOf (String.utf8EncodeChar c) = some c.toNat := by
    obtain ⟨h64, h4096⟩ := div_div_sixtyFour c.toNat
    rcases encodeChar_cases c with ⟨a, h, -, ha⟩ | ⟨a, b, h, -, -, ha, hb⟩ | ⟨a, b, d, h, -, -, ha, hb, hd⟩ |
      ⟨a, b, d, e, h, -, ha, hb, hd, he⟩
    all_goals
      rw [h]
      simp only [scalarOf, Option.some.injEq]
      omega
  unfold charOf
  rw [hscalar, Option.bind_some, Char.ofNat_toNat, if_pos rfl]

theorem encodeChar_of_charOf (h : charOf torn = some c) : String.utf8EncodeChar c = torn := by
  obtain ⟨scalar, -, h⟩ := Option.bind_eq_some_iff.mp h
  split_ifs at h with heq
  exact Option.some.inj h ▸ heq

/-- A character that is cut short. -/
def Torn (torn : List UInt8) : Prop := torn ≠ [] ∧ ∃ c more, more ≠ [] ∧ String.utf8EncodeChar c = torn ++ more

theorem Torn.isPartial (h : Torn torn) : isPartial torn = true := by
  obtain ⟨hne, c, more, hmore, henc⟩ := h
  obtain ⟨first, torn, rfl⟩ := List.exists_cons_of_ne_nil hne
  obtain ⟨next, more, rfl⟩ := List.exists_cons_of_ne_nil hmore
  obtain ⟨hlt, hsurrogate⟩ := toNat_lt c
  obtain ⟨h64, h4096⟩ := div_div_sixtyFour c.toNat
  rcases encodeChar_cases c with ⟨a, h, hle, ha⟩ | ⟨a, b, h, hge, hle, ha, hb⟩ |
    ⟨a, b, d, h, hge, hle, ha, hb, hd⟩ | ⟨a, b, d, e, h, hge, ha, hb, hd, he⟩ <;>
  rw [h] at henc <;>
  rcases torn with _ | ⟨second, _ | ⟨third, _ | ⟨fourth, torn⟩⟩⟩ <;>
  simp only [List.cons_append, List.nil_append, List.cons.injEq, List.nil_eq_append_iff, reduceCtorEq, and_false]
    at henc
  all_goals
    obtain ⟨rfl, henc⟩ := henc
    try obtain ⟨rfl, henc⟩ := henc
    try obtain ⟨rfl, henc⟩ := henc
    simp only [Utf8.isPartial, isSecond, isTail, Bool.and_eq_true, Bool.or_eq_true, bne_iff_ne, decide_eq_true_eq]
    omega

/-- Characters are told apart by their bytes, also when more bytes follow. -/
theorem encodeChar_append_inj {rest rest' : List UInt8}
    (h : String.utf8EncodeChar c ++ rest = String.utf8EncodeChar d ++ rest') : c = d ∧ rest = rest' := by
  have hdecode : ∀ (c : Char) (rest : List UInt8),
      ByteArray.utf8DecodeChar? (String.utf8EncodeChar c ++ rest).toByteArray 0 = some c := by
    intro c rest
    rw [List.toByteArray_append]
    exact ByteArray.utf8DecodeChar?_utf8EncodeChar_append
  have hsame := hdecode c rest
  rw [h, hdecode d rest'] at hsame
  obtain rfl := Option.some.inj hsame
  exact ⟨rfl, List.append_cancel_left h⟩

theorem Torn.charOf (h : Torn torn) : charOf torn = none := by
  obtain ⟨-, c, more, hmore, henc⟩ := h
  cases hd : Utf8.charOf torn with
  | none => rfl
  | some d =>
    rw [← encodeChar_of_charOf hd, ← List.append_nil (String.utf8EncodeChar c)] at henc
    exact absurd (encodeChar_append_inj henc).2.symm hmore

/-- A byte below 128 is the character, all of it. -/
theorem toNat_of_mem (hmem : b ∈ String.utf8EncodeChar c) (h : b.toNat < 0x80) : c.toNat = b.toNat := by
  rcases encodeChar_cases c with ⟨a, henc, -, ha⟩ | ⟨a, b', henc, hge, -, ha, hb⟩ | ⟨a, b', d, henc, hge, -, ha, hb, hd⟩ |
    ⟨a, b', d, e, henc, hge, ha, hb, hd, he⟩ <;>
    rw [henc] at hmem <;> simp only [List.mem_cons, List.not_mem_nil, or_false] at hmem
  · subst hmem
    exact ha.symm
  · rcases hmem with rfl | rfl <;> omega
  · rcases hmem with rfl | rfl | rfl <;> omega
  · rcases hmem with rfl | rfl | rfl | rfl <;> omega

/-- A byte of a character that has more than one is no line ending. -/
theorem ne_newline_of_mem (hmem : b ∈ String.utf8EncodeChar c) (hc : c ≠ '\n') : b ≠ 10 := by
  rintro rfl
  have htoNat := toNat_of_mem hmem (by decide)
  exact hc (Char.ext (UInt32.toNat.inj htoNat))

theorem isPartial_newline {pending : List UInt8} (h : pending ≠ []) : isPartial (pending ++ [10]) = false := by
  rcases pending with _ | ⟨a, _ | ⟨b, _ | ⟨d, pending⟩⟩⟩
  · exact absurd rfl h
  · simp [isPartial, isSecond, isTail]
  · simp [isPartial, isTail]
  · cases pending <;> rfl

theorem charOf_newline {pending : List UInt8} (h : pending ≠ []) : charOf (pending ++ [10]) = none := by
  cases hc : charOf (pending ++ [10]) with
  | none => rfl
  | some c =>
    have henc := encodeChar_of_charOf hc
    by_cases hnewline : c = '\n'
    · subst hnewline
      have hlength := congrArg List.length henc
      rw [List.length_append] at hlength
      have hpos := List.length_pos_of_ne_nil h
      rw [show (String.utf8EncodeChar '\n').length = 1 from rfl, List.length_singleton] at hlength
      omega
    · exact absurd rfl (ne_newline_of_mem (b := 10) (by rw [henc]; simp) hnewline)

end Char

/-! ### Text -/

section Text
variable {text : List Char} {bytes pending rest torn : List UInt8} {c : Char}

theorem encode_append (text more : List Char) : encode (text ++ more) = encode text ++ encode more :=
  List.flatMap_append

theorem encode_cons (c : Char) (text : List Char) : encode (c :: text) = String.utf8EncodeChar c ++ encode text := rfl

theorem newline_mem_encode : (10 : UInt8) ∈ encode text ↔ '\n' ∈ text := by
  unfold encode
  rw [List.mem_flatMap]
  constructor
  · rintro ⟨c, hc, hmem⟩
    by_cases hnewline : c = '\n'
    · exact hnewline ▸ hc
    · exact absurd rfl (ne_newline_of_mem hmem hnewline)
  · exact fun h => ⟨'\n', h, by decide⟩

theorem Torn.of_append (h : Torn (pending ++ torn)) (hne : pending ≠ []) : Torn pending := by
  obtain ⟨-, c, more, hmore, henc⟩ := h
  exact ⟨hne, c, torn ++ more, by simp [hmore], by rw [henc, List.append_assoc]⟩

/-- A byte that carries a character on. -/
theorem decodeFrom_partial {b : UInt8} (h : Torn (pending ++ [b])) (rest : List UInt8) :
    decodeFrom pending (b :: rest) = decodeFrom (pending ++ [b]) rest := by
  have hchar := h.charOf
  have hpartial := h.isPartial
  by_cases hpending : pending = []
  · subst hpending
    rw [List.nil_append] at hchar hpartial
    simp [decodeFrom, hchar, hpartial]
  · simp [decodeFrom, hpending, hchar, hpartial]

/-- The byte that completes a character. -/
theorem decodeFrom_complete {b : UInt8} (h : pending ++ [b] = String.utf8EncodeChar c) (rest : List UInt8) :
    decodeFrom pending (b :: rest) = c :: decodeFrom [] rest := by
  have hchar : charOf (pending ++ [b]) = some c := h ▸ charOf_encodeChar c
  by_cases hpending : pending = []
  · subst hpending
    rw [List.nil_append] at hchar
    simp [decodeFrom, hchar]
  · simp [decodeFrom, hpending, hchar]

theorem decodeFrom_append (h : Torn (pending ++ torn)) (rest : List UInt8) :
    decodeFrom pending (torn ++ rest) = decodeFrom (pending ++ torn) rest := by
  induction torn generalizing pending with
  | nil => rw [List.append_nil, List.nil_append]
  | cons b torn ih =>
    rw [List.append_cons] at h
    rw [List.cons_append, decodeFrom_partial (h.of_append (by simp)), ih h, List.append_cons pending b torn]

theorem decodeFrom_encodeChar (c : Char) (rest : List UInt8) :
    decodeFrom [] (String.utf8EncodeChar c ++ rest) = c :: decodeFrom [] rest := by
  have hne : String.utf8EncodeChar c ≠ [] := by
    rw [← List.length_pos_iff, String.length_utf8EncodeChar]
    exact c.utf8Size_pos
  obtain ⟨torn, last, henc⟩ := (List.eq_nil_or_concat' _).resolve_left hne
  rw [henc, List.append_assoc, List.singleton_append]
  by_cases htorn : torn = []
  · subst htorn
    exact decodeFrom_complete henc.symm rest
  · have h : Torn ([] ++ torn) := ⟨htorn, c, [last], by simp, henc⟩
    rw [decodeFrom_append h, List.nil_append]
    exact decodeFrom_complete henc.symm rest

theorem decodeFrom_encode (text : List Char) (rest : List UInt8) :
    decodeFrom [] (encode text ++ rest) = text ++ decodeFrom [] rest := by
  induction text with
  | nil => rfl
  | cons c text ih => rw [encode_cons, List.append_assoc, decodeFrom_encodeChar, ih, List.cons_append]

theorem decodeLossy_encode (text : List Char) : decodeLossy (encode text) = text := by
  have h := decodeFrom_encode text []
  rwa [List.append_nil, show decodeFrom [] [] = [] from rfl, List.append_nil] at h

theorem encode_injective : Function.Injective encode := by
  intro text text' h
  rw [← decodeLossy_encode text, h, decodeLossy_encode]

/-- What is UTF-8 is the text that it encodes. -/
theorem decode_eq_some {bytes : List UInt8} {text : List Char} : decode bytes = some text ↔ encode text = bytes := by
  unfold decode
  constructor
  · intro h
    split_ifs at h with hvalid
    rw [← Option.some.inj h]
    exact hvalid
  · rintro rfl
    rw [decodeLossy_encode, if_pos rfl]

/-- Text that was cut short within a character. -/
theorem decodeLossy_encode_torn (text : List Char) (htorn : Torn torn) :
    decodeLossy (encode text ++ torn) = text ++ [replacement] := by
  have htorn' : Torn ([] ++ torn) := htorn
  have hread := decodeFrom_append htorn' []
  rw [List.append_nil, List.nil_append] at hread
  unfold decodeLossy
  rw [decodeFrom_encode, hread, decodeFrom, if_neg htorn.1]

/-- Where text may be cut. -/
theorem prefix_encode (h : bytes <+: encode text) :
    ∃ before after, text = before ++ after ∧
      (bytes = encode before ∨ ∃ torn, Torn torn ∧ after ≠ [] ∧ bytes = encode before ++ torn) := by
  induction text generalizing bytes with
  | nil => exact ⟨[], [], rfl, .inl (List.prefix_nil.mp h)⟩
  | cons c text ih =>
    obtain ⟨cut, hcut⟩ := h
    rw [encode_cons] at hcut
    rcases List.append_eq_append_iff.mp hcut with ⟨more, hmore, -⟩ | ⟨rest, rfl, hrest⟩
    · by_cases hnone : more = []
      · subst hnone
        rw [List.append_nil] at hmore
        exact ⟨[c], text, rfl, .inl (by rw [← hmore]; simp [encode])⟩
      · by_cases hempty : bytes = []
        · exact ⟨[], c :: text, rfl, .inl (by rw [hempty]; rfl)⟩
        · exact ⟨[], c :: text, rfl, .inr ⟨bytes, ⟨hempty, c, more, hnone, hmore⟩, by simp, rfl⟩⟩
    · obtain ⟨before, after, rfl, hhow⟩ := ih ⟨cut, hrest.symm⟩
      refine ⟨c :: before, after, rfl, hhow.imp (fun heq => by rw [heq, encode_cons]) ?_⟩
      rintro ⟨torn, htorn, hafter, rfl⟩
      exact ⟨torn, htorn, hafter, by rw [encode_cons, List.append_assoc]⟩

/-- A line ending ends the character before it. -/
theorem decodeFrom_newline (pending bytes rest : List UInt8) :
    decodeFrom pending (bytes ++ 10 :: rest) = decodeFrom pending bytes ++ '\n' :: decodeFrom [] rest := by
  have hten : charOf [10] = some '\n' := by decide
  induction bytes generalizing pending with
  | nil =>
    by_cases hpending : pending = []
    · simp [decodeFrom, hpending, hten]
    · simp [decodeFrom, hpending, hten, charOf_newline hpending, isPartial_newline hpending]
  | cons b bytes ih =>
    simp only [List.cons_append, decodeFrom, ih]
    split_ifs <;> (repeat' split) <;> rfl

theorem decodeLossy_newline (bytes rest : List UInt8) :
    decodeLossy (bytes ++ 10 :: rest) = decodeLossy bytes ++ '\n' :: decodeLossy rest :=
  decodeFrom_newline [] bytes rest

end Text

end DenonAvr.Library.Utf8
