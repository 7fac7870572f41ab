import Mathlib.Tactic

/-!
# Percent-encoded segments

A text becomes a segment of a path: each byte that may not stand there for itself is written as `%` and two hexadecimal
digits. Which may is left to the user of this module, who says it of bytes (`keep`); `%` itself must not be one of them.

What is encoded is decoded to the same bytes (`decode_encode`), so no two texts have the same segment
(`encode_injective`), and a segment has no characters but those that are kept, `%` and the digits (`mem_encode`).
-/

namespace DenonAvr.Library.Percent

/-- The digit of a number below sixteen. -/
def hexDigit (n : ℕ) : Char := if n < 10 then Char.ofNat (48 + n) else Char.ofNat (55 + n)

/-- The value of a hexadecimal digit, of either case. -/
def hexValue (c : Char) : Option ℕ :=
  if 48 ≤ c.toNat ∧ c.toNat ≤ 57 then some (c.toNat - 48)
  else if 65 ≤ c.toNat ∧ c.toNat ≤ 70 then some (c.toNat - 55)
  else if 97 ≤ c.toNat ∧ c.toNat ≤ 102 then some (c.toNat - 87)
  else none

def percent : UInt8 := 37

section Encode
variable (keep : UInt8 → Bool)

def encodeByte (b : UInt8) : List Char :=
  if keep b then [Char.ofNat b.toNat] else ['%', hexDigit (b.toNat / 16), hexDigit (b.toNat % 16)]

def encode (bytes : List UInt8) : List Char := bytes.flatMap (encodeByte keep)

end Encode

/-- The bytes of a segment. What follows a `%` and is not two digits stands for itself. -/
def decode : List Char → List UInt8
  | [] => []
  | '%' :: a :: b :: rest =>
    match hexValue a, hexValue b with
    | some x, some y => UInt8.ofNat (16 * x + y) :: decode rest
    | _, _ => percent :: decode (a :: b :: rest)
  | c :: rest => String.utf8EncodeChar c ++ decode rest

theorem hexValue_hexDigit {n : ℕ} (h : n < 16) : hexValue (hexDigit n) = some n := by
  revert n
  decide

theorem decode_cons_of_ne {c : Char} (h : c ≠ '%') (rest : List Char) :
    decode (c :: rest) = String.utf8EncodeChar c ++ decode rest := by
  rw [decode.eq_def]
  split
  · rename_i heq
    cases heq
  · rename_i heq
    exact absurd (List.cons.inj heq).1 h
  · rename_i heq
    obtain ⟨rfl, rfl⟩ := List.cons.inj heq
    rfl

theorem utf8EncodeChar_of_lt {n : ℕ} (h : n < 128) : String.utf8EncodeChar (Char.ofNat n) = [UInt8.ofNat n] := by
  revert n
  decide

theorem ofNat_ne_percent {n : ℕ} (h : n < 128) (hne : n ≠ 37) : Char.ofNat n ≠ '%' := by
  revert n
  decide

/-- A byte that is kept is an ASCII character, and not `%`. -/
def Keeps (keep : UInt8 → Bool) : Prop := ∀ b, keep b = true → b.toNat < 128 ∧ b ≠ percent

section Laws
variable {keep : UInt8 → Bool} (hkeep : Keeps keep)
include hkeep

theorem decode_encodeByte (b : UInt8) (rest : List Char) : decode (encodeByte keep b ++ rest) = b :: decode rest := by
  unfold encodeByte
  split_ifs with hb
  · obtain ⟨hascii, hne⟩ := hkeep b hb
    have hchar : Char.ofNat b.toNat ≠ '%' := ofNat_ne_percent hascii fun h => hne (UInt8.toNat_inj.mp h)
    rw [List.singleton_append, decode_cons_of_ne hchar, utf8EncodeChar_of_lt hascii, UInt8.ofNat_toNat]
    rfl
  · have hlt := UInt8.toNat_lt b
    show decode ('%' :: hexDigit (b.toNat / 16) :: hexDigit (b.toNat % 16) :: rest) = _
    rw [decode, hexValue_hexDigit (by omega), hexValue_hexDigit (by omega)]
    simp only [List.cons.injEq, and_true]
    rw [show 16 * (b.toNat / 16) + b.toNat % 16 = b.toNat by omega]
    exact UInt8.ofNat_toNat

/-- **What is encoded is decoded.** -/
theorem decode_encode (bytes : List UInt8) : decode (encode keep bytes) = bytes := by
  induction bytes with
  | nil => rfl
  | cons b rest ih =>
    show decode (encodeByte keep b ++ encode keep rest) = _
    rw [decode_encodeByte hkeep, ih]

theorem encode_injective : Function.Injective (encode keep) := Function.LeftInverse.injective (decode_encode hkeep)

end Laws

/-- A segment is made of kept characters, `%` and digits. -/
theorem mem_encode {keep : UInt8 → Bool} {bytes : List UInt8} {c : Char} (h : c ∈ encode keep bytes) :
    (∃ b, keep b = true ∧ c = Char.ofNat b.toNat) ∨ c = '%' ∨ ∃ n < 16, c = hexDigit n := by
  obtain ⟨b, -, hc⟩ := List.mem_flatMap.mp h
  unfold encodeByte at hc
  have hlt := UInt8.toNat_lt b
  split_ifs at hc with hb
  · exact .inl ⟨b, hb, List.mem_singleton.mp hc⟩
  · simp only [List.mem_cons, List.not_mem_nil, or_false] at hc
    rcases hc with rfl | rfl | rfl
    · exact .inr (.inl rfl)
    · exact .inr (.inr ⟨_, by omega, rfl⟩)
    · exact .inr (.inr ⟨_, by omega, rfl⟩)

end DenonAvr.Library.Percent
