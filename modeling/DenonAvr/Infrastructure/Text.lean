import DenonAvr.Domain.Receiver

/-!
# Text from the network

The functions of `str` with which the adapters read lines, headers and numbers.
-/

namespace DenonAvr.Infrastructure

open Domain

/-- `str::trim`. -/
def trim (text : List Char) : List Char := ((text.dropWhile isWhitespace).reverse.dropWhile isWhitespace).reverse

/-- `str::to_ascii_lowercase`. -/
def toAsciiLowercase (text : List Char) : List Char := text.map Char.toLower

/-- `str::split_once`. -/
def splitOnce (separator : List Char) : List Char → Option (List Char × List Char)
  | [] => none
  | c :: rest =>
    if separator.isPrefixOf (c :: rest) then some ([], (c :: rest).drop separator.length)
    else (splitOnce separator rest).map fun (before, after) => (c :: before, after)

/-- `str::split_whitespace`. -/
def splitWhitespace (text : List Char) : List (List Char) := (text.splitOnP isWhitespace).filter fun word => !word.isEmpty

/-- A line without the CR that stands before its LF. -/
def stripCr (line : List Char) : List Char := if line.getLast? = some '\r' then line.dropLast else line

/-- `str::lines`. What follows the last LF is a line unless it is empty, and keeps a CR that ends it. -/
def textLines (text : List Char) : List (List Char) :=
  let lines := text.splitOn '\n'
  lines.dropLast.map stripCr ++ lines.getLast?.toList.filter fun last => !last.isEmpty

example : textLines "a\r\nb\r".toList = ["a".toList, "b\r".toList] := by decide +kernel

/-- `char::to_digit`. -/
def digitOf (radix : ℕ) (c : Char) : Option ℕ :=
  let value :=
    if '0' ≤ c ∧ c ≤ '9' then c.toNat - '0'.toNat
    else if 'a' ≤ c ∧ c ≤ 'z' then c.toNat - 'a'.toNat + 10
    else if 'A' ≤ c ∧ c ≤ 'Z' then c.toNat - 'A'.toNat + 10
    else radix
  if value < radix then some value else none

/-- The number that the digits stand for. -/
def numberOf (radix : ℕ) (digits : List ℕ) : ℕ := digits.foldl (fun value digit => value * radix + digit) 0

/-- `from_str_radix` of an unsigned type that ends at `max`. A sign may stand before the digits. -/
def parseUnsigned (radix max : ℕ) (text : List Char) : Option ℕ :=
  let digits := if text.head? = some '+' then text.drop 1 else text
  if digits.isEmpty then none
  else (digits.mapM (digitOf radix)).bind fun values =>
    if numberOf radix values ≤ max then some (numberOf radix values) else none

end DenonAvr.Infrastructure
