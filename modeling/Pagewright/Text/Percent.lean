import Pagewright.Text.Utf8

/-!
# Percent coding

A byte outside the permitted characters of a place is written `%XX`. Which
characters a place permits differs from place to place, so encoding takes the
set as a predicate. Decoding reads every well-formed `%XX` and leaves the rest.
-/

namespace Pagewright.Text.Percent

/-- An upper-case hexadecimal digit. -/
def hexDigit (n : Nat) : Char :=
  if n < 10 then Char.ofNat (48 + n) else Char.ofNat (55 + n)

/-- The value of a hexadecimal digit. -/
def hexValue? (c : Char) : Option Nat :=
  if c.isDigit then some (c.toNat - 48)
  else if 'a' ≤ c ∧ c ≤ 'f' then some (c.toNat - 87)
  else if 'A' ≤ c ∧ c ≤ 'F' then some (c.toNat - 55)
  else none

/-- A byte as `%XX`. -/
def escapeByte (b : UInt8) : List Char :=
  ['%', hexDigit (b.toNat / 16), hexDigit (b.toNat % 16)]

/-- One character: itself where it is permitted, else its bytes escaped. -/
def encodeChar (permitted : Char → Bool) (c : Char) : List Char :=
  if permitted c then [c] else (Utf8.encode c).flatMap escapeByte

/-- A text with every character escaped that is not permitted. -/
def encode (permitted : Char → Bool) (text : List Char) : List Char :=
  text.flatMap (encodeChar permitted)

/-- The bytes that a text stands for. -/
def decodeBytes : List Char → List UInt8
  | '%' :: h :: l :: rest =>
    match hexValue? h, hexValue? l with
    | some hi, some lo => (16 * hi + lo).toUInt8 :: decodeBytes rest
    | _, _ => Utf8.encode '%' ++ decodeBytes (h :: l :: rest)
  | c :: rest => Utf8.encode c ++ decodeBytes rest
  | [] => []

/-- The text that a percent-coded text stands for. -/
def decode (text : List Char) : List Char := Utf8.decodeLossy (decodeBytes text)

/-- The characters that stand for themselves everywhere: letters, digits and `- . _ ~`. -/
def isUnreserved (c : Char) : Bool :=
  c.isAlphanum || c == '-' || c == '.' || c == '_' || c == '~'

end Pagewright.Text.Percent
