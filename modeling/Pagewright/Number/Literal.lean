import Pagewright.Number.Binary

/-!
# Reading numbers

`ofDecimal` gives the binary64 number nearest to a decimal. `parse?` reads the
free spelling of a number: an optional sign, digits with an optional point on
either side, an optional exponent, or one of the words for infinity and for an
undefined number in any letter case. Whole numbers have 32 or 64 bits, and each
reader says which.
-/

namespace Pagewright.Number

/--
The number nearest to `± digits · 10 ^ exponent`. A decimal too large for the
format is infinite, one too small is zero; both are decided before any power
of ten is computed.
-/
def ofDecimal (negative : Bool) (digits : Nat) (exponent : Int) : Float :=
  let magnitude : Float :=
    if digits = 0 then 0.0
    else
      let top := exponent + (Nat.toDigits 10 digits).length
      if 400 < top then 1.0 / 0.0
      else if top < -400 then 0.0
      else Float.ofScientific digits (exponent < 0) exponent.natAbs
  if negative then -magnitude else magnitude

/-- The number nearest to an integer. -/
def ofInt (n : Int) : Float := ofDecimal (n < 0) n.natAbs 0

/-- The value of a run of decimal digits. -/
def digitsValue (digits : List Char) : Nat :=
  digits.foldl (fun value c => 10 * value + (c.toNat - 48)) 0

/-- The digits in front of a text, and the rest. -/
def spanDigits (text : List Char) : List Char × List Char :=
  (text.takeWhile Char.isDigit, text.dropWhile Char.isDigit)

/-- An optional sign in front of a text, and the rest. -/
def spanSign : List Char → Bool × List Char
  | '-' :: rest => (true, rest)
  | '+' :: rest => (false, rest)
  | text => (false, text)

/-- The exponent part, to the end of the text. -/
def parseExponent? : List Char → Option Int
  | [] => some 0
  | c :: rest =>
    if c = 'e' ∨ c = 'E' then
      let (negative, body) := spanSign rest
      let (digits, tail) := spanDigits body
      if digits.isEmpty || !tail.isEmpty then none
      else
        let value : Int := digitsValue digits
        some (if negative then -value else value)
    else none

/-- A number in free spelling. -/
def parse? (text : List Char) : Option Float :=
  let (negative, body) := spanSign text
  let apply (x : Float) : Float := if negative then -x else x
  let word := String.ofList (body.map Char.toLower)
  if word = "inf" ∨ word = "infinity" then some (apply (1.0 / 0.0))
  else if word = "nan" then some (apply (0.0 / 0.0))
  else
    let (whole, afterWhole) := spanDigits body
    let (places, tail) := match afterWhole with
      | '.' :: rest => spanDigits rest
      | rest => ([], rest)
    if whole.isEmpty && places.isEmpty then none
    else
      (parseExponent? tail).map fun exponent =>
        ofDecimal negative (digitsValue (whole ++ places)) (exponent - places.length)

/-- An integer written with an optional sign and decimal digits only. -/
def parseInt? (text : List Char) : Option Int :=
  let (negative, body) := spanSign text
  let (digits, tail) := spanDigits body
  if digits.isEmpty || !tail.isEmpty then none
  else
    let value : Int := digitsValue digits
    some (if negative then -value else value)

/-! ## Widths of whole numbers -/

/-- Whether a number is a natural number of 32 bits. -/
def isNat32 (n : Int) : Bool := 0 ≤ n && n < 0x100000000

/-- Whether a number is a natural number of 64 bits. -/
def isNat64 (n : Int) : Bool := 0 ≤ n && n < 0x10000000000000000

/-- Whether a number is an integer of 64 bits, one of them for the sign. -/
def isInt64 (n : Int) : Bool := -0x8000000000000000 ≤ n && n < 0x8000000000000000

end Pagewright.Number
