import Pagewright.Number.Literal

/-!
# Decimals by one scaling

`ofDecimal` gives the number nearest to a decimal. The reading here takes a
shorter way: the leading digits, as many as fit 64 bits, become a number, and
this number is multiplied or divided by the power of ten that is missing. Each
of the two steps rounds, so the last bit may differ from the nearest number;
up to fifteen digits and twenty-two powers of ten both readings agree.
-/

namespace Pagewright.Number

/-- The leading digits of a decimal, as far as they fit, and their power of ten. -/
structure Significand where
  value : Nat
  exponent : Int
  deriving DecidableEq, Repr, Inhabited

/-- Appends digits to a value while it has at most 64 bits; the rest is returned. -/
def gather (value : Nat) : List Char → Nat × List Char
  | [] => (value, [])
  | c :: rest =>
    let next := 10 * value + (c.toNat - 48)
    if isNat64 next then gather next rest else (value, c :: rest)

/--
The significand of `whole.places · 10 ^ exponent`. A digit of the whole part
that is left out counts as a power of ten, one after the point as nothing.
-/
def Significand.ofDigits (whole places : List Char) (exponent : Int) : Significand :=
  let (value, left) := gather 0 whole
  let (value, lost) := gather value places
  ⟨value, exponent + left.length - (places.length - lost.length : Nat)⟩

/-- The largest power of ten of the format. -/
def topPower : Nat := 308

/-- The number nearest to a power of ten. -/
def powerOfTen (exponent : Nat) : Float := ofDecimal false 1 exponent

/-- A number divided by a power of ten, in steps of the largest power. -/
def dividedByPower (x : Float) (exponent : Nat) : Float :=
  if exponent ≤ topPower then x / powerOfTen exponent
  else if x == 0.0 then x
  else dividedByPower (x / powerOfTen topPower) (exponent - topPower)
  termination_by exponent
  decreasing_by simp_all [topPower]; omega

/-- The number of a significand; there is none where it exceeds the format. -/
def Significand.toFloat? (s : Significand) : Option Float :=
  let x := ofDecimal false s.value 0
  if s.value = 0 then some 0.0
  else if s.exponent < 0 then some (dividedByPower x s.exponent.natAbs)
  else if s.exponent.natAbs ≤ topPower then
    let scaled := x * powerOfTen s.exponent.natAbs
    if isFinite scaled then some scaled else none
  else none

end Pagewright.Number
