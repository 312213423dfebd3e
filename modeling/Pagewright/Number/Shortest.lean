import Pagewright.Number.Rounding

/-!
# The shortest decimal that reads back

A binary64 number is printed with the fewest significant digits that still
read back as the same number. The reals that round to `m · 2 ^ q` form an
interval around it; for one, two, … digits the two neighbours of the number on
the decimal grid of that many digits are tested against the interval, and the
first grid with a hit wins. Of two hits the nearer one is taken, and a record
of the output format says which way an exact tie goes.

All arithmetic is on natural numbers over one common denominator, so the
result is exact.
-/

namespace Pagewright.Number

/-- The decimal `0.d₁d₂… · 10 ^ point`, its digits without trailing zeros. -/
structure Decimal where
  digits : List Char
  point : Int
  deriving DecidableEq, Repr, Inhabited

namespace Shortest

/-- The reals that round to a number, as numerators over `den`. -/
structure Interval where
  low : Nat
  value : Nat
  high : Nat
  den : Nat
  closed : Bool
  deriving Repr

/--
The interval of `mantissa · 2 ^ exponent`. Its ends lie half a step away; below
a power of two the numbers are twice as dense, and the lower end is nearer.
The ends round to the number itself when the mantissa is even.
-/
def Interval.ofBinary (mantissa : Nat) (exponent : Int) : Interval :=
  let value := Ratio.ofBinary (4 * mantissa) (exponent - 2)
  let unit := Nat.pow 2 (exponent - 2).toNat
  let below := if mantissa = leadingBit ∧ exponent ≠ -1074 then unit else 2 * unit
  { low := value.num - below
    value := value.num
    high := value.num + 2 * unit
    den := value.den
    closed := mantissa % 2 = 0 }

/-- Whether `num / den'` lies in the interval, for `den' = den` times `scale`. -/
def Interval.contains (i : Interval) (num scale : Nat) : Bool :=
  if i.closed then i.low * scale ≤ num && num ≤ i.high * scale
  else i.low * scale < num && num < i.high * scale

/-- The number of decimal digits of a positive number. -/
def digitCount (n : Nat) : Nat := (Nat.toDigits 10 n).length

/-- The least `p` with `num / den < 10 ^ p`, for a positive fraction. -/
def pointOf (num den : Nat) : Int :=
  if den ≤ num then digitCount (num / den)
  else 1 - (digitCount ((den - 1) / num) : Int)

/--
The multiple of `10 ^ (point - count)` that stands for the number among the
decimals of `count` digits, if one of the two next to it lies in the interval.
-/
def onGrid (tieUp : Bool) (i : Interval) (point : Int) (count : Nat) : Option Nat :=
  let place := point - count
  -- one grid step is `step / den`, and the number is `value · scale / den`
  let step := i.den * Nat.pow 10 place.toNat
  let scale := Nat.pow 10 (-place).toNat
  let floor := i.value * scale / step
  let rest := i.value * scale - floor * step
  let lower := i.contains (floor * step) scale && floor != 0
  let upper := i.contains ((floor + 1) * step) scale
  if lower && upper then
    if 2 * rest < step then some floor
    else if step < 2 * rest then some (floor + 1)
    else if tieUp then some (floor + 1)
    else some (floor + floor % 2)
  else if lower then some floor
  else if upper then some (floor + 1)
  else none

/-- The digits of `n`, which stands at `point` with `count` digits. -/
def finish (n : Nat) (point : Int) (count : Nat) : Decimal :=
  let digits := Nat.toDigits 10 n
  let kept := (digits.reverse.dropWhile (· == '0')).reverse
  { digits := kept, point := point - count + digits.length }

/-- The first grid with a hit, from `count` digits on. -/
def search (tieUp : Bool) (i : Interval) (point : Int) : Nat → Nat → Decimal
  | 0, count =>
    -- seventeen digits always suffice
    finish
      (i.value * Nat.pow 10 (count - point).toNat / (i.den * Nat.pow 10 (point - count).toNat))
      point count
  | more + 1, count =>
    match onGrid tieUp i point count with
    | some n => finish n point count
    | none => search tieUp i point more (count + 1)

end Shortest

/-- The shortest decimal of `mantissa · 2 ^ exponent`; zero has no digits. -/
def Decimal.shortest (tieUp : Bool) (mantissa : Nat) (exponent : Int) : Decimal :=
  if mantissa = 0 then ⟨[], 1⟩
  else
    let i := Shortest.Interval.ofBinary mantissa exponent
    Shortest.search tieUp i (Shortest.pointOf i.value i.den) 17 1

end Pagewright.Number
