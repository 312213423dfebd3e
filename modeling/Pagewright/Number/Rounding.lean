import Pagewright.Number.Binary

/-!
# Rounding to whole numbers and to fixed places

One division, `roundDiv`, decides every rounding in the library; its `Tie`
says where an exact half goes. Pixel values send a half away from zero,
numbers printed with fixed places send it to the even neighbour. A number
that is cut or rounded into an integer range is clipped to the range, and an
undefined number becomes zero.

## Main results

* `roundDiv_mul_le` — the quotient exceeds the fraction by at most one half.
* `roundDiv_away` — rounding halves upwards is cutting off after adding a half.
-/

namespace Pagewright.Number

/-- Where an exact half goes. -/
inductive Tie where
  | away
  | toEven
  deriving DecidableEq, Repr

/-- `num / den` to the nearest natural number. -/
def roundDiv (tie : Tie) (num den : Nat) : Nat :=
  let quotient := num / den
  let twice := 2 * (num % den)
  if twice < den then quotient
  else if den < twice then quotient + 1
  else match tie with
    | .away => quotient + 1
    | .toEven => quotient + quotient % 2

/-- The quotient exceeds the fraction by at most one half. -/
theorem roundDiv_mul_le (tie : Tie) (num den : Nat) :
    2 * (roundDiv tie num den * den) ≤ 2 * num + den := by
  have hdiv := Nat.div_add_mod num den
  have hcomm : num / den * den = den * (num / den) := Nat.mul_comm _ _
  unfold roundDiv
  dsimp only
  split
  · omega
  · split
    · rw [Nat.add_mul]; omega
    · cases tie with
      | away => dsimp only; rw [Nat.add_mul]; omega
      | toEven =>
        dsimp only
        rw [Nat.add_mul]
        rcases Nat.mod_two_eq_zero_or_one (num / den) with h | h <;> rw [h] <;> omega

/-- Where a half goes upwards, it is added and the rest is cut off. -/
theorem roundDiv_away (num den : Nat) (hden : 0 < den) :
    roundDiv .away num den = (2 * num + den) / (2 * den) := by
  have hdiv := Nat.div_add_mod num den
  have hmod := Nat.mod_lt num hden
  have hQuotient (k : Nat) (hLow : 2 * (den * k) ≤ 2 * num + den)
      (hHigh : 2 * num + den < 2 * (den * k) + 2 * den) : k = (2 * num + den) / (2 * den) := by
    rw [eq_comm, Nat.div_eq_iff (by omega)]
    constructor <;> grind
  unfold roundDiv
  dsimp only
  split
  · apply hQuotient <;> omega
  · split
    · apply hQuotient <;> rw [Nat.mul_add] <;> omega
    · apply hQuotient <;> rw [Nat.mul_add] <;> omega

/-! ## Integers from numbers -/

/-- The nearest value of the range `lo … hi`. -/
def clip (lo hi value : Int) : Int := max lo (min hi value)

/-- A magnitude with its sign. -/
def signed (negative : Bool) (magnitude : Nat) : Int :=
  if negative then -(magnitude : Int) else magnitude

/-- The nearest integer, halves away from zero, clipped to `lo … hi`. -/
def nearest (lo hi : Int) (x : Float) : Int :=
  match Binary.ofFloat x with
  | .nan => 0
  | .infinite negative => if negative then lo else hi
  | .finite negative mantissa exponent =>
    let value := Ratio.ofBinary mantissa exponent
    clip lo hi (signed negative (roundDiv .away value.num value.den))

/-- The integer part, clipped to `lo … hi`. -/
def integerPart (lo hi : Int) (x : Float) : Int :=
  match Binary.ofFloat x with
  | .nan => 0
  | .infinite negative => if negative then lo else hi
  | .finite negative mantissa exponent =>
    let value := Ratio.ofBinary mantissa exponent
    clip lo hi (signed negative (value.num / value.den))

/-- A number of pixels: the nearest integer of 64 bits. -/
def pixels (x : Float) : Int := nearest (-0x8000000000000000) 0x7fffffffffffffff x

/-- The nearest natural number of 32 bits. -/
def nearestNat32 (x : Float) : Nat := (nearest 0 0xffffffff x).toNat

/-- The integer part as a natural number of 32 bits. -/
def natPart32 (x : Float) : Nat := (integerPart 0 0xffffffff x).toNat

/-- The integer part as a natural number of 8 bits. -/
def natPart8 (x : Float) : Nat := (integerPart 0 255 x).toNat

/-! ## Choosing between numbers -/

/-- The number itself inside `lo … hi`, the nearer end outside. -/
def clampTo (lo hi x : Float) : Float :=
  if x < lo then lo else if hi < x then hi else x

/-- The larger number; an undefined one loses against any other. -/
def larger (a b : Float) : Float :=
  if a.isNaN then b else if b.isNaN then a else if a < b then b else a

end Pagewright.Number
