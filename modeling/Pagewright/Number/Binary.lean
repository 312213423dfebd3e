/-!
# The value of a binary64 number

Printing, rounding and cutting a floating-point number are statements about
the real number it stands for, so they are all computed from one exact view:
`Binary.ofFloat` reads the 64 bits of a number as `± mantissa · 2 ^ exponent`
with natural and integer parts. Nothing downstream uses floating-point
arithmetic to talk about digits.
-/

namespace Pagewright.Number

/-- What a binary64 word stands for. -/
inductive Binary where
  | nan
  | infinite (negative : Bool)
  /-- The number `± mantissa · 2 ^ exponent`. -/
  | finite (negative : Bool) (mantissa : Nat) (exponent : Int)
  deriving DecidableEq, Repr, Inhabited

/-- The sign bit of a word. -/
def signBit : Nat := 0x8000000000000000

/-- The leading bit of a mantissa, which the fraction bits leave out. -/
def leadingBit : Nat := 0x10000000000000

/--
The fields of the word: one sign bit, eleven exponent bits, fifty-two fraction
bits. A zero exponent field has no implicit leading bit.
-/
def Binary.ofFloat (x : Float) : Binary :=
  let bits := x.toBits.toNat
  let negative := bits / signBit == 1
  let biased : Nat := bits / leadingBit % 2048
  let fraction : Nat := bits % leadingBit
  if biased = 2047 then
    if fraction = 0 then .infinite negative else .nan
  else if biased = 0 then .finite negative fraction (-1074)
  else .finite negative (fraction + leadingBit) (Int.ofNat biased - 1075)

/-- Neither infinite nor undefined. -/
def isFinite (x : Float) : Bool :=
  match Binary.ofFloat x with
  | .finite .. => true
  | _ => false

/-! ## The value as a fraction -/

/-- A non-negative fraction `num / den`. -/
structure Ratio where
  num : Nat
  den : Nat
  deriving DecidableEq, Repr, Inhabited

/-- `mantissa · 2 ^ exponent` as a fraction. -/
def Ratio.ofBinary (mantissa : Nat) (exponent : Int) : Ratio :=
  ⟨mantissa * Nat.pow 2 exponent.toNat, Nat.pow 2 (-exponent).toNat⟩

theorem Ratio.ofBinary_den_pos (mantissa : Nat) (exponent : Int) :
    0 < (Ratio.ofBinary mantissa exponent).den :=
  Nat.two_pow_pos _

/-! ## Order -/

/--
The place of a number in the total order of binary64 words: negative numbers
by falling magnitude, `-0` before `0`, undefined values at the ends. Two
numbers share a place exactly when they are the same word.
-/
def orderKey (x : Float) : Int :=
  let bits := x.toBits.toNat
  if bits < signBit then Int.ofNat bits else signBit - 1 - Int.ofNat bits

end Pagewright.Number
