import Mathlib.Algebra.GroupWithZero.Nat
import Mathlib.Algebra.Group.Int.Defs
import Pagewright.Number.Rounding

/-!
# The exact view of a number and its comparisons

`Binary.ofFloat` reads the word of a number field by field. Comparisons of
numbers are defined on an unpacked form with the same fields, so that what a
comparison says can be turned into a statement about the exact value.

## Main results

* `Binary.ofFloat_eq` — the exact view is the unpacked form.
* `nearestNat32_clampTo_percent` — a number of percent rounds to `100` at most.
* `isFinite_of_percent` — a number of percent is finite.
-/

namespace Pagewright.Number

open Float.Model

/-! ## Fields of a word -/

theorem unpackExponent_toNat (word : BitVec 64) :
    (@UnpackedFloat.unpackExponent Format.binary64 word).toNat =
      word.toNat / leadingBit % 2048 := by
  simp [UnpackedFloat.unpackExponent, BitVec.extractLsb, BitVec.extractLsb'_toNat,
    Nat.shiftRight_eq_div_pow, leadingBit]

theorem unpackMantissa_toNat (word : BitVec 64) :
    (@UnpackedFloat.unpackMantissa Format.binary64 word).toNat = word.toNat % leadingBit := by
  simp [UnpackedFloat.unpackMantissa, BitVec.extractLsb, BitVec.extractLsb'_toNat,
    Nat.shiftRight_eq_div_pow, leadingBit]

theorem unpackSign_toNat (word : BitVec 64) :
    (@UnpackedFloat.unpackSign Format.binary64 word).toNat = word.toNat / signBit := by
  have hWord : word.toNat < 2 ^ 64 := word.isLt
  have hSign : word.toNat / signBit < 2 := by
    rw [signBit]
    omega
  have hField : (@UnpackedFloat.unpackSign Format.binary64 word).toNat =
      word.toNat / signBit % 2 := by
    show ((word.extractLsb' 63 1).cast rfl).toNat = _
    rw [BitVec.toNat_cast, BitVec.extractLsb'_toNat, Nat.shiftRight_eq_div_pow]
    rfl
  rw [hField, Nat.mod_eq_of_lt hSign]

/-- The bit that is left out in front of a mantissa of full length. -/
theorem leading_append_toNat (word : BitVec 64) :
    (1#1 ++ @UnpackedFloat.unpackMantissa Format.binary64 word).toNat =
      word.toNat % leadingBit + leadingBit := by
  have hLt : word.toNat % leadingBit < 2 ^ 52 := Nat.mod_lt _ (by decide)
  rw [BitVec.toNat_append, unpackMantissa_toNat, ← Nat.shiftLeft_add_eq_or_of_lt hLt,
    Nat.shiftLeft_eq, Nat.add_comm]
  rfl

/-- Whether a sign is that of the negative numbers. -/
def isNegative : UnpackedFloat.Sign → Bool
  | .negative => true
  | .positive => false

theorem isNegative_ofBitVec (bit : BitVec 1) :
    isNegative (UnpackedFloat.Sign.ofBitVec bit) = (bit.toNat == 1) := by
  have hBit : bit = 0#1 ∨ bit = 1#1 := by
    have hLt := bit.isLt
    rcases Nat.le_one_iff_eq_zero_or_eq_one.1 (Nat.lt_succ_iff.1 hLt) with hZero | hOne
    · exact .inl (BitVec.eq_of_toNat_eq hZero)
    · exact .inr (BitVec.eq_of_toNat_eq hOne)
  rcases hBit with rfl | rfl <;> rfl

/-! ## The view -/

/-- The exact view of an unpacked number. -/
def Binary.ofUnpacked : UnpackedFloat → Binary
  | .notANumber => .nan
  | .infinity sign => .infinite (isNegative sign)
  | .zero sign => .finite (isNegative sign) 0 (-1074)
  | .finite sign mantissa exponent _ => .finite (isNegative sign) mantissa exponent

/-- The exact view of a number is that of its unpacked form. -/
theorem Binary.ofFloat_eq (x : Float) :
    Binary.ofFloat x = Binary.ofUnpacked x.toModel.unpack := by
  have hBits : x.toBits.toNat = x.toModel.toBits.toBitVec.toNat := rfl
  unfold Binary.ofFloat Float.Model.unpack UnpackedFloat.unpack
  rw [hBits]
  generalize x.toModel.toBits.toBitVec = word
  have hExponent := unpackExponent_toNat word
  have hMantissa := unpackMantissa_toNat word
  have hNegative := isNegative_ofBitVec (@UnpackedFloat.unpackSign Format.binary64 word)
  rw [unpackSign_toNat] at hNegative
  have hOnes : @UnpackedFloat.unpackExponent Format.binary64 word = -1#_ ↔
      word.toNat / leadingBit % 2048 = 2047 := by
    rw [← hExponent, ← BitVec.toNat_inj]
    rfl
  have hZeros : @UnpackedFloat.unpackExponent Format.binary64 word = 0#_ ↔
      word.toNat / leadingBit % 2048 = 0 := by
    rw [← hExponent, ← BitVec.toNat_inj]
    rfl
  have hFraction : @UnpackedFloat.unpackMantissa Format.binary64 word = 0#_ ↔
      word.toNat % leadingBit = 0 := by
    rw [← hMantissa, ← BitVec.toNat_inj]
    rfl
  by_cases hTop : word.toNat / leadingBit % 2048 = 2047
  · rw [if_pos hTop, if_pos (hOnes.2 hTop)]
    by_cases hNone : word.toNat % leadingBit = 0
    · rw [if_pos hNone, if_pos (hFraction.2 hNone)]
      exact congrArg Binary.infinite hNegative.symm
    · rw [if_neg hNone, if_neg (mt hFraction.1 hNone)]
      rfl
  · rw [if_neg hTop, if_neg (mt hOnes.1 hTop)]
    by_cases hSubnormal : word.toNat / leadingBit % 2048 = 0
    · rw [if_pos hSubnormal, if_pos (hZeros.2 hSubnormal)]
      by_cases hNone : word.toNat % leadingBit = 0
      · rw [dif_pos (hFraction.2 hNone), hNone]
        exact congrArg (Binary.finite · 0 (-1074)) hNegative.symm
      · rw [dif_neg (mt hFraction.1 hNone)]
        show _ = Binary.finite (isNegative _) (BitVec.toNat _) (_ - _ + 1)
        rw [hNegative, hMantissa, hExponent, hSubnormal]
        rfl
    · rw [if_neg hSubnormal, if_neg (mt hZeros.1 hSubnormal)]
      show _ = Binary.finite (isNegative _) (BitVec.toNat _) (_ - _)
      rw [hNegative, leading_append_toNat, hExponent]
      rfl

/-! ## Comparisons -/

theorem lt_iff_compare (x y : Float) :
    x < y ↔ x.toModel.unpack.compare y.toModel.unpack = some .lt := by
  show decide (x.toModel < y.toModel) = true ↔ _
  rw [decide_eq_true_iff]
  show (x.toModel.unpack.compare y.toModel.unpack == some .lt) = true ↔ _
  rw [beq_iff_eq]

/-- The mantissa of a number has at most fifty-three bits. -/
theorem mantissa_lt_of_ofFloat {x : Float} {negative : Bool} {mantissa : Nat} {exponent : Int}
    (hView : Binary.ofFloat x = .finite negative mantissa exponent) : mantissa < 2 ^ 53 := by
  have hFraction : x.toBits.toNat % leadingBit < leadingBit := Nat.mod_lt _ (by decide)
  have hTwice : leadingBit + leadingBit = 2 ^ 53 := rfl
  unfold Binary.ofFloat at hView
  simp only at hView
  split at hView
  · split at hView <;> cases hView
  · split at hView
    · injection hView with _ hMantissa
      omega
    · injection hView with _ hMantissa
      omega

/-! ## Percents -/

/-- A fraction of at most `bound` is near `bound` at most. -/
theorem roundDiv_le {num den bound : Nat} (hDen : 0 < den) (hNum : num ≤ bound * den)
    (tie : Tie) : roundDiv tie num den ≤ bound := by
  have hNear := roundDiv_mul_le tie num den
  rcases Nat.lt_or_ge bound (roundDiv tie num den) with hOver | hLe
  · have hMul : (bound + 1) * den ≤ roundDiv tie num den * den :=
      Nat.mul_le_mul_right den hOver
    rw [Nat.add_mul, Nat.one_mul] at hMul
    omega
  · exact hLe

/-- A finite number below or at `100 = 100 · 2 ^ 46 · 2 ^ (-46)` as a fraction. -/
theorem ofBinary_le_hundred {mantissa : Nat} {exponent : Int} (hMantissa : mantissa < 2 ^ 53)
    (hOrder : exponent < -46 ∨ (exponent = -46 ∧ mantissa ≤ 100 * 2 ^ 46)) :
    (Ratio.ofBinary mantissa exponent).num ≤ 100 * (Ratio.ofBinary mantissa exponent).den := by
  have hWhole : exponent.toNat = 0 := by omega
  show mantissa * Nat.pow 2 exponent.toNat ≤ 100 * Nat.pow 2 (-exponent).toNat
  rw [hWhole]
  rcases hOrder with hSmall | ⟨rfl, hLe⟩
  · have hPow : 2 ^ 47 ≤ 2 ^ (-exponent).toNat :=
      Nat.pow_le_pow_right (by decide) (by omega)
    show mantissa * 1 ≤ 100 * 2 ^ (-exponent).toNat
    omega
  · show mantissa * 1 ≤ 100 * 2 ^ 46
    omega

/-- A finite number below or at one hundred is near one hundred at most. -/
theorem nearestNat32_finite_le {x : Float} {negative : Bool} {mantissa : Nat} {exponent : Int}
    (hView : Binary.ofFloat x = .finite negative mantissa exponent)
    (hOrder : exponent < -46 ∨ (exponent = -46 ∧ mantissa ≤ 100 * 2 ^ 46)) :
    nearestNat32 x ≤ 100 := by
  have hRatio := ofBinary_le_hundred (mantissa_lt_of_ofFloat hView) hOrder
  have hNear := roundDiv_le (Ratio.ofBinary_den_pos mantissa exponent) hRatio .away
  unfold nearestNat32 nearest
  rw [hView]
  simp only [clip, signed]
  split <;> omega

theorem unpack_zero : (0.0 : Float).toModel.unpack = .zero .positive := rfl

theorem unpack_hundred : (100.0 : Float).toModel.unpack =
    .finite .positive (100 * 2 ^ 46) (-46) (by decide) := rfl

/-- A number that is neither below zero nor above one hundred is near one hundred
at most; where it is no number at all it counts as zero. -/
theorem nearestNat32_le_hundred {x : Float} (hLow : ¬ x < 0.0) (hHigh : ¬ 100.0 < x) :
    nearestNat32 x ≤ 100 := by
  have hView := Binary.ofFloat_eq x
  rw [lt_iff_compare, unpack_zero] at hLow
  rw [lt_iff_compare, unpack_hundred] at hHigh
  cases hUnpacked : x.toModel.unpack with
  | notANumber =>
    rw [hUnpacked] at hView
    unfold nearestNat32 nearest
    rw [hView]
    exact Nat.zero_le 100
  | infinity sign =>
    rw [hUnpacked] at hLow hHigh
    cases sign with
    | negative => exact absurd rfl hLow
    | positive => exact absurd rfl hHigh
  | zero sign =>
    rw [hUnpacked] at hView
    exact nearestNat32_finite_le hView (.inl (by decide))
  | finite sign mantissa exponent hPos =>
    rw [hUnpacked] at hView hLow hHigh
    cases sign with
    | negative => exact absurd rfl hLow
    | positive =>
      refine nearestNat32_finite_le hView ?_
      have hOrder : (compare (-46) exponent).then (compare (100 * 2 ^ 46) mantissa) ≠ .lt :=
        fun hLt => hHigh (congrArg some hLt)
      rcases Int.lt_trichotomy exponent (-46) with hSmall | hEqual | hLarge
      · exact .inl hSmall
      · subst hEqual
        refine .inr ⟨rfl, Nat.le_of_not_lt fun hOver => hOrder ?_⟩
        rw [Nat.compare_eq_lt.2 hOver]
        rfl
      · refine absurd ?_ hOrder
        rw [Int.compare_eq_lt.2 hLarge]
        rfl

theorem le_iff_le (x y : Float) : x ≤ y ↔ x.toModel.unpack.le y.toModel.unpack = true := by
  show decide (x.toModel ≤ y.toModel) = true ↔ _
  rw [decide_eq_true_iff]
  exact Iff.rfl

/-- A number above zero and not above one hundred is finite. -/
theorem isFinite_of_percent {x : Float} (hLow : 0.0 < x) (hHigh : x ≤ 100.0) :
    x.isFinite = true := by
  show x.toModel.unpack.isFinite = true
  rw [lt_iff_compare, unpack_zero] at hLow
  rw [le_iff_le, unpack_hundred] at hHigh
  cases hUnpacked : x.toModel.unpack with
  | notANumber =>
    rw [hUnpacked] at hLow
    cases hLow
  | infinity sign =>
    rw [hUnpacked] at hLow hHigh
    cases sign with
    | negative => cases hLow
    | positive => cases hHigh
  | zero | finite => rfl

/-- A number of percent is near one hundred at most. -/
theorem nearestNat32_clampTo_percent (x : Float) :
    nearestNat32 (clampTo 0.0 100.0 x) ≤ 100 := by
  unfold clampTo
  split
  · refine nearestNat32_le_hundred ?_ ?_ <;> rw [lt_iff_compare] <;> exact nofun
  · rename_i hLow
    split
    · refine nearestNat32_le_hundred ?_ ?_ <;> rw [lt_iff_compare] <;> exact nofun
    · rename_i hHigh
      exact nearestNat32_le_hundred hLow hHigh

end Pagewright.Number
