import Pagewright.Number.Literal
import Pagewright.Proofs.Number.View

/-!
# Whole numbers survive as numbers

A natural number of at most fifty-three bits is a binary64 number, so reading
it as a number loses nothing: rounding finds nothing to round, and the integer
part of the result is the number that was read.

## Main results

* `roundWithAccuracy_scaled` — rounding is exact on a mantissa of full length.
* `unpack_pack` — a number with such a mantissa survives packing.
* `unpack_ofInt` — the number of a natural number.
* `natPart32_ofInt`, `natPart8_ofInt` — its integer part.
-/

namespace Pagewright.Number

open Float.Model Float.Model.UnpackedFloat

variable {mantissa : Nat} {exponent : Int}

/-- A mantissa of full length with an exponent of the format. -/
structure Normal (mantissa : Nat) (exponent : Int) : Prop where
  least : 2 ^ 52 ≤ mantissa
  most : mantissa < 2 ^ 53
  exponent_least : -1074 ≤ exponent
  exponent_most : exponent ≤ 971

namespace Normal

theorem pos (hNormal : Normal mantissa exponent) : 0 < mantissa :=
  Nat.lt_of_lt_of_le (by decide) hNormal.least

theorem log2_scaled (hNormal : Normal mantissa exponent) (places : Nat) :
    (mantissa * 2 ^ places).log2 = 52 + places := by
  have hNe : mantissa * 2 ^ places ≠ 0 :=
    Nat.ne_of_gt (Nat.mul_pos hNormal.pos (Nat.two_pow_pos places))
  have hLeast : 52 + places ≤ (mantissa * 2 ^ places).log2 := by
    rw [Nat.le_log2 hNe, Nat.pow_add]
    exact Nat.mul_le_mul_right _ hNormal.least
  have hMost : (mantissa * 2 ^ places).log2 < 53 + places := by
    rw [Nat.log2_lt hNe, Nat.pow_add]
    exact Nat.mul_lt_mul_of_pos_right hNormal.most (Nat.two_pow_pos places)
  omega

theorem log2 (hNormal : Normal mantissa exponent) : mantissa.log2 = 52 := by
  have hLog := hNormal.log2_scaled 0
  rwa [Nat.pow_zero, Nat.mul_one] at hLog

end Normal

/-! ## Rounding -/

/-- Zeros that are shifted out leave no trace. -/
theorem repeat_shiftRightOne_scaled (mantissa places : Nat) :
    Nat.repeat ExtendedMantissa.shiftRightOne places ⟨mantissa * 2 ^ places, false, false⟩ =
      ⟨mantissa, false, false⟩ := by
  induction places generalizing mantissa with
  | zero => rw [Nat.pow_zero, Nat.mul_one]; rfl
  | succ places ih =>
    have hHalf : mantissa * 2 ^ (places + 1) = mantissa * 2 * 2 ^ places := by
      rw [Nat.pow_succ, Nat.mul_assoc, Nat.mul_comm 2]
    rw [Nat.repeat, hHalf, ih (mantissa * 2)]
    show ExtendedMantissa.mk (mantissa * 2 / 2) (mantissa * 2 % 2 != 0) (false || false) = _
    rw [Nat.mul_div_cancel _ (by decide), Nat.mul_mod_left]
    rfl

/-- A full mantissa with zeros behind it is shifted back to full length. -/
theorem shiftToTargetExponent_scaled (hNormal : Normal mantissa exponent) (places : Nat) :
    shiftToTargetExponent Format.binary64 (mantissa * 2 ^ places) (exponent - places) .exact =
      (⟨mantissa, false, false⟩, exponent) := by
  have hLog := hNormal.log2_scaled places
  have hTarget : Format.binary64.targetExponent
      (totalExponent (mantissa * 2 ^ places) (exponent - places)) = exponent := by
    have hLeast := hNormal.exponent_least
    rw [totalExponent, hLog]
    show max (((52 + places : Nat) : Int) + 1 + (exponent - places) - 53) (-1074) = exponent
    omega
  have hAmount : (exponent - (exponent - places)).toNat = places := by omega
  unfold shiftToTargetExponent shiftToExponent
  simp only [hTarget, hAmount]
  refine Prod.ext ?_ ?_
  · exact repeat_shiftRightOne_scaled mantissa places
  · show exponent - places + places = exponent
    omega

/-- Rounding a full mantissa with zeros behind it changes nothing. -/
theorem roundWithAccuracy_scaled (sign : Sign) (hNormal : Normal mantissa exponent)
    (places : Nat) :
    roundWithAccuracy Format.binary64 sign (mantissa * 2 ^ places) (exponent - places) .exact =
      .finite sign mantissa exponent hNormal.pos := by
  have hFirst := shiftToTargetExponent_scaled hNormal places
  have hSecond : shiftToTargetExponent Format.binary64 mantissa exponent .exact =
      (⟨mantissa, false, false⟩, exponent) := by
    have hWhole := shiftToTargetExponent_scaled hNormal 0
    rwa [Nat.pow_zero, Nat.mul_one, Int.natCast_zero, Int.sub_zero] at hWhole
  have hRounded : (ExtendedMantissa.mk mantissa false false).roundedMantissa = mantissa := rfl
  unfold roundWithAccuracy
  rw [hFirst]
  dsimp only
  rw [hRounded, hSecond]
  exact dif_neg (Nat.ne_of_gt hNormal.pos)

/-! ## Packing -/

theorem ofBitVec_unpackSign_packComponents (sign : Sign) (exponentField : BitVec 11)
    (mantissaField : BitVec 52) :
    Sign.ofBitVec (unpackSign
      (packComponents Format.binary64 sign exponentField mantissaField)) = sign := by
  unfold unpackSign packComponents BitVec.extractLsb
  rw [BitVec.extractLsb'_append_eq_of_le (by decide),
    BitVec.extractLsb'_append_eq_of_le (by decide)]
  cases sign <;> rfl

/-- The leading bit that packing leaves out comes back. -/
theorem toNat_leading_append (hNormal : Normal mantissa exponent) :
    (1#1 ++ BitVec.ofNat 52 mantissa).toNat = mantissa := by
  have hLeast := hNormal.least
  have hMost := hNormal.most
  have hLt : (BitVec.ofNat 52 mantissa).toNat < 2 ^ 52 := (BitVec.ofNat 52 mantissa).isLt
  rw [BitVec.toNat_append, ← Nat.shiftLeft_add_eq_or_of_lt hLt, BitVec.toNat_ofNat,
    Nat.shiftLeft_eq]
  show 1 * 2 ^ 52 + mantissa % 2 ^ 52 = mantissa
  omega

theorem finite_congr {s t : Sign} {m n : Nat} {e f : Int} {hPos : 0 < m} {hPos' : 0 < n}
    (hSign : s = t) (hMantissa : m = n) (hExponent : e = f) :
    UnpackedFloat.finite s m e hPos = .finite t n f hPos' := by
  subst hSign hMantissa hExponent
  rfl

/-- A number with a full mantissa survives packing. -/
theorem unpack_pack (sign : Sign) (hNormal : Normal mantissa exponent) :
    (Float.Model.pack (.finite sign mantissa exponent hNormal.pos)).unpack =
      .finite sign mantissa exponent hNormal.pos := by
  have hLeast := hNormal.exponent_least
  have hMost := hNormal.exponent_most
  obtain ⟨biased, hBiased⟩ : ∃ biased : Nat, exponent = biased - 1075 :=
    ⟨(exponent + 1075).toNat, by omega⟩
  have hRange : 1 ≤ biased ∧ biased ≤ 2046 := by omega
  have hField : (exponent + Format.binary64.exponentBias +
      Format.binary64.mantissaBitsWithoutImplicit).toNat = biased := by
    show (exponent + 1023 + 52).toNat = biased
    omega
  have hPacked : UnpackedFloat.pack Format.binary64 (.finite sign mantissa exponent hNormal.pos) =
      packComponents Format.binary64 sign (BitVec.ofNat 11 biased) (BitVec.ofNat 52 mantissa) := by
    have hBelow : ¬2 ^ Format.binary64.exponentBits ≤ biased + 1 := by
      show ¬2 ^ 11 ≤ biased + 1
      omega
    unfold UnpackedFloat.pack
    dsimp only
    rw [hField, hNormal.log2, if_neg hBelow]
    exact if_pos rfl
  have hBits : (BitVec.ofNat 11 biased).toNat = biased := by
    rw [BitVec.toNat_ofNat, Nat.mod_eq_of_lt (by omega)]
  have hNotOnes : BitVec.ofNat 11 biased ≠ -1#11 := by
    intro hOnes
    have hEq : biased = 2047 := hBits.symm.trans (congrArg BitVec.toNat hOnes)
    omega
  have hNotZeros : BitVec.ofNat 11 biased ≠ 0#11 := by
    intro hZeros
    have hEq : biased = 0 := hBits.symm.trans (congrArg BitVec.toNat hZeros)
    omega
  show UnpackedFloat.unpack Format.binary64 (UnpackedFloat.pack Format.binary64 _) = _
  rw [hPacked]
  unfold UnpackedFloat.unpack
  dsimp only
  rw [if_neg (by rwa [unpackExponent_packComponents]),
    if_neg (by rwa [unpackExponent_packComponents])]
  refine finite_congr ?_ ?_ ?_
  · exact ofBitVec_unpackSign_packComponents sign _ _
  · rw [unpackMantissa_packComponents, toNat_leading_append hNormal]
  · rw [unpackExponent_packComponents, hBits]
    show (biased : Int) - (1023 + 52) = exponent
    omega

/-! ## Natural numbers -/

/-- The mantissa of full length of a natural number. -/
theorem normal_of_lt {n : Nat} (hPos : 0 < n) (hMost : n < 2 ^ 53) :
    Normal (n * 2 ^ (52 - n.log2)) (n.log2 - 52) := by
  have hNe : n ≠ 0 := Nat.ne_of_gt hPos
  have hLog : n.log2 < 53 := (Nat.log2_lt hNe).2 hMost
  have hLow : 2 ^ n.log2 ≤ n := Nat.log2_self_le hNe
  have hHigh : n < 2 ^ (n.log2 + 1) := Nat.lt_log2_self
  have hScale : 0 < 2 ^ (52 - n.log2) := Nat.two_pow_pos _
  refine ⟨?_, ?_, by omega, by omega⟩
  · calc 2 ^ 52 = 2 ^ n.log2 * 2 ^ (52 - n.log2) := by
          rw [← Nat.pow_add]
          congr 1
          omega
      _ ≤ n * 2 ^ (52 - n.log2) := Nat.mul_le_mul_right _ hLow
  · calc n * 2 ^ (52 - n.log2) < 2 ^ (n.log2 + 1) * 2 ^ (52 - n.log2) :=
          Nat.mul_lt_mul_of_pos_right hHigh hScale
      _ = 2 ^ 53 := by
          rw [← Nat.pow_add]
          congr 1
          omega

/-- A natural number with a full mantissa is rounded to itself. -/
theorem ofNat_eq {n : Nat} (hPos : 0 < n) (hMost : n < 2 ^ 53) :
    UnpackedFloat.ofNat Format.binary64 n =
      .finite .positive (n * 2 ^ (52 - n.log2)) (n.log2 - 52) (normal_of_lt hPos hMost).pos := by
  have hLog : n.log2 < 53 := (Nat.log2_lt (Nat.ne_of_gt hPos)).2 hMost
  have hCompare : compare (n : Int) 0 = .gt := Int.compare_eq_gt.2 (by omega)
  have hTarget : Format.binary64.targetExponent (totalExponent n 0) = n.log2 - 52 := by
    show max ((n.log2 : Int) + 1 + 0 - 53) (-1074) = n.log2 - 52
    omega
  have hAmount : ((0 : Int) - (n.log2 - 52)).toNat = 52 - n.log2 := by omega
  have hExponent : (0 : Int) - (52 - n.log2 : Nat) = n.log2 - 52 := by omega
  have hRounded := roundWithAccuracy_scaled .positive (normal_of_lt hPos hMost) 0
  rw [Nat.pow_zero, Nat.mul_one, Int.natCast_zero, Int.sub_zero] at hRounded
  refine Eq.trans ?_ hRounded
  unfold UnpackedFloat.ofNat UnpackedFloat.ofInt UnpackedFloat.normalize
  simp only [hCompare, UnpackedFloat.round, Int.toNat_natCast, hTarget, decreaseExponent, hAmount,
    Nat.shiftLeft_eq, hExponent]

theorem unpack_one : (Float.ofBits 0x3FF0000000000000).toModel.unpack =
    .finite .positive (2 ^ 52) (-52) (by decide) := rfl

/-- A decimal without places is read by one conversion and a multiplication by one. -/
theorem ofInt_eq_mul {n : Nat} (hPos : 0 < n) (hMost : n < 2 ^ 53) :
    ofInt n = n.toUInt64.toFloat * Float.ofBits 0x3FF0000000000000 := by
  have hDigits : (Nat.toDigits 10 n).length ≤ 16 :=
    (Nat.length_toDigits_le_iff (by decide) (by decide)).2 (Nat.lt_trans hMost (by decide))
  have hSign : decide ((n : Int) < 0) = false := decide_eq_false (by omega)
  have hScientific : Float.ofScientific n false 0 =
      n.toUInt64.toFloat * Float.ofBits 0x3FF0000000000000 :=
    dif_pos ⟨hMost, by decide⟩
  have hTop : ¬400 < (0 : Int) + (Nat.toDigits 10 n).length := by omega
  have hBottom : ¬(0 : Int) + (Nat.toDigits 10 n).length < -400 := by omega
  rw [← hScientific]
  unfold ofInt ofDecimal
  rw [hSign, Int.natAbs_natCast, if_neg (Nat.ne_of_gt hPos)]
  simp only
  rw [if_neg hTop, if_neg hBottom]
  rfl

/-- A natural number of at most fifty-three bits as a number. -/
theorem unpack_ofInt {n : Nat} (hPos : 0 < n) (hMost : n < 2 ^ 53) :
    (ofInt n).toModel.unpack =
      .finite .positive (n * 2 ^ (52 - n.log2)) (n.log2 - 52) (normal_of_lt hPos hMost).pos := by
  have hNormal := normal_of_lt hPos hMost
  have hWord : n.toUInt64.toNat = n := by
    rw [Nat.toUInt64_eq, UInt64.toNat_ofNat', Nat.mod_eq_of_lt (Nat.lt_trans hMost (by decide))]
  have hConverted : n.toUInt64.toFloat.toModel.unpack =
      .finite .positive (n * 2 ^ (52 - n.log2)) (n.log2 - 52) hNormal.pos := by
    show (Float.Model.pack (UnpackedFloat.ofNat Format.binary64 n.toUInt64.toNat)).unpack = _
    rw [hWord, ofNat_eq hPos hMost]
    exact unpack_pack .positive hNormal
  have hProduct : UnpackedFloat.mul Format.binary64
      (.finite .positive (n * 2 ^ (52 - n.log2)) (n.log2 - 52) hNormal.pos)
      (.finite .positive (2 ^ 52) (-52) (by decide)) =
        .finite .positive (n * 2 ^ (52 - n.log2)) (n.log2 - 52) hNormal.pos :=
    roundWithAccuracy_scaled .positive hNormal 52
  rw [ofInt_eq_mul hPos hMost]
  show (Float.Model.pack (UnpackedFloat.mul Format.binary64 n.toUInt64.toFloat.toModel.unpack
    (Float.ofBits 0x3FF0000000000000).toModel.unpack)).unpack = _
  rw [hConverted, unpack_one, hProduct]
  exact unpack_pack .positive hNormal

/-! ## Their parts -/

theorem unpack_ofInt_zero : (ofInt 0).toModel.unpack = .zero .positive := rfl

theorem isFinite_ofInt {n : Nat} (hMost : n < 2 ^ 53) : (ofInt n).isFinite = true := by
  show (ofInt n).toModel.unpack.isFinite = true
  rcases Nat.eq_zero_or_pos n with rfl | hPos
  · rfl
  · rw [unpack_ofInt hPos hMost]
    rfl

theorem nonneg_ofInt {n : Nat} (hMost : n < 2 ^ 53) : 0.0 ≤ ofInt n := by
  show decide ((0.0 : Float).toModel ≤ (ofInt n).toModel) = true
  rw [decide_eq_true_iff]
  show (0.0 : Float).toModel.unpack.le (ofInt n).toModel.unpack = true
  rw [unpack_zero]
  rcases Nat.eq_zero_or_pos n with rfl | hPos
  · rfl
  · rw [unpack_ofInt hPos hMost]
    rfl

theorem integerPart_of_view {x : Float} {negative : Bool}
    (hView : Binary.ofFloat x = .finite negative mantissa exponent) (lo hi : Int) :
    integerPart lo hi x = clip lo hi (signed negative
      ((Ratio.ofBinary mantissa exponent).num / (Ratio.ofBinary mantissa exponent).den)) := by
  unfold integerPart
  rw [hView]

/-- The integer part of a natural number is the number, clipped to the range. -/
theorem integerPart_ofInt {n : Nat} (hMost : n < 2 ^ 53) (lo hi : Int) :
    integerPart lo hi (ofInt n) = clip lo hi n := by
  have hView := Binary.ofFloat_eq (ofInt n)
  rcases Nat.eq_zero_or_pos n with rfl | hPos
  · have hNum : (Ratio.ofBinary 0 (-1074)).num = 0 := Nat.zero_mul _
    rw [Int.natCast_zero, unpack_ofInt_zero] at hView
    rw [Int.natCast_zero, integerPart_of_view hView, hNum, Nat.zero_div]
    rfl
  · have hLog : n.log2 < 53 := (Nat.log2_lt (Nat.ne_of_gt hPos)).2 hMost
    have hWhole : ((n.log2 : Int) - 52).toNat = 0 := by omega
    have hPlaces : (-((n.log2 : Int) - 52)).toNat = 52 - n.log2 := by omega
    have hQuotient : n * 2 ^ (52 - n.log2) * 2 ^ 0 / 2 ^ (52 - n.log2) = n := by
      rw [Nat.pow_zero, Nat.mul_one, Nat.mul_div_cancel _ (Nat.two_pow_pos _)]
    rw [unpack_ofInt hPos hMost] at hView
    rw [integerPart_of_view hView]
    show clip lo hi (signed false (n * 2 ^ (52 - n.log2) * 2 ^ ((n.log2 : Int) - 52).toNat /
      2 ^ (-((n.log2 : Int) - 52)).toNat)) = clip lo hi n
    rw [hWhole, hPlaces, hQuotient]
    rfl

theorem natPart32_ofInt {n : Nat} (hMost : n < 2 ^ 32) : natPart32 (ofInt n) = n := by
  rw [natPart32, integerPart_ofInt (Nat.lt_trans hMost (by decide)), clip]
  omega

theorem natPart8_ofInt {n : Nat} (hMost : n < 2 ^ 8) : natPart8 (ofInt n) = n := by
  rw [natPart8, integerPart_ofInt (Nat.lt_trans hMost (by decide)), clip]
  omega

end Pagewright.Number
