import Mathlib.Algebra.Order.BigOperators.Group.List
import Mathlib.Algebra.Order.Floor.Semifield
import Mathlib.Algebra.Order.Round
import Mathlib.Data.Rat.Floor
import Mathlib.Tactic.FieldSimp
import Mathlib.Tactic.Linarith
import Mathlib.Tactic.Positivity
import Pagewright.Proofs.Page.Apportion

/-!
# Shares follow their weights

With exact numbers the running sum of the parts is rounded and nothing else
happens: halves go upwards, so that rounding never falls when the sum does not,
and the sum ends at the points, where rounding changes nothing. So the clipping
of the running sum is idle, and the shares up to a column make up the rounded
sum of its quotas.

A share is what two rounded sums differ by. Each of them is off by at most a
half, and never by a half downwards, so a share is off by less than one. Where
every quota is one or more, the rounded sum advances with every column, and no
share is left for the loop to fill.

## Main results

* `round_eq_floor` — rounding is cutting off after adding a half.
* `apportion_eq_none_iff` — without a positive weight, or with too few points,
  there are no shares.
* `advance_step`, `sum_take_advance` — a share is an advance of the rounded sum of the
  quotas, and shares up to a column make up that sum.
* `apportion_near_quotas` — shares are within one point of their quotas.
-/

namespace Pagewright.Page.Shares

/-! ## Exact rounding -/

theorem round_eq_floor {q : Rat} (hq : 0 ≤ q) : Measure.round q = ⌊q + 1 / 2⌋₊ := by
  have hNum : ((q.num.toNat : Nat) : Rat) = q.num := by
    have hSame := Int.toNat_of_nonneg (Rat.num_nonneg.2 hq)
    exact_mod_cast hSame
  have hDen : (q.den : Rat) ≠ 0 := by exact_mod_cast q.den_ne_zero
  have hHalf : q + 1 / 2 =
      ((2 * q.num.toNat + q.den : Nat) : Rat) / ((2 * q.den : Nat) : Rat) := by
    push_cast
    rw [hNum]
    conv_lhs => rw [← Rat.num_div_den q]
    field_simp
  show Number.roundDiv .away q.num.toNat q.den = _
  rw [Number.roundDiv_away _ _ q.den_pos, hHalf, Nat.floor_div_eq_div]

theorem round_natCast (n : Nat) : Measure.round (n : Rat) = n := by
  rw [round_eq_floor (Nat.cast_nonneg n), Nat.floor_eq_iff (by positivity)]
  constructor <;> linarith

theorem round_mono {p q : Rat} (hp : 0 ≤ p) (hpq : p ≤ q) :
    Measure.round p ≤ Measure.round q := by
  rw [round_eq_floor hp, round_eq_floor (hp.trans hpq)]
  exact Nat.floor_mono (by linarith)

theorem round_add_one {q : Rat} (hq : 0 ≤ q) :
    Measure.round (q + 1) = Measure.round q + 1 := by
  rw [round_eq_floor hq, round_eq_floor (by linarith), ← Nat.floor_add_one (by linarith)]
  congr 1
  ring

theorem round_le {q : Rat} (hq : 0 ≤ q) : (Measure.round q : Rat) ≤ q + 1 / 2 := by
  rw [round_eq_floor hq]
  exact Nat.floor_le (by linarith)

theorem lt_round {q : Rat} (hq : 0 ≤ q) : q < Measure.round q + 1 / 2 := by
  rw [round_eq_floor hq]
  have hFloor := Nat.lt_floor_add_one (q + 1 / 2)
  linarith

/-- An advance of the rounded sum is off by less than one: both ends are off by a
half at most, and neither is a whole half too low. -/
theorem abs_round_sub_round_lt {reached part : Rat} (hReached : 0 ≤ reached)
    (hPart : 0 ≤ part) :
    |((Measure.round (reached + part) : Rat) - Measure.round reached) - part| < 1 := by
  have hNext : 0 ≤ reached + part := add_nonneg hReached hPart
  have hLow := lt_round hNext
  have hHigh := round_le hNext
  have hLow' := lt_round hReached
  have hHigh' := round_le hReached
  rw [abs_lt]
  constructor <;> linarith

/-- A part of one or more advances the rounded sum. -/
theorem round_lt_round_add {reached part : Rat} (hReached : 0 ≤ reached) (hPart : 1 ≤ part) :
    Measure.round reached < Measure.round (reached + part) := by
  have hStep : Measure.round (reached + 1) ≤ Measure.round (reached + part) :=
    round_mono (by linarith) (by linarith)
  rw [round_add_one hReached] at hStep
  omega

/-! ## Exact weights -/

theorem raise_of_nonneg {q : Rat} (hq : 0 ≤ q) : Measure.raise q = q := if_pos hq

theorem raise_of_neg {q : Rat} (hq : q < 0) : Measure.raise q = 0 := if_neg (not_le.2 hq)

theorem raise_nonneg (q : Rat) : 0 ≤ Measure.raise q := by
  by_cases hq : 0 ≤ q
  · rwa [raise_of_nonneg hq]
  · rw [raise_of_neg (not_le.1 hq)]

theorem raise_pos_iff {q : Rat} : 0 < Measure.raise q ↔ 0 < q := by
  by_cases hq : 0 ≤ q
  · rw [raise_of_nonneg hq]
  · rw [raise_of_neg (not_le.1 hq)]
    constructor <;> intro hPos <;> linarith

theorem map_raise {weights : List Rat} (hNonneg : ∀ w ∈ weights, 0 ≤ w) :
    weights.map Measure.raise = weights := by
  rw [List.map_congr_left fun w hMem => raise_of_nonneg (hNonneg w hMem), List.map_id']

theorem sum_eq (weights : List Rat) : sum weights = weights.sum := List.sum_eq_foldl.symm

theorem isPositive_iff {q : Rat} : Measure.isPositive q = true ↔ 0 < q := decide_eq_true_iff

/-- Weights come to something exactly if one of them does. -/
theorem isPositive_sum_raise_iff {weights : List Rat} :
    Measure.isPositive (sum (weights.map Measure.raise)) = true ↔ ∃ w ∈ weights, 0 < w := by
  rw [isPositive_iff, sum_eq]
  induction weights with
  | nil => simp
  | cons weight rest ih =>
    have hFirst := raise_nonneg weight
    have hRest : 0 ≤ (rest.map Measure.raise).sum :=
      List.sum_nonneg (List.forall_mem_map.2 fun w _ => raise_nonneg w)
    rw [List.map_cons, List.sum_cons, List.exists_mem_cons_iff, ← ih,
      ← raise_pos_iff (q := weight)]
    constructor
    · intro hPos
      by_contra hNone
      rw [not_or, not_lt, not_lt] at hNone
      linarith
    · rintro (hHere | hThere) <;> linarith

/-- Shares are missing exactly where no weight is above zero or there are more
weights than points. -/
theorem apportion_eq_none_iff {points : Nat} {weights : List Rat} :
    apportion points weights = none ↔ (∀ w ∈ weights, w ≤ 0) ∨ points < weights.length := by
  have hNone : (∀ w ∈ weights, w ≤ 0) ↔
      Measure.isPositive (sum (weights.map Measure.raise)) = false := by
    rw [← Bool.not_eq_true, isPositive_sum_raise_iff]
    push Not
    exact Iff.rfl
  unfold apportion
  dsimp only
  rw [hNone]
  split <;> simp_all

/-! ## The running sum of quotas -/

/-- The part of the points that falls to a weight among weights that sum to `whole`. -/
def quota (points : Nat) (whole weight : Rat) : Rat := points * weight / whole

theorem quota_zero (points : Nat) (whole : Rat) : quota points whole 0 = 0 := by
  rw [quota, mul_zero, zero_div]

theorem quota_add (points : Nat) (whole v w : Rat) :
    quota points whole (v + w) = quota points whole v + quota points whole w := by
  rw [quota, quota, quota, mul_add, add_div]

theorem quota_whole (points : Nat) {whole : Rat} (hWhole : 0 < whole) :
    quota points whole whole = points :=
  mul_div_cancel_right₀ _ hWhole.ne'

theorem quota_nonneg (points : Nat) {whole weight : Rat} (hWhole : 0 < whole)
    (hWeight : 0 ≤ weight) : 0 ≤ quota points whole weight :=
  div_nonneg (mul_nonneg (Nat.cast_nonneg points) hWeight) hWhole.le

theorem nonneg_of_one_le_quota {points : Nat} {whole weight : Rat} (hWhole : 0 < whole)
    (hQuota : 1 ≤ quota points whole weight) : 0 ≤ weight := by
  by_contra hNegative
  have hProduct : points * weight ≤ 0 :=
    mul_nonpos_of_nonneg_of_nonpos (Nat.cast_nonneg points) (not_le.1 hNegative).le
  have hPart : quota points whole weight ≤ 0 :=
    div_nonpos_of_nonpos_of_nonneg hProduct hWhole.le
  linarith

theorem sum_quotas (points : Nat) (whole : Rat) (weights : List Rat) :
    (weights.map (quota points whole)).sum = quota points whole weights.sum := by
  induction weights with
  | nil => exact (quota_zero points whole).symm
  | cons weight rest ih => rw [List.map_cons, List.sum_cons, List.sum_cons, quota_add, ih]

/-- One column takes what the rounded sum advances by its quota: as long as the sum stays
within the points, the clipping is idle. -/
theorem advance_step {points : Nat} {whole reached weight : Rat} (hWhole : 0 < whole)
    (hReached : 0 ≤ reached) (hWeight : 0 ≤ weight)
    (hRoom : reached + quota points whole weight ≤ points) (next : Rat) (others : List Rat) :
    Measure.round reached ≤ Measure.round (reached + quota points whole weight) ∧
      advance points whole reached (Measure.round reached) (weight :: next :: others) =
        (Measure.round (reached + quota points whole weight) - Measure.round reached) ::
          advance points whole (reached + quota points whole weight)
            (Measure.round (reached + quota points whole weight)) (next :: others) := by
  have hPart := quota_nonneg points hWhole hWeight
  have hRise : Measure.round reached ≤ Measure.round (reached + quota points whole weight) :=
    round_mono hReached (by linarith)
  have hLimit : Measure.round (reached + quota points whole weight) ≤ points :=
    (round_mono (by linarith) hRoom).trans_eq (round_natCast points)
  have hNext : max (Measure.round reached) (min points (Measure.round
      (reached + Measure.ofNat points * Measure.raise weight / whole))) =
        Measure.round (reached + quota points whole weight) := by
    rw [raise_of_nonneg hWeight]
    exact (Nat.max_eq_right (Nat.le_min.2 ⟨hRise.trans hLimit, hRise⟩)).trans
      (Nat.min_eq_right hLimit)
  refine ⟨hRise, ?_⟩
  rw [advance_cons, hNext, raise_of_nonneg hWeight]
  rfl

/-- From a rounded sum on, the shares up to a column make up the rounded sum of the
quotas up to it, if the quotas that are left lead to the points. -/
theorem sum_take_advance {points : Nat} {whole : Rat} (hWhole : 0 < whole)
    {weights : List Rat} :
    ∀ reached : Rat, 0 ≤ reached → (∀ w ∈ weights, 0 ≤ w) →
      reached + quota points whole weights.sum = points → ∀ k,
        Measure.round reached +
            ((advance points whole reached (Measure.round reached) weights).take k).sum =
          Measure.round (reached + quota points whole (weights.take k).sum) := by
  induction weights with
  | nil =>
    intro reached hReached _ _ k
    rw [advance, List.take_nil, List.take_nil, List.sum_nil, List.sum_nil, quota_zero,
      add_zero, add_zero]
  | cons weight rest ih =>
    intro reached hReached hNonneg hEnd k
    obtain ⟨hWeight, hRest⟩ := List.forall_mem_cons.1 hNonneg
    have hPart := quota_nonneg points hWhole hWeight
    rw [List.sum_cons, quota_add] at hEnd
    cases k with
    | zero =>
      rw [List.take_zero, List.take_zero, List.sum_nil, List.sum_nil, quota_zero, add_zero,
        add_zero]
    | succ k =>
      cases rest with
      | nil =>
        -- The last column takes what is left, and the sum has come to the points.
        have hAll : reached + quota points whole weight = points := by
          rw [List.sum_nil, quota_zero] at hEnd
          linarith
        have hLimit : Measure.round reached ≤ points :=
          (round_mono hReached (by linarith)).trans_eq (round_natCast points)
        rw [advance, List.take_succ_cons, List.take_succ_cons, List.take_nil, List.take_nil,
          List.sum_singleton, List.sum_singleton, hAll, round_natCast]
        omega
      | cons next others =>
        have hOthers := quota_nonneg points hWhole (List.sum_nonneg hRest)
        obtain ⟨hRise, hStep⟩ :=
          advance_step hWhole hReached hWeight (by linarith) next others
        have hRun := ih (reached + quota points whole weight) (by linarith) hRest
          (by linarith) k
        rw [hStep, List.take_succ_cons, List.take_succ_cons, List.sum_cons, List.sum_cons,
          quota_add, ← add_assoc reached, ← hRun, ← Nat.add_assoc, Nat.add_sub_cancel' hRise]

/-! ## Shares and quotas -/

/-- Where no share is empty, the loop over the empty shares does nothing. -/
theorem fillEmpty_of_full {shares : List Nat} (hFull : 0 ∉ shares) (fuel : Nat) :
    fillEmpty fuel shares = shares := by
  have hNone : shares.findIdx? (· == 0) = none := by
    refine List.findIdx?_eq_none_iff.2 fun s hMem => beq_eq_false_iff_ne.2 ?_
    rintro rfl
    exact hFull hMem
  cases fuel with
  | zero => rfl
  | succ fuel => rw [fillEmpty, hNone]

section Shares

variable {points : Nat} {weights : List Rat}

/-- Weights with quotas of one or more are no more than there are points. -/
theorem length_le_of_one_le_quota (hSum : 0 < weights.sum)
    (hQuota : ∀ w ∈ weights, 1 ≤ quota points weights.sum w) : weights.length ≤ points := by
  have hCount := List.card_nsmul_le_sum (weights.map (quota points weights.sum)) 1
    (List.forall_mem_map.2 hQuota)
  rw [sum_quotas, quota_whole points hSum, List.length_map, nsmul_one] at hCount
  exact_mod_cast hCount

/-- The shares up to a column make up the rounded sum of the quotas up to it. -/
theorem sum_take_advance_zero (hSum : 0 < weights.sum) (hNonneg : ∀ w ∈ weights, 0 ≤ w)
    (k : Nat) :
    ((advance points weights.sum (Measure.ofNat 0) 0 weights).take k).sum =
      Measure.round (quota points weights.sum (weights.take k).sum) := by
  have hStart : Measure.round (0 : Rat) = 0 := round_natCast 0
  have hRun := sum_take_advance hSum 0 le_rfl hNonneg
    (by rw [zero_add, quota_whole points hSum]) k
  rw [hStart, Nat.zero_add, zero_add] at hRun
  exact hRun

/-- A share is what the rounded sum of the quotas advances at its column. -/
theorem round_add_share (hSum : 0 < weights.sum) (hNonneg : ∀ w ∈ weights, 0 ≤ w)
    {i : Nat} (hShare : i < (advance points weights.sum (Measure.ofNat 0) 0 weights).length)
    (hWeight : i < weights.length) :
    Measure.round (quota points weights.sum (weights.take i).sum) +
        (advance points weights.sum (Measure.ofNat 0) 0 weights)[i] =
      Measure.round (quota points weights.sum (weights.take i).sum +
        quota points weights.sum weights[i]) := by
  rw [← quota_add, ← List.sum_take_succ _ _ hWeight, ← sum_take_advance_zero hSum hNonneg,
    ← sum_take_advance_zero hSum hNonneg, List.sum_take_succ _ _ hShare]

end Shares

/-- Where every quota is one or more, there are shares, and they are what the running
sum gives, with none for the loop to fill. The shares up to a column are within a half
of the quotas up to it, and each share is within one of its quota. -/
theorem apportion_near_quotas {points : Nat} {weights : List Rat} (hSum : 0 < weights.sum)
    (hQuota : ∀ w ∈ weights, 1 ≤ quota points weights.sum w) :
    ∃ shares, apportion points weights = some shares ∧
      (shares = advance points (sum (weights.map Measure.raise)) (Measure.ofNat 0) 0 weights ∧
        0 ∉ shares) ∧
      (∀ k, |((shares.take k).sum : Rat) -
        ((weights.take k).map (quota points weights.sum)).sum| ≤ 1 / 2) ∧
      List.Forall₂ (fun (share : Nat) weight =>
        |(share : Rat) - quota points weights.sum weight| < 1) shares weights := by
  have hNonneg : ∀ w ∈ weights, 0 ≤ w := fun w hMem =>
    nonneg_of_one_le_quota hSum (hQuota w hMem)
  have hUpTo (k : Nat) : 0 ≤ quota points weights.sum (weights.take k).sum :=
    quota_nonneg points hSum (List.sum_nonneg fun w hMem =>
      hNonneg w (List.mem_of_mem_take hMem))
  have hLength := length_advance points weights.sum weights (Measure.ofNat 0) 0
  have hFull : 0 ∉ advance points weights.sum (Measure.ofNat 0) 0 weights := by
    intro hMem
    obtain ⟨i, hShare, hZero⟩ := List.getElem_of_mem hMem
    have hWeight : i < weights.length := hLength ▸ hShare
    have hAdvance := round_add_share hSum hNonneg hShare hWeight
    have hOne := round_lt_round_add (hUpTo i) (hQuota _ (List.getElem_mem hWeight))
    omega
  have hWhole : sum (weights.map Measure.raise) = weights.sum := by
    rw [map_raise hNonneg, sum_eq]
  refine ⟨_, ?_, ⟨by rw [hWhole], hFull⟩, fun k => ?_, ?_⟩
  · have hPositive : Measure.isPositive weights.sum = true := isPositive_iff.2 hSum
    have hFew := length_le_of_one_le_quota hSum hQuota
    rw [apportion, hWhole, hPositive]
    simp only [Bool.not_true, Bool.false_or, decide_eq_true_eq, if_neg (not_lt.2 hFew),
      fillEmpty_of_full hFull]
  · have hLow := lt_round (hUpTo k)
    have hHigh := round_le (hUpTo k)
    rw [sum_take_advance_zero hSum hNonneg, sum_quotas, abs_le]
    constructor <;> linarith
  · refine List.forall₂_iff_get.2 ⟨hLength, fun i hShare hWeight => ?_⟩
    have hOff := abs_round_sub_round_lt (hUpTo i)
      (quota_nonneg points hSum (hNonneg _ (List.getElem_mem hWeight)))
    rw [← round_add_share hSum hNonneg hShare hWeight] at hOff
    push_cast at hOff
    rw [add_sub_cancel_left] at hOff
    exact hOff

/-- Twelve points among four weights. The running sums 4, 28/5 and 34/5 are rounded to
4, 6 and 7, which puts the second share above its quota and the third one below. -/
theorem apportion_near_quotas_twelve :
    apportion 12 ([5 / 2, 1, 3 / 4, 13 / 4] : List Rat) = some [4, 2, 1, 5] ∧
      List.Forall₂ (fun (share : Nat) weight => |(share : Rat) - quota 12 (15 / 2) weight| < 1)
        [4, 2, 1, 5] [5 / 2, 1, 3 / 4, 13 / 4] := by
  have hShares : apportion 12 ([5 / 2, 1, 3 / 4, 13 / 4] : List Rat) = some [4, 2, 1, 5] := by
    decide +kernel
  have hWhole : ([5 / 2, 1, 3 / 4, 13 / 4] : List Rat).sum = 15 / 2 := by decide +kernel
  have hSum : 0 < ([5 / 2, 1, 3 / 4, 13 / 4] : List Rat).sum := by decide +kernel
  have hQuota : ∀ w ∈ ([5 / 2, 1, 3 / 4, 13 / 4] : List Rat),
      1 ≤ quota 12 ([5 / 2, 1, 3 / 4, 13 / 4] : List Rat).sum w := by decide +kernel
  obtain ⟨shares, hSome, -, -, hNear⟩ := apportion_near_quotas hSum hQuota
  obtain rfl := Option.some.inj (hShares.symm.trans hSome)
  rw [hWhole] at hNear
  exact ⟨hShares, hNear⟩

end Pagewright.Page.Shares
