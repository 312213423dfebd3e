import Mathlib.Data.Int.CharZero
import Pagewright.Proofs.Number.View

/-!
# The order of numbers

A comparison looks at the signs of two numbers, then at their exponents and
then at their mantissas, and the undefined number is below and above nothing.
So `<` is no linear order of all numbers. What a sort needs of it holds
nevertheless: no two numbers are below each other, and a defined number between
two that differ is told apart from one of them.

## Main results

* `lt_iff_rank` — defined numbers are in the order of their ranks.
* `lt_asymm` — a number is not below another and above it.
* `lt_or_lt_of_lt` — of two numbers in order, every defined number is above the
  lower or below the higher.
-/

namespace Pagewright.Number

open Float.Model

/-! ## Ranks -/

/-- The rank of a number: the side of zero on which it lies, then how far it lies there. -/
def rank : UnpackedFloat → Int × Int × Int
  | .notANumber => (0, 0, 0)
  | .infinity .negative => (-2, 0, 0)
  | .infinity .positive => (2, 0, 0)
  | .zero _ => (0, 0, 0)
  | .finite .negative mantissa exponent _ => (-1, -exponent, -mantissa)
  | .finite .positive mantissa exponent _ => (1, exponent, mantissa)

/-- Ranks are compared part by part. -/
def compareRanks (a b : Int × Int × Int) : Ordering :=
  (compare a.1 b.1).then ((compare a.2.1 b.2.1).then (compare a.2.2 b.2.2))

/-- Whether a rank is below another. -/
def RankLt (a b : Int × Int × Int) : Prop :=
  a.1 < b.1 ∨ a.1 = b.1 ∧ (a.2.1 < b.2.1 ∨ a.2.1 = b.2.1 ∧ a.2.2 < b.2.2)

theorem compareRanks_eq_lt_iff (a b : Int × Int × Int) :
    compareRanks a b = .lt ↔ RankLt a b := by
  simp only [compareRanks, RankLt, Ordering.then_eq_lt, Int.compare_eq_lt, Int.compare_eq_eq]

theorem compare_natCast (m n : Nat) : compare (m : Int) (n : Int) = compare m n := by
  simp [compare, compareOfLessAndEq]

theorem compare_neg_neg (m n : Int) : compare (-m) (-n) = (compare m n).swap := by
  rw [Int.compare_swap]
  simp [compare, compareOfLessAndEq, eq_comm]

/-! ## Comparisons -/

theorem compare_eq_compareRanks {a b : UnpackedFloat} (hA : a.isNaN = false)
    (hB : b.isNaN = false) : a.compare b = some (compareRanks (rank a) (rank b)) := by
  -- Only where both lie on one side of zero do exponents and mantissas matter.
  rcases a with (_ | _) | _ | _ | ⟨_ | _, m, e, hm⟩ <;>
    rcases b with (_ | _) | _ | _ | ⟨_ | _, n, f, hn⟩ <;>
    try first | rfl | contradiction
  · show some ((compare e f).then (compare m n)).swap =
      some ((compare (-e) (-f)).then (compare (-(m : Int)) (-(n : Int))))
    rw [compare_neg_neg, compare_neg_neg, compare_natCast, Ordering.swap_then]
  · show some ((compare e f).then (compare m n)) =
      some ((compare e f).then (compare (m : Int) (n : Int)))
    rw [compare_natCast]

theorem compare_of_isNaN {a b : UnpackedFloat} (hNaN : a.isNaN = true ∨ b.isNaN = true) :
    a.compare b = none := by
  rcases hNaN with hA | hB
  · cases a with
    | notANumber => rfl
    | _ => cases hA
  · cases b with
    | notANumber => cases a <;> rfl
    | _ => cases hB

theorem lt_iff_rank (x y : Float) :
    x < y ↔ x.isNaN = false ∧ y.isNaN = false ∧
      RankLt (rank x.toModel.unpack) (rank y.toModel.unpack) := by
  rw [lt_iff_compare]
  show _ ↔ x.toModel.unpack.isNaN = false ∧ y.toModel.unpack.isNaN = false ∧ _
  by_cases hDefined : x.toModel.unpack.isNaN = false ∧ y.toModel.unpack.isNaN = false
  · rw [compare_eq_compareRanks hDefined.1 hDefined.2, Option.some_inj, compareRanks_eq_lt_iff]
    simp only [hDefined, true_and]
  · have hNaN : x.toModel.unpack.isNaN = true ∨ y.toModel.unpack.isNaN = true := by
      rwa [not_and_or, Bool.not_eq_false, Bool.not_eq_false] at hDefined
    rw [compare_of_isNaN hNaN]
    exact iff_of_false nofun fun hBoth => hDefined ⟨hBoth.1, hBoth.2.1⟩

theorem lt_asymm {x y : Float} (hLt : x < y) : ¬ y < x := by
  intro hGt
  rw [lt_iff_rank] at hLt hGt
  have hForth := hLt.2.2
  have hBack := hGt.2.2
  unfold RankLt at hForth hBack
  omega

/-- A defined number is not both at or below the lower and at or above the higher of two. -/
theorem lt_or_lt_of_lt {x z : Float} (y : Float) (hLt : x < z) (hDefined : y.isNaN = false) :
    x < y ∨ y < z := by
  rw [lt_iff_rank] at hLt
  rw [lt_iff_rank, lt_iff_rank]
  obtain ⟨hLow, hHigh, hRank⟩ := hLt
  have hBetween : RankLt (rank x.toModel.unpack) (rank y.toModel.unpack) ∨
      RankLt (rank y.toModel.unpack) (rank z.toModel.unpack) := by
    unfold RankLt at hRank ⊢
    omega
  rcases hBetween with hBelow | hAbove
  · exact .inl ⟨hLow, hDefined, hBelow⟩
  · exact .inr ⟨hDefined, hHigh, hAbove⟩

end Pagewright.Number
