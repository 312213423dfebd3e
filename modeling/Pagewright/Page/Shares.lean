import Pagewright.Layout.Style
import Pagewright.Number.Literal
import Pagewright.Number.Rounding

/-!
# Column shares

A row of columns is sized in percent. Layouts carry softer hints, and the
first hint that is present on the row decides: explicit percents, then grow
weights, then pixel widths. Shares are natural numbers from one up that sum to
one hundred; without a usable hint there are none, and the columns are equal.

The computation only needs sums, products, quotients and rounding, so it is
stated over any `Measure`: floating-point numbers when it runs, and exact
rationals as the arithmetic against which it can be judged.
-/

namespace Pagewright.Page

/-- Numbers that can be apportioned. -/
class Measure (α : Type) extends Add α, Mul α, Div α where
  ofNat : Nat → α
  /-- Whether a number is above zero. -/
  isPositive : α → Bool
  /-- The number, or zero if it is below. -/
  raise : α → α
  /-- The number within `0 … 100`. -/
  percent : α → α
  /-- The nearest natural number, halves upwards. -/
  round : α → Nat

instance : Measure Float where
  ofNat n := Number.ofDecimal false n 0
  isPositive x := 0.0 < x
  raise x := Number.larger x 0.0
  percent x := Number.clampTo 0.0 100.0 x
  round x := Number.nearestNat32 x

instance : Measure Rat where
  ofNat n := n
  isPositive q := decide (0 < q)
  raise q := if 0 ≤ q then q else 0
  percent q := if q < 0 then 0 else if 100 < q then 100 else q
  round q := Number.roundDiv .away q.num.toNat q.den

/-- The sizing hints of one column. -/
structure SizeHint (α : Type) where
  widthPercent : Option α
  flexGrow : Option α
  widthPx : Option α

/-- The hints of a style. -/
def SizeHint.ofStyle (style : Option Layout.Style) : SizeHint Float where
  widthPercent := style.bind (·.widthPercent)
  flexGrow := style.bind (·.flexGrow)
  widthPx := style.bind (·.widthPx)

namespace Shares

/-- The points of a row. -/
def total : Nat := 100

/-! ## Apportioning points by weight -/

/-- The sum of weights. -/
def sum {α : Type} [Measure α] (weights : List α) : α :=
  weights.foldl (· + ·) (Measure.ofNat 0)

/--
The points of each weight. The running sum of the exact parts is rounded, and
a share is what it advances; the last entry takes what is left.
-/
def advance {α : Type} [Measure α] (points : Nat) (whole : α) : α → Nat → List α → List Nat
  | _, _, [] => []
  | _, assigned, [_] => [points - assigned]
  | reached, assigned, weight :: rest =>
    let reached := reached + Measure.ofNat points * Measure.raise weight / whole
    let next := max assigned (min points (Measure.round reached))
    (next - assigned) :: advance points whole reached next rest

/-- The last position of the largest share. -/
def lastLargest (shares : List Nat) : Nat :=
  let largest := shares.foldl max 0
  shares.length - 1 - (shares.reverse.findIdx (· == largest))

/-- Moves a point from the largest share to each empty one, first things first. -/
def fillEmpty : Nat → List Nat → List Nat
  | 0, shares => shares
  | count + 1, shares =>
    match shares.findIdx? (· == 0) with
    | none => shares
    | some empty => fillEmpty count ((shares.modify (lastLargest shares) (· - 1)).set empty 1)

/-- Points by weight, at least one each, if that can be done. -/
def apportion {α : Type} [Measure α] (points : Nat) (weights : List α) : Option (List Nat) :=
  let whole := sum (weights.map Measure.raise)
  if !Measure.isPositive whole || points < weights.length then none
  else
    let shares := advance points whole (Measure.ofNat 0) 0 weights
    some (fillEmpty shares.length shares)

/-! ## Which hint decides -/

/-- A grow weight, one where it is not given. -/
def growWeight {α : Type} [Measure α] (hint : SizeHint α) : α :=
  Measure.raise (hint.flexGrow.getD (Measure.ofNat 1))

/-- A pixel width, zero where it is not given. -/
def pixelWidth {α : Type} [Measure α] (hint : SizeHint α) : α :=
  hint.widthPx.getD (Measure.ofNat 0)

/-- An explicit percent as whole points, at least one. -/
def fixedShare {α : Type} [Measure α] (hint : SizeHint α) : Option Nat :=
  hint.widthPercent.map fun p => max 1 (Measure.round (Measure.percent p))

/-- Puts the shares of the free entries between the fixed ones. -/
def interleave : List (Option Nat) → List Nat → Option (List Nat)
  | [], _ => some []
  | some share :: rest, free => (interleave rest free).map (share :: ·)
  | none :: _, [] => none
  | none :: rest, share :: free => (interleave rest free).map (share :: ·)

/--
Shares of a row where some entries have percents. They keep their points, and
the free entries split the rest by grow weight. Where no entry is free, or too
few points are left, the percents become weights.
-/
def byPercent {α : Type} [Measure α] (hints : List (SizeHint α)) : Option (List Nat) :=
  let fixed := hints.map fixedShare
  let fixedTotal := (fixed.filterMap id).foldl (· + ·) 0
  let free := (hints.filter fun hint => hint.widthPercent.isNone).map growWeight
  if free.isEmpty || total < fixedTotal + free.length then
    apportion total (fixed.map fun share => (Measure.ofNat (share.getD 0) : α))
  else
    let weights := if Measure.isPositive (sum free) then free
      else free.map fun _ => Measure.ofNat 1
    (apportion (total - fixedTotal) weights).bind (interleave fixed)

end Shares

/-- The shares of the columns of a row. -/
def columnShares {α : Type} [Measure α] (hints : List (SizeHint α)) : Option (List Nat) :=
  if hints.isEmpty then none
  else if hints.any (·.widthPercent.isSome) then Shares.byPercent hints
  else if hints.any (·.flexGrow.isSome) then
    Shares.apportion Shares.total (hints.map Shares.growWeight)
  else if hints.all fun hint => Measure.isPositive (Shares.pixelWidth hint) then
    Shares.apportion Shares.total (hints.map Shares.pixelWidth)
  else none

end Pagewright.Page
