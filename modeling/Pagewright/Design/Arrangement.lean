import Pagewright.Design.Appearance
import Pagewright.Design.Thresholds

/-!
# The arrangement of siblings

Siblings are read in the order of their positions, one of them may be the
background of their parent, and freely placed ones are grouped into rows. The
functions work on lists of anything that carries a node, so that what is known
about a node travels with it.

## Main results

* `readingOrder_perm` — reading order loses and adds nothing.
* `removeAt_perm` — nor does taking the background out.
-/

namespace Pagewright.Design

variable {α : Type}

/-! ## Reading order -/

/-- The sort key of a box: the main axis first. -/
def positionKey (horizontal : Bool) (box : Box) : Int × Int :=
  let x := Number.orderKey box.x
  let y := Number.orderKey box.y
  if horizontal then (x, y) else (y, x)

/-- Whether a key comes before another, or is the same. -/
def keyLe (a b : Int × Int) : Bool := a.1 < b.1 || (a.1 == b.1 && a.2 ≤ b.2)

/--
Siblings from left to right under horizontal layout, from top to bottom
otherwise; the other axis breaks ties, and what still ties keeps its order.
-/
def readingOrder (node : α → Node) (horizontal : Bool) (siblings : List α) : List α :=
  siblings.mergeSort fun a b =>
    keyLe (positionKey horizontal (node a).box) (positionKey horizontal (node b).box)

theorem readingOrder_perm (node : α → Node) (horizontal : Bool) (siblings : List α) :
    (readingOrder node horizontal siblings).Perm siblings :=
  List.mergeSort_perm _ _

/-- Siblings from left to right. -/
def leftToRight (node : α → Node) (siblings : List α) : List α :=
  siblings.mergeSort fun a b =>
    Number.orderKey (node a).box.x ≤ Number.orderKey (node b).box.x

/-! ## Backgrounds -/

/-- Whether a child reads as the background of its parent. -/
def isBackground (thresholds : Thresholds) (parent : Box) (child : Node) : Bool :=
  let box := child.box
  (child.type == .rectangle || child.type == .vector) &&
  (visualStyle child).hasVisual &&
  !(box.width ≤ 0.0 || box.height ≤ 0.0) &&
  (thresholds.backgroundCoverage ≤ box.width / parent.width &&
   thresholds.backgroundCoverage ≤ box.height / parent.height) &&
  ((box.x - parent.x).abs ≤ thresholds.backgroundOffset &&
   (box.y - parent.y).abs ≤ thresholds.backgroundOffset)

/-- The position of the first background among siblings, if the parent has a box. -/
def backgroundIndex? (node : α → Node) (thresholds : Thresholds) (parent : Box)
    (siblings : List α) : Option Nat :=
  if parent.width ≤ 0.0 || parent.height ≤ 0.0 then none
  else siblings.findIdx? fun sibling => isBackground thresholds parent (node sibling)

/-- The member at a position, and the others. -/
def removeAt (index : Nat) (siblings : List α) : Option α × List α :=
  (siblings[index]?, siblings.eraseIdx index)

theorem removeAt_perm {index : Nat} {siblings : List α} {x : α}
    (h : (removeAt index siblings).1 = some x) :
    (x :: (removeAt index siblings).2).Perm siblings := by
  induction siblings generalizing index with
  | nil => simp [removeAt] at h
  | cons y rest ih =>
    cases index with
    | zero =>
      have hEq : y = x := by simpa [removeAt] using h
      subst hEq
      simp [removeAt]
    | succ index =>
      have hRest : (removeAt index rest).1 = some x := by simpa [removeAt] using h
      have hPerm := (ih hRest).cons y
      exact (List.Perm.swap y x _).trans hPerm

/-! ## Rows -/

/-- A row while it is being filled, its members in order of arrival. -/
structure Row (α : Type) where
  center : Float
  members : List α

/-- How far the center of a row may lie from that of a new member. -/
def rowReach (thresholds : Thresholds) (box : Box) : Float :=
  Number.larger thresholds.rowThresholdMin (box.height * thresholds.rowThresholdFactor)

/--
Puts a sibling into the first row within reach, whose center moves to the
middle between the two; a sibling out of reach of all rows opens a new one.
-/
def joinRow (center reach : Float) (sibling : α) : List (Row α) → List (Row α)
  | [] => [⟨center, [sibling]⟩]
  | row :: rest =>
    if (row.center - center).abs ≤ reach then
      ⟨(row.center + center) / 2.0, row.members ++ [sibling]⟩ :: rest
    else row :: joinRow center reach sibling rest

/-- The rows of siblings in the order in which they were opened. -/
def openRows (node : α → Node) (thresholds : Thresholds) (siblings : List α) : List (Row α) :=
  siblings.foldl (fun rows sibling =>
    let box := (node sibling).box
    joinRow box.centerY (rowReach thresholds box) sibling rows) []

/-- Puts a row behind those that it is not above, in rows from the bottom up. -/
def insertRow (row : Row α) : List (Row α) → List (Row α)
  | [] => [row]
  | other :: rest =>
    if row.center < other.center then other :: insertRow row rest else row :: other :: rest

/-- Rows from top to bottom; rows at the same height keep their order. -/
def sortRows (rows : List (Row α)) : List (Row α) :=
  (rows.foldl (fun sorted row => insertRow row sorted) []).reverse

/-- Siblings grouped into rows from top to bottom. -/
def groupIntoRows (node : α → Node) (thresholds : Thresholds) (siblings : List α) :
    List (List α) :=
  (sortRows (openRows node thresholds siblings)).map (·.members)

end Pagewright.Design
