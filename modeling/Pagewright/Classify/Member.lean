import Pagewright.Design.Arrangement
import Pagewright.Layout.Node

/-!
# Classified children

What a design node reads as depends on what its children read as, so each rule
works on the children together with their layouts. A child that shows nothing
has no layout.

A child may be the *background* of its parent: it is then taken out of the
content and its looks pass to the parent.

## Main results

* `splitBackground_perm` — taking the background out loses no other child.
-/

namespace Pagewright.Classify

open Design (Thresholds)
open Layout (Style)

/-- A child with the layout that it reads as. -/
structure Member where
  node : Design.Node
  layout : Option Layout.Node
  deriving Inhabited

/-- The children of a node in reading order. -/
def inOrder (parent : Design.Node) (members : List Member) : List Member :=
  Design.readingOrder Member.node (parent.layoutMode == .horizontal) members

/-- The children in reading order without the background, and the background. -/
def splitBackground (thresholds : Thresholds) (parent : Design.Node)
    (members : List Member) : List Member × Option Member :=
  let sorted := inOrder parent members
  match Design.backgroundIndex? Member.node thresholds parent.box sorted with
  | some index =>
    let (background, others) := Design.removeAt index sorted
    (others, background)
  | none => (sorted, none)

theorem splitBackground_perm {thresholds : Thresholds} {parent : Design.Node}
    {members others : List Member} {background : Member}
    (h : splitBackground thresholds parent members = (others, some background)) :
    (background :: others).Perm members := by
  simp only [splitBackground] at h
  split at h
  · rename_i index hIndex
    obtain ⟨hOthers, hBackground⟩ := Prod.mk.inj h
    subst hOthers
    exact (Design.removeAt_perm hBackground).trans (Design.readingOrder_perm _ _ _)
  · cases h

/--
The children that are content and the looks of their parent. A parent without
looks of its own takes those of its background, which is then no content.
-/
def absorbBackground (thresholds : Thresholds) (parent : Design.Node)
    (members : List Member) : List Member × Style :=
  let own := Design.visualStyle parent
  if own.hasVisual then (inOrder parent members, own)
  else match splitBackground thresholds parent members with
    | (others, some background) => (others, own.overlay (Design.visualStyle background.node))
    | (others, none) => (others, own)

/-- The layouts of the children that show something. -/
def shown (members : List Member) : List Layout.Node := members.filterMap (·.layout)

end Pagewright.Classify
