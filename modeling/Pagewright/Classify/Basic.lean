import Pagewright.Classify.Arrange
import Pagewright.Classify.Leaf
import Pagewright.Classify.Rule

/-!
# Classification

A design node reads as a layout, or as nothing. Texts and childless shapes are
leaves; of other nodes the children are classified first, then the rules for
familiar shapes are tried, and what none of them takes is arranged along its
axis.

## Main results

* `classifyAll_eq_map` — children are classified one by one, in their order.
-/

namespace Pagewright.Classify

open Design (Thresholds)

/-- What a node reads as whose children are classified. -/
def judge (thresholds : Thresholds) (node : Design.Node) (members : List Member) :
    Option Layout.Node :=
  if node.isText then text? thresholds node
  else if members.isEmpty then image? thresholds node
  else Rule.firstMatch? thresholds node members <|> arrange? thresholds node members

mutual

/-- What a node reads as. -/
def classify (thresholds : Thresholds) : Design.Node → Option Layout.Node
  | node@{ children, .. } => judge thresholds node (classifyAll thresholds children)

/-- Nodes with what they read as. -/
def classifyAll (thresholds : Thresholds) : List Design.Node → List Member
  | [] => []
  | node :: rest => ⟨node, classify thresholds node⟩ :: classifyAll thresholds rest

end

theorem classifyAll_eq_map (thresholds : Thresholds) (nodes : List Design.Node) :
    classifyAll thresholds nodes = nodes.map fun node => ⟨node, classify thresholds node⟩ := by
  induction nodes with
  | nil => rfl
  | cons node rest ih => simp only [classifyAll, List.map_cons, ih]

/-- The classified children of a node. -/
def membersOf (thresholds : Thresholds) (node : Design.Node) : List Member :=
  classifyAll thresholds node.children

theorem classify_eq_judge (thresholds : Thresholds) (node : Design.Node) :
    classify thresholds node = judge thresholds node (membersOf thresholds node) := by
  cases node
  simp only [classify, membersOf]

end Pagewright.Classify
