import Mathlib.Data.List.Basic
import Pagewright.Design.Reader

/-!
# Design trees in document order

`Node.preorder` lists the nodes of a design, each before the nodes inside it,
and `Node.texts` the texts that are written on it: those of its text nodes,
without blanks around them, as far as something is left.

Visual tools draw texts and shapes as leaves, but a document may say otherwise.
A design is `Bare` where they are leaves.

## Main results

* `Node.induct` — what passes from the children to a node holds of all nodes.
* `Node.texts_eq` — the texts of a node are its own and those of its children.
* `Node.bare_iff` — a design is bare when its root is and its children are.
-/

namespace Pagewright.Design.Node

/-! ## Induction -/

/-- What holds of a node as soon as it holds of its children holds of every node. -/
@[elab_as_elim]
theorem induct {motive : Node → Prop}
    (step : ∀ node : Node, (∀ child ∈ node.children, motive child) → motive node)
    (node : Node) : motive node := by
  refine @Node.rec motive (fun nodes => ∀ child ∈ nodes, motive child) ?_ ?_ ?_ node
  · intros
    exact step _ ‹_›
  · exact fun child hMem => absurd hMem List.not_mem_nil
  · intro first rest ihFirst ihRest child hMem
    rcases List.mem_cons.1 hMem with rfl | hRest
    · exact ihFirst
    · exact ihRest child hRest

/-! ## Document order -/

mutual

/-- The nodes of a design, each before those inside it. -/
def preorder : Node → List Node
  | node@{ children, .. } => node :: preorderAll children

/-- The nodes of several designs, one design after the other. -/
def preorderAll : List Node → List Node
  | [] => []
  | node :: rest => preorder node ++ preorderAll rest

end

theorem preorderAll_eq (nodes : List Node) : preorderAll nodes = nodes.flatMap preorder := by
  induction nodes with
  | nil => rfl
  | cons node rest ih => rw [preorderAll, ih, List.flatMap_cons]

theorem preorder_eq (node : Node) : node.preorder = node :: node.children.flatMap preorder := by
  cases node
  rw [preorder, preorderAll_eq]

/-! ## Texts -/

/-- The text of a text node, unless it is blank. -/
def ownTexts (node : Node) : List String :=
  if node.isText ∧ node.text ≠ "" then [node.text] else []

/-- The texts that are written on a design. -/
def texts (node : Node) : List String := node.preorder.flatMap ownTexts

theorem texts_eq (node : Node) : node.texts = node.ownTexts ++ node.children.flatMap texts := by
  rw [texts, preorder_eq, List.flatMap_cons, List.flatMap_assoc]
  rfl

theorem texts_leaf {node : Node} (hLeaf : node.children = []) : node.texts = node.ownTexts := by
  rw [texts_eq, hLeaf, List.flatMap_nil, List.append_nil]

/-! ## Bare designs -/

/-- Whether texts and shapes hold no nodes. -/
def Bare (node : Node) : Prop :=
  ∀ x ∈ node.preorder, x.isText = true ∨ x.type.isShape = true → x.children = []

/-- A design is bare when its root obeys the rule and its children are bare. -/
theorem bare_iff {node : Node} :
    node.Bare ↔ (node.isText = true ∨ node.type.isShape = true → node.children = []) ∧
      ∀ child ∈ node.children, child.Bare := by
  unfold Bare
  rw [preorder_eq, List.forall_mem_cons]
  refine and_congr_right fun _ => ⟨fun h child hChild x hMem => ?_, fun h x hMem => ?_⟩
  · exact h x (List.mem_flatMap.2 ⟨child, hChild, hMem⟩)
  · obtain ⟨child, hChild, hInside⟩ := List.mem_flatMap.1 hMem
    exact h child hChild x hInside

theorem isText_eq_false_of_isShape {node : Node} (hShape : node.type.isShape = true) :
    node.isText = false := by
  rw [isText, beq_eq_false_iff_ne]
  intro hText
  rw [hText] at hShape
  cases hShape

/-- On a text is written what it says. -/
theorem Bare.texts_text {node : Node} (hBare : node.Bare) (hText : node.isText = true) :
    node.texts = node.ownTexts :=
  texts_leaf ((bare_iff.1 hBare).1 (.inl hText))

end Pagewright.Design.Node
