import Pagewright.Proofs.Layout.Tree

/-!
# The nodes and the texts of a layout

`Node.preorder` lists the nodes of a layout at every depth, each before the
nodes inside it. `Node.texts` lists what a reader can read: headings and texts,
the labels of buttons and links, and the placeholders of inputs.

## Main results

* `mem_preorder_section`, `mem_preorder_container`, `mem_preorder_columns` — a
  node of a wrapper is the wrapper or lies in a node inside it.
* `texts_container`, `texts_columns` — a wrapper is read as what it holds.
* `texts_withStyle` — a style is not read.
-/

namespace Pagewright.Layout

/-! ## Nodes at every depth -/

mutual

/-- The nodes of a layout, each before those inside it. -/
def Node.preorder : Node → List Node
  | .section style children => .section style children :: Node.preorderAll children
  | .container style children => .container style children :: Node.preorderAll children
  | .columns style entries => .columns style entries :: Column.preorderAll entries
  | leaf => [leaf]

/-- The nodes of several layouts, one layout after the other. -/
def Node.preorderAll : List Node → List Node
  | [] => []
  | node :: rest => node.preorder ++ Node.preorderAll rest

/-- The nodes inside several columns. -/
def Column.preorderAll : List Column → List Node
  | [] => []
  | .mk _ children :: rest => Node.preorderAll children ++ Column.preorderAll rest

end

theorem Node.preorderAll_eq (nodes : List Node) :
    Node.preorderAll nodes = nodes.flatMap Node.preorder := by
  induction nodes with
  | nil => rfl
  | cons node rest ih => rw [Node.preorderAll, ih, List.flatMap_cons]

theorem Column.preorderAll_eq (entries : List Column) :
    Column.preorderAll entries = entries.flatMap fun column =>
      column.children.flatMap Node.preorder := by
  induction entries with
  | nil => rfl
  | cons column rest ih =>
    cases column with
    | mk style children =>
      rw [Column.preorderAll, ih, Node.preorderAll_eq, List.flatMap_cons]
      rfl

namespace Node

theorem mem_preorder_self (node : Node) : node ∈ node.preorder := by
  cases node <;> exact List.mem_cons_self

theorem mem_preorder_section {style : Option Style} {children : List Node} {x : Node} :
    x ∈ (Node.section style children).preorder ↔
      x = .section style children ∨ ∃ child ∈ children, x ∈ child.preorder := by
  rw [preorder, preorderAll_eq, List.mem_cons, List.mem_flatMap]

theorem mem_preorder_container {style : Option Style} {children : List Node} {x : Node} :
    x ∈ (Node.container style children).preorder ↔
      x = .container style children ∨ ∃ child ∈ children, x ∈ child.preorder := by
  rw [preorder, preorderAll_eq, List.mem_cons, List.mem_flatMap]

theorem mem_preorder_columns {style : Option Style} {entries : List Column} {x : Node} :
    x ∈ (Node.columns style entries).preorder ↔
      x = .columns style entries ∨
        ∃ column ∈ entries, ∃ child ∈ column.children, x ∈ child.preorder := by
  rw [preorder, Column.preorderAll_eq, List.mem_cons, List.mem_flatMap]
  simp only [List.mem_flatMap]

theorem preorder_leaf {leaf : Node} (hLeaf : leaf.isWrapper = false) :
    leaf.preorder = [leaf] := by
  cases leaf with
  | «section» | container | columns => simp [isWrapper] at hLeaf
  | heading | text | image | button | input | nav | unknown => rfl

/-! ## Texts -/

/-- What is read on a leaf. -/
def ownTexts : Node → List String
  | .heading content _ _ | .text content _ => [content]
  | .button label _ _ => [label]
  | .input placeholder _ => [placeholder]
  | .nav _ items => items.map NavItem.label
  | _ => []

/-- What is read on a layout, in document order. -/
def texts (node : Node) : List String := node.leaves.flatMap ownTexts

theorem texts_section (style : Option Style) (children : List Node) :
    (Node.section style children).texts = children.flatMap texts := by
  rw [texts, leaves, allLeaves_eq, List.flatMap_assoc]
  rfl

theorem texts_container (style : Option Style) (children : List Node) :
    (Node.container style children).texts = children.flatMap texts := by
  rw [texts, leaves, allLeaves_eq, List.flatMap_assoc]
  rfl

theorem texts_columns (style : Option Style) (entries : List Column) :
    (Node.columns style entries).texts =
      entries.flatMap fun column => column.children.flatMap texts := by
  rw [texts, leaves, Column.allLeaves_eq, List.flatMap_assoc]
  exact List.flatMap_congr fun column _ => List.flatMap_assoc

theorem texts_leaf {leaf : Node} (hLeaf : leaf.isWrapper = false) :
    leaf.texts = leaf.ownTexts := by
  cases leaf with
  | «section» | container | columns => simp [isWrapper] at hLeaf
  | heading | text | image | button | input | nav | unknown =>
    exact List.flatMap_singleton ownTexts _

/-- A style is not read. -/
theorem texts_withStyle (style : Option Style) (node : Node) :
    (node.withStyle style).texts = node.texts := by
  cases node <;> rfl

end Node

end Pagewright.Layout
