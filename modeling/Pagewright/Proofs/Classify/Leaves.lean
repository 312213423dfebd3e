import Pagewright.Proofs.Classify.Builders
import Pagewright.Proofs.Design.Tree

/-!
# Where leaves come from

Wrappers of a classified layout are put together from what the children of a
node read as. A leaf is made from one node of the design; on the way up nothing
changes about it but its style, when a stack sizes its children. So what is to
be known of the leaves of a layout is known as soon as it is known of nodes that
read as a leaf, and sizing keeps it.

## Main results

* `heldBy_arrange?`, `heldBy_card?` — the leaves of a wrapper are those of children.
* `leaves_of_classify` — what holds of the leaves that nodes read as holds of all
  leaves of a classified design.
-/

namespace Pagewright.Layout

namespace Node

theorem mem_leaves_container {style : Option Style} {children : List Node} {x : Node} :
    x ∈ (Node.container style children).leaves ↔ ∃ child ∈ children, x ∈ child.leaves := by
  rw [leaves, allLeaves_eq, List.mem_flatMap]

/-- The leaves of columns with one node each are those of the nodes. -/
theorem mem_leaves_columns {style : Option Style} {entries : List Column} {nodes : List Node}
    (hSingle : entries.map Column.children = nodes.map ([·])) {x : Node} :
    x ∈ (Node.columns style entries).leaves ↔ ∃ node ∈ nodes, x ∈ node.leaves := by
  have hFlat : (entries.flatMap fun column => column.children.flatMap leaves) =
      nodes.flatMap leaves := by
    rw [← List.flatMap_map Column.children, hSingle, List.flatMap_map]
    exact List.flatMap_congr fun node _ => List.flatMap_singleton leaves node
  rw [leaves, Column.allLeaves_eq, hFlat, List.mem_flatMap]

/-- The style of a wrapper is not that of its leaves. -/
theorem leaves_withStyle (style : Option Style) {node : Node} (hWrapper : node.isWrapper = true) :
    (node.withStyle style).leaves = node.leaves := by
  cases node with
  | «section» | container | columns => rfl
  | heading | text | image | button | input | nav | unknown => cases hWrapper

theorem isWrapper_withStyle (style : Option Style) (node : Node) :
    (node.withStyle style).isWrapper = node.isWrapper := by
  cases node <;> rfl

end Node

end Pagewright.Layout

namespace Pagewright.Classify

open Design (Thresholds)
open Layout (Column Style)

variable {thresholds : Thresholds} {node : Design.Node} {members : List Member}
  {layout leaf : Layout.Node}

/-! ## Leaves of wrappers -/

/-- Whether a leaf is one of what children read as, or one of these in another size. -/
def HeldBy (members : List Member) (leaf : Layout.Node) : Prop :=
  ∃ member ∈ members, ∃ made, member.layout = some made ∧ ∃ inner ∈ made.leaves,
    leaf = inner ∨ ∃ child, leaf = withSizing (stackSizing child) inner

theorem HeldBy.of_subset {others : List Member} (hHeld : HeldBy others leaf)
    (hSubset : ∀ member ∈ others, member ∈ members) : HeldBy members leaf := by
  obtain ⟨member, hMem, hMade⟩ := hHeld
  exact ⟨member, hSubset member hMem, hMade⟩

theorem heldBy_shown (hLayout : layout ∈ shown members) (hLeaf : leaf ∈ layout.leaves) :
    HeldBy members leaf := by
  obtain ⟨member, hMember, hMade⟩ := List.mem_filterMap.1 hLayout
  exact ⟨member, hMember, layout, hMade, leaf, hLeaf, .inl rfl⟩

/-- A stack sizes the leaves among its children, and not those further inside. -/
theorem heldBy_stackContent (hLayout : layout ∈ stackContent members)
    (hLeaf : leaf ∈ layout.leaves) : HeldBy members leaf := by
  obtain ⟨member, hMember, hSized⟩ := List.mem_filterMap.1 hLayout
  obtain ⟨made, hMade, rfl⟩ := Option.map_eq_some_iff.1 hSized
  obtain ⟨style, hStyle⟩ := withSizing_eq_withStyle (stackSizing member.node) made
  refine ⟨member, hMember, made, hMade, ?_⟩
  cases hWrapper : made.isWrapper with
  | true =>
    rw [hStyle, Layout.Node.leaves_withStyle style hWrapper] at hLeaf
    exact ⟨leaf, hLeaf, .inl rfl⟩
  | false =>
    have hSizedLeaf : (withSizing (stackSizing member.node) made).isWrapper = false := by
      rw [hStyle, Layout.Node.isWrapper_withStyle, hWrapper]
    rw [Layout.Node.leaves_leaf hSizedLeaf, List.mem_singleton] at hLeaf
    rw [Layout.Node.leaves_leaf hWrapper]
    exact ⟨made, List.mem_singleton_self made, .inr ⟨member.node, hLeaf⟩⟩

theorem heldBy_visualRow? {row : List Member} (hRow : visualRow? row = some layout)
    (hLeaf : leaf ∈ layout.leaves) : HeldBy row leaf := by
  rcases visualRow?_eq row with ⟨single, hEq, hSingle⟩ | hEq
  · rw [hSingle] at hRow
    exact ⟨single, hEq ▸ List.mem_singleton_self single, layout, hRow, leaf, hLeaf, .inl rfl⟩
  · rw [hEq] at hRow
    obtain ⟨-, rfl⟩ := gather_eq_some.1 hRow
    obtain ⟨part, hPart, hInside⟩ :=
      (Layout.Node.mem_leaves_columns (by rw [List.map_map]; rfl)).1 hLeaf
    exact (heldBy_shown hPart hInside).of_subset fun member => (leftToRight_perm row).mem_iff.1

/-- The leaves of an arrangement are those of the children. -/
theorem heldBy_arrange? (hArrange : arrange? thresholds node members = some layout)
    (hLeaf : leaf ∈ layout.leaves) : HeldBy members leaf := by
  have hContent : ∀ member ∈ (absorbBackground thresholds node members).1, member ∈ members :=
    fun _ => mem_of_mem_content
  unfold arrange? at hArrange
  split at hArrange
  · obtain ⟨style, entries, hRow, hSingle⟩ := row?_eq thresholds node members
    rw [hRow] at hArrange
    obtain ⟨-, rfl⟩ := gather_eq_some.1 hArrange
    obtain ⟨part, hPart, hInside⟩ := (Layout.Node.mem_leaves_columns hSingle).1 hLeaf
    exact (heldBy_shown hPart hInside).of_subset hContent
  · obtain ⟨style, hStack⟩ := stack?_eq thresholds node members
    rw [hStack] at hArrange
    obtain ⟨-, rfl⟩ := gather_eq_some.1 hArrange
    obtain ⟨part, hPart, hInside⟩ := Layout.Node.mem_leaves_container.1 hLeaf
    exact (heldBy_stackContent hPart hInside).of_subset hContent
  · obtain ⟨style, hScatter⟩ := scatter?_eq thresholds node members
    rw [hScatter] at hArrange
    obtain ⟨-, rfl⟩ := gather_eq_some.1 hArrange
    obtain ⟨part, hPart, hInside⟩ := Layout.Node.mem_leaves_container.1 hLeaf
    obtain ⟨row, hRow, hLayout⟩ := List.mem_filterMap.1 hPart
    refine (heldBy_visualRow? hLayout hInside).of_subset fun member hMem => hContent member ?_
    exact mem_of_mem_row hRow hMem

theorem isWrapper_arrange? (hArrange : arrange? thresholds node members = some layout) :
    layout.isWrapper = true := by
  unfold arrange? at hArrange
  split at hArrange
  · obtain ⟨style, entries, hRow, -⟩ := row?_eq thresholds node members
    rw [hRow] at hArrange
    exact (gather_eq_some.1 hArrange).2 ▸ rfl
  · obtain ⟨style, hStack⟩ := stack?_eq thresholds node members
    rw [hStack] at hArrange
    exact (gather_eq_some.1 hArrange).2 ▸ rfl
  · obtain ⟨style, hScatter⟩ := scatter?_eq thresholds node members
    rw [hScatter] at hArrange
    exact (gather_eq_some.1 hArrange).2 ▸ rfl

/-- The leaves of a card are those of the children. -/
theorem heldBy_card? (hCard : card? thresholds node members = some layout)
    (hLeaf : leaf ∈ layout.leaves) : HeldBy members leaf := by
  obtain ⟨style, others, background, -, hPerm, -, rfl⟩ := card?_eq_some hCard
  obtain ⟨part, hPart, hInside⟩ := Layout.Node.mem_leaves_container.1 hLeaf
  refine (heldBy_shown hPart hInside).of_subset fun member hMem => ?_
  exact hPerm.mem_iff.1 (List.mem_cons_of_mem background hMem)

/-! ## Whole designs -/

theorem isWrapper_text? (hText : text? thresholds node = some layout) :
    layout.isWrapper = false := by
  unfold text? at hText
  split at hText
  · cases hText
  · simp only at hText
    split at hText <;> exact Option.some.inj hText ▸ rfl

theorem isWrapper_image? (hImage : image? thresholds node = some layout) :
    layout.isWrapper = false := by
  unfold image? at hImage
  split at hImage
  · exact Option.some.inj hImage ▸ rfl
  · cases hImage

/-- A wrapper that a node reads as holds the leaves of what its children read as. -/
theorem heldBy_of_classify (hLayout : classify thresholds node = some layout)
    (hWrapper : layout.isWrapper = true) (hLeaf : leaf ∈ layout.leaves) :
    HeldBy (membersOf thresholds node) leaf := by
  rcases classify_cases hLayout with ⟨-, hText⟩ | hImage | ⟨rule, -, hBuilt⟩ | hArrange
  · rw [isWrapper_text? hText] at hWrapper
    cases hWrapper
  · rw [isWrapper_image? hImage] at hWrapper
    cases hWrapper
  · cases rule with
    | card => exact heldBy_card? hBuilt hLeaf
    | input | button =>
      obtain ⟨control, -, rfl⟩ := Option.map_eq_some_iff.1 hBuilt
      cases hWrapper
    | nav =>
      obtain ⟨style, hNav⟩ := nav?_eq node (membersOf thresholds node)
      rw [Rule.build?, hNav] at hBuilt
      obtain ⟨-, rfl⟩ := gather_eq_some.1 hBuilt
      cases hWrapper
  · exact heldBy_arrange? hArrange hLeaf

/-- What holds of every leaf that a node reads as, and still when the leaf is sized, holds
of each leaf of a classified design for some node of the design. -/
theorem leaves_of_classify {holds : Design.Node → Layout.Node → Prop}
    (hOwn : ∀ source leaf, classify thresholds source = some leaf → leaf.isWrapper = false →
      holds source leaf)
    (hSized : ∀ source leaf child, holds source leaf →
      holds source (withSizing (stackSizing child) leaf))
    (node : Design.Node) :
    ∀ layout, classify thresholds node = some layout → ∀ leaf ∈ layout.leaves,
      ∃ source ∈ node.preorder, holds source leaf := by
  induction node using Design.Node.induct with
  | step node ih =>
    intro layout hLayout leaf hLeaf
    rw [Design.Node.preorder_eq]
    cases hWrapper : layout.isWrapper with
    | false =>
      rw [Layout.Node.leaves_leaf hWrapper, List.mem_singleton] at hLeaf
      exact ⟨node, List.mem_cons_self, hLeaf ▸ hOwn node layout hLayout hWrapper⟩
    | true =>
      obtain ⟨member, hMember, made, hMade, inner, hInner, hFrom⟩ :=
        heldBy_of_classify hLayout hWrapper hLeaf
      obtain ⟨child, hChild, rfl⟩ := exists_child_of_mem_membersOf hMember
      obtain ⟨source, hSource, hHolds⟩ := ih child hChild made hMade inner hInner
      refine ⟨source, List.mem_cons_of_mem node (List.mem_flatMap.2 ⟨child, hChild, hSource⟩), ?_⟩
      rcases hFrom with rfl | ⟨sizedBy, rfl⟩
      · exact hHolds
      · exact hSized source inner sizedBy hHolds

end Pagewright.Classify
