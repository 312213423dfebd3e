import Pagewright.Proofs.Classify.Builders
import Pagewright.Proofs.Design.Tree

/-!
# Classified layouts are well-formed

A classification leaves out whatever shows nothing, and wraps only what is
left. So every node of a classified layout has content: a container holds
something, a row has columns with one node each, a bar has links. A heading is
of one of the three levels, and neither sections nor unknown nodes are made.

## Main results

* `Layout.Node.WellFormed` — the invariant, for a node and all nodes inside it.
* `wellFormed_build?`, `wellFormed_arrange?` — each way to put children together
  keeps it.
* `wellFormed_of_classify` — it holds of every classified layout.
-/

namespace Pagewright.Layout.Node

/-- The shape of one node of a classified layout. -/
def Sound : Node → Prop
  | .section .. | .unknown .. => False
  | .container _ children => children ≠ []
  | .columns _ entries => entries ≠ [] ∧ ∀ column ∈ entries, column.children.length = 1
  | .heading _ level _ => level = 1 ∨ level = 2 ∨ level = 3
  | .nav _ items => items ≠ []
  | .text .. | .image .. | .button .. | .input .. => True

/-- Every node shows something and has the shape of a classified one. -/
def WellFormed (node : Node) : Prop := ∀ x ∈ node.preorder, x.hasContent = true ∧ x.Sound

theorem WellFormed.hasContent {node : Node} (hNode : node.WellFormed) :
    node.hasContent = true :=
  (hNode node (mem_preorder_self node)).1

theorem wellFormed_leaf {leaf : Node} (hLeaf : leaf.isWrapper = false)
    (hContent : leaf.hasContent = true) (hSound : leaf.Sound) : leaf.WellFormed := by
  intro x hMem
  rw [preorder_leaf hLeaf, List.mem_singleton] at hMem
  rw [hMem]
  exact ⟨hContent, hSound⟩

theorem anyContent_of_wellFormed {nodes : List Node} (hNodes : nodes ≠ [])
    (hAll : ∀ node ∈ nodes, node.WellFormed) : anyContent nodes = true := by
  obtain ⟨node, hMem⟩ := List.exists_mem_of_ne_nil nodes hNodes
  exact anyContent_iff.2 ⟨node, hMem, (hAll node hMem).hasContent⟩

theorem wellFormed_container {style : Option Style} {children : List Node}
    (hChildren : children ≠ []) (hAll : ∀ child ∈ children, child.WellFormed) :
    (Node.container style children).WellFormed := by
  intro x hMem
  rcases mem_preorder_container.1 hMem with rfl | ⟨child, hChild, hInside⟩
  · exact ⟨anyContent_of_wellFormed hChildren hAll, hChildren⟩
  · exact hAll child hChild x hInside

theorem WellFormed.child_container {style : Option Style} {children : List Node}
    (hNode : (Node.container style children).WellFormed) :
    ∀ child ∈ children, child.WellFormed :=
  fun child hChild x hMem => hNode x (mem_preorder_container.2 (.inr ⟨child, hChild, hMem⟩))

/-- A row around nodes, each in a column of its own. -/
theorem wellFormed_columns {style : Option Style} {entries : List Column} {nodes : List Node}
    (hEntries : entries ≠ []) (hSingle : entries.map Column.children = nodes.map ([·]))
    (hAll : ∀ node ∈ nodes, node.WellFormed) : (Node.columns style entries).WellFormed := by
  have hColumn : ∀ column ∈ entries, ∃ node, column.children = [node] ∧ node.WellFormed := by
    intro column hMem
    have hChildren : column.children ∈ nodes.map ([·]) :=
      hSingle ▸ List.mem_map_of_mem hMem
    obtain ⟨node, hNode, hEq⟩ := List.mem_map.1 hChildren
    exact ⟨node, hEq.symm, hAll node hNode⟩
  intro x hMem
  rcases mem_preorder_columns.1 hMem with rfl | ⟨column, hIn, child, hChild, hInside⟩
  · refine ⟨?_, hEntries, fun column hIn => ?_⟩
    · obtain ⟨column, hIn⟩ := List.exists_mem_of_ne_nil entries hEntries
      obtain ⟨node, hChildren, hNode⟩ := hColumn column hIn
      refine Column.anyContent_iff.2 ⟨column, hIn, ?_⟩
      rw [Column.hasContent_eq, hChildren]
      exact anyContent_iff.2 ⟨node, List.mem_singleton_self node, hNode.hasContent⟩
    · obtain ⟨node, hChildren, -⟩ := hColumn column hIn
      rw [hChildren, List.length_singleton]
  · obtain ⟨node, hChildren, hNode⟩ := hColumn column hIn
    rw [hChildren, List.mem_singleton] at hChild
    rw [hChild] at hInside
    exact hNode x hInside

/-- A style does not matter. -/
theorem WellFormed.withStyle {node : Node} (hNode : node.WellFormed) (style : Option Style) :
    (node.withStyle style).WellFormed := by
  -- The root keeps its content and its shape, and the nodes inside it are the same.
  have hRoot := hNode node (mem_preorder_self node)
  cases node with
  | «section» | unknown => exact hRoot.2.elim
  | container => exact wellFormed_container hRoot.2 hNode.child_container
  | columns own entries =>
    intro x hMem
    rcases mem_preorder_columns.1 hMem with rfl | hInside
    · exact hRoot
    · exact hNode x (mem_preorder_columns.2 (.inr hInside))
  | heading | text | image | button | input | nav => exact wellFormed_leaf rfl hRoot.1 hRoot.2

end Pagewright.Layout.Node

namespace Pagewright.Classify

open Design (Thresholds)
open Layout (Column Style)

variable {thresholds : Thresholds} {node : Design.Node} {members : List Member}
  {layout : Layout.Node}

/-! ## Leaves -/

/-- The text of a node is blank only if nothing is left of it. -/
theorem isBlankText_text (hText : node.text ≠ "") : Text.isBlankText node.text = false := by
  rw [Design.Node.text] at hText ⊢
  cases hCharacters : node.characters with
  | none =>
    rw [hCharacters] at hText
    exact absurd rfl hText
  | some characters =>
    rw [hCharacters] at hText
    show Text.isBlankText (Text.trimmed characters) = false
    rw [Text.isBlankText_trimmed]
    exact Bool.eq_false_iff.2 fun hBlank => hText (Text.trimmed_eq_empty_iff.2 hBlank)

theorem level_of_headingLevel? {fontSize : Float} {level : UInt8}
    (hLevel : thresholds.headingLevel? fontSize = some level) :
    level = 1 ∨ level = 2 ∨ level = 3 := by
  obtain ⟨index, hIndex, rfl⟩ := Option.map_eq_some_iff.1 hLevel
  obtain ⟨hLt, -⟩ := List.findIdx?_eq_some_iff_getElem.1 hIndex
  match index, hLt with
  | 0, _ => exact .inl rfl
  | 1, _ => exact .inr (.inl rfl)
  | 2, _ => exact .inr (.inr rfl)

theorem wellFormed_text? (hText : text? thresholds node = some layout) :
    layout.WellFormed := by
  unfold text? at hText
  split at hText
  · cases hText
  · rename_i hSaid
    have hContent : (!Text.isBlankText node.text) = true := by
      rw [isBlankText_text hSaid]
      rfl
    simp only at hText
    split at hText
    · rename_i level hLevel
      rw [← Option.some.inj hText]
      exact Layout.Node.wellFormed_leaf rfl hContent (level_of_headingLevel? hLevel)
    · rw [← Option.some.inj hText]
      exact Layout.Node.wellFormed_leaf rfl hContent trivial

theorem placeholderUrl_ne_empty (thresholds : Thresholds) (width height : Nat)
    (label : String) : placeholderUrl thresholds width height label ≠ "" := by
  unfold placeholderUrl
  intro hEmpty
  have hSlash := congrArg (fun s => '/' ∈ s.toList) hEmpty
  simp at hSlash

theorem wellFormed_image? (hImage : image? thresholds node = some layout) :
    layout.WellFormed := by
  unfold image? at hImage
  split at hImage
  · rw [← Option.some.inj hImage]
    exact Layout.Node.wellFormed_leaf rfl (bne_iff_ne.2 (placeholderUrl_ne_empty _ _ _ _)) trivial
  · cases hImage

/-! ## Arrangements -/

/-- The children that show something are well-formed. -/
def Settled (members : List Member) : Prop :=
  ∀ member ∈ members, ∀ layout, member.layout = some layout → layout.WellFormed

theorem Settled.of_subset {others : List Member} (hMembers : Settled members)
    (hSubset : ∀ member ∈ others, member ∈ members) : Settled others :=
  fun member hMem => hMembers member (hSubset member hMem)

theorem Settled.shown (hMembers : Settled members) :
    ∀ layout ∈ shown members, layout.WellFormed := by
  intro layout hMem
  obtain ⟨member, hMember, hLayout⟩ := List.mem_filterMap.1 hMem
  exact hMembers member hMember layout hLayout

theorem wellFormed_gather_container {style : Option Style} {content : List Layout.Node}
    (hContent : ∀ child ∈ content, child.WellFormed)
    (hGather : gather (.container style) content = some layout) : layout.WellFormed := by
  obtain ⟨hNonempty, rfl⟩ := gather_eq_some.1 hGather
  exact Layout.Node.wellFormed_container hNonempty hContent

theorem wellFormed_gather_columns {style : Option Style} {entries : List Column}
    {content : List Layout.Node} (hSingle : entries.map Column.children = content.map ([·]))
    (hContent : ∀ child ∈ content, child.WellFormed)
    (hGather : gather (.columns style) entries = some layout) : layout.WellFormed := by
  obtain ⟨hNonempty, rfl⟩ := gather_eq_some.1 hGather
  exact Layout.Node.wellFormed_columns hNonempty hSingle hContent

theorem Settled.stackContent (hMembers : Settled members) :
    ∀ layout ∈ stackContent members, layout.WellFormed := by
  intro layout hMem
  obtain ⟨member, hMember, hSized⟩ := List.mem_filterMap.1 hMem
  obtain ⟨content, hContent, rfl⟩ := Option.map_eq_some_iff.1 hSized
  obtain ⟨style, hStyle⟩ := withSizing_eq_withStyle (stackSizing member.node) content
  rw [hStyle]
  exact (hMembers member hMember content hContent).withStyle style

theorem wellFormed_visualRow? {row : List Member} (hRow : Settled row)
    (hLayout : visualRow? row = some layout) : layout.WellFormed := by
  rcases visualRow?_eq row with ⟨single, hEq, hSingle⟩ | hEq
  · rw [hSingle] at hLayout
    exact hRow single (hEq ▸ List.mem_singleton_self single) layout hLayout
  · rw [hEq] at hLayout
    refine wellFormed_gather_columns (by rw [List.map_map]; rfl) (Settled.shown ?_) hLayout
    exact hRow.of_subset fun member => (leftToRight_perm row).mem_iff.1

/-- An arrangement of well-formed layouts is well-formed. -/
theorem wellFormed_arrange? (hMembers : Settled members)
    (hArrange : arrange? thresholds node members = some layout) : layout.WellFormed := by
  have hContent : Settled (absorbBackground thresholds node members).1 :=
    hMembers.of_subset fun _ => mem_of_mem_content
  unfold arrange? at hArrange
  split at hArrange
  · obtain ⟨style, entries, hRow, hSingle⟩ := row?_eq thresholds node members
    rw [hRow] at hArrange
    exact wellFormed_gather_columns hSingle hContent.shown hArrange
  · obtain ⟨style, hStack⟩ := stack?_eq thresholds node members
    rw [hStack] at hArrange
    exact wellFormed_gather_container hContent.stackContent hArrange
  · obtain ⟨style, hScatter⟩ := scatter?_eq thresholds node members
    rw [hScatter] at hArrange
    refine wellFormed_gather_container (fun child hChild => ?_) hArrange
    obtain ⟨row, hRow, hLayout⟩ := List.mem_filterMap.1 hChild
    exact wellFormed_visualRow? (hContent.of_subset fun _ => mem_of_mem_row hRow) hLayout

/-! ## Familiar shapes -/

theorem wellFormed_nav? (hNav : nav? node members = some layout) : layout.WellFormed := by
  obtain ⟨style, hEq⟩ := nav?_eq node members
  rw [hEq] at hNav
  obtain ⟨hItems, rfl⟩ := gather_eq_some.1 hNav
  refine Layout.Node.wellFormed_leaf rfl (List.any_eq_true.2 ?_) hItems
  obtain ⟨item, hItem⟩ := List.exists_mem_of_ne_nil _ hItems
  obtain ⟨text, hText, rfl⟩ := List.mem_map.1 hItem
  exact ⟨navItem text, hItem, (List.mem_filter.1 hText).2⟩

theorem wellFormed_build? (hMembers : Settled members) {rule : Rule}
    (hBuilt : rule.build? thresholds node members = some layout) : layout.WellFormed := by
  cases rule with
  | card =>
    obtain ⟨style, others, background, -, hPerm, hLength, rfl⟩ := card?_eq_some hBuilt
    refine Layout.Node.wellFormed_container ?_ (Settled.shown ?_)
    · exact List.ne_nil_of_length_pos (Nat.lt_of_lt_of_le Nat.zero_lt_two hLength)
    · exact hMembers.of_subset fun member hMem =>
        hPerm.mem_iff.1 (List.mem_cons_of_mem background hMem)
  | input =>
    obtain ⟨control, -, rfl⟩ := Option.map_eq_some_iff.1 hBuilt
    exact Layout.Node.wellFormed_leaf rfl rfl trivial
  | button =>
    obtain ⟨control, -, rfl⟩ := Option.map_eq_some_iff.1 hBuilt
    exact Layout.Node.wellFormed_leaf rfl rfl trivial
  | nav => exact wellFormed_nav? hBuilt

/-! ## Whole designs -/

/-- Every classified layout is well-formed. -/
theorem wellFormed_of_classify (thresholds : Thresholds) (node : Design.Node) :
    ∀ layout, classify thresholds node = some layout → layout.WellFormed := by
  induction node using Design.Node.induct with
  | step node ih =>
    intro layout hLayout
    have hMembers : Settled (membersOf thresholds node) := by
      intro member hMem
      obtain ⟨child, hChild, rfl⟩ := exists_child_of_mem_membersOf hMem
      exact ih child hChild
    rcases classify_cases hLayout with ⟨-, hText⟩ | hImage | ⟨rule, -, hBuilt⟩ | hArrange
    · exact wellFormed_text? hText
    · exact wellFormed_image? hImage
    · exact wellFormed_build? hMembers hBuilt
    · exact wellFormed_arrange? hMembers hArrange

end Pagewright.Classify
