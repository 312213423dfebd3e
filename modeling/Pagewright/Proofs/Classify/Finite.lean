import Pagewright.Proofs.Classify.WellFormed
import Pagewright.Proofs.Design.Reader
import Pagewright.Proofs.Layout.Finite

/-!
# The numbers of classified layouts are finite

A style takes over numbers of a node: its spacing and padding, the size of its
box, its weight and its typography. It adds the constants of growing and
hugging columns, and one quotient, the part of a row that a column takes up,
which is kept only where it is a number of percent. So from finite numbers no
other ones arise, whatever the thresholds are.

## Main results

* `finite_textStyle`, `finite_layoutStyle`, `finite_columnSizing` — styles of nodes.
* `finite_build?`, `finite_arrange?` — each way to put children together.
* `finite_of_classify` — a design of finite numbers reads as a layout of them.
-/

namespace Pagewright.Classify

open Design (Thresholds)
open Layout (Column Style)

variable {thresholds : Thresholds} {node : Design.Node} {members : List Member}
  {layout : Layout.Node}

/-! ## Styles of nodes -/

/-- Looks have no numbers. -/
theorem finite_visualStyle (node : Design.Node) : (Design.visualStyle node).Finite := by
  rw [Style.finite_iff]
  simp [Style.numberFields, Design.visualStyle]

theorem finite_filter {x : Option Float} {p : Float → Bool}
    (hNumber : ∀ v ∈ x, v.isFinite = true) : ∀ v ∈ x.filter p, v.isFinite = true :=
  fun v hMem => hNumber v (Option.filter_eq_some_iff.1 hMem).1

theorem finite_getD {x : Option Float} (hNumber : ∀ v ∈ x, v.isFinite = true) :
    (x.getD 0.0).isFinite = true := by
  cases x with
  | none => rfl
  | some v => exact hNumber v rfl

theorem finite_textFontSize (hNode : node.Finite) : (Design.textFontSize node).isFinite = true := by
  refine finite_getD fun v hMem => ?_
  rcases Option.or_eq_some_iff.1 ((Option.orElse_eq_or).symm.trans hMem) with
    hOwn | ⟨-, hOverride⟩
  · exact finite_filter hNode.fontSize v hOwn
  · exact hNode.overrides v (List.mem_of_find?_eq_some hOverride)

theorem finite_shownFontSize (hNode : node.Finite) :
    ∀ size ∈ Design.shownFontSize node, size.isFinite = true := by
  intro size hMem
  unfold Design.shownFontSize at hMem
  split at hMem
  · rename_i own hOwn
    exact Option.some.inj hMem ▸ hNode.fontSize own hOwn
  · simp only at hMem
    split at hMem
    · exact Option.some.inj hMem ▸ finite_textFontSize hNode
    · cases hMem

theorem finite_textStyle (hNode : node.Finite) : (Design.textStyle node).Finite := by
  have hPart (part : Design.TypeStyle → Option Float) (hNone : part {} = none) :
      part (node.typeStyle.getD {}) = node.typeStyle.bind part := by
    cases node.typeStyle with
    | none => exact hNone
    | some => rfl
  have hSize := finite_shownFontSize hNode
  have hSpacing := hNode.letterSpacing
  have hHeight := hNode.lineHeight
  rw [← hPart _ rfl] at hSpacing hHeight
  rw [Style.finite_iff]
  simpa [Style.numberFields, Design.textStyle] using ⟨hSize, hSpacing, hHeight⟩

/-- A padding takes the edges that are given, and zero for the others. -/
theorem finite_paddingOf (hNode : node.Finite) : ∀ padding ∈ Design.paddingOf node.padding,
    padding.top.isFinite = true ∧ padding.right.isFinite = true ∧
      padding.bottom.isFinite = true ∧ padding.left.isFinite = true := by
  intro padding hMem
  have hEdges := hNode.padding
  simp only [List.forall_mem_cons] at hEdges
  obtain ⟨hTop, hRight, hBottom, hLeft, -⟩ := hEdges
  unfold Design.paddingOf at hMem
  split at hMem
  · rw [← Option.some.inj hMem]
    exact ⟨finite_getD hTop, finite_getD hRight, finite_getD hBottom, finite_getD hLeft⟩
  · cases hMem

theorem finite_layoutStyle (hNode : node.Finite) (direction : Layout.Direction) :
    (Design.layoutStyle node direction).Finite := by
  have hPadding := finite_paddingOf hNode
  have hGap : ∀ x, (node.primaryAxisAlign.bind Layout.Align.parse?).any
      Layout.Align.isDistributing = false → node.itemSpacing = some x → x.isFinite = true :=
    fun x _ => hNode.gap x
  rw [Style.finite_iff]
  simpa [Style.numberFields, Design.layoutStyle] using
    ⟨hGap, fun padding hMem => (hPadding padding hMem).1,
      fun padding hMem => (hPadding padding hMem).2.1,
      fun padding hMem => (hPadding padding hMem).2.2.1,
      fun padding hMem => (hPadding padding hMem).2.2.2⟩

/-! ## Sizes of columns -/

theorem isFinite_one : (1.0 : Float).isFinite = true := rfl

theorem finite_growing {weight : Float} (hWeight : weight.isFinite = true) :
    (growing weight).Finite := by
  rw [Style.finite_iff]
  simp [Style.numberFields, growing, hWeight, isFinite_one, Design.isFinite_zero]

theorem finite_hugging : hugging.Finite := by
  rw [Style.finite_iff]
  simp [Style.numberFields, hugging, isFinite_one, Design.isFinite_zero]

theorem finite_growWeight (hNode : node.Finite) :
    ∀ weight ∈ Design.growWeight node, weight.isFinite = true :=
  finite_filter hNode.grow

theorem finite_alignSelf {s : Style} (hStyle : s.Finite) (align : Option Layout.Align) :
    Style.Finite { s with alignSelf := align } := hStyle

theorem finite_stackSizing (hNode : node.Finite) : (stackSizing node).Finite := by
  unfold stackSizing
  simp only
  refine finite_alignSelf ?_ _
  split
  · rename_i weight _ hWeight
    exact finite_growing (finite_growWeight hNode _ hWeight)
  · exact finite_growing isFinite_one
  · exact finite_hugging
  · rw [Style.finite_iff]
    simp [Style.numberFields]

/-- The part of a row that a column takes up is kept only as a number of percent. -/
theorem finite_widthSizing (hNode : node.Finite) (available : Float) :
    (widthSizing node available).Finite := by
  have hWeight : ((Design.growWeight node).getD 1.0).isFinite = true := by
    cases hGrow : Design.growWeight node with
    | none => rfl
    | some weight => exact finite_growWeight hNode weight hGrow
  have hPercent : ∀ x : Float, 0.0 < x → x ≤ 100.0 → x.isFinite = true :=
    fun x => Number.isFinite_of_percent
  unfold widthSizing
  simp only
  split
  · exact finite_growing hWeight
  · split
    · exact finite_hugging
    · split
      · rw [Style.finite_iff]
        generalize node.box.width / available * 100.0 = percent
        simpa [Style.numberFields, hNode.width, Design.isFinite_zero] using
          fun x _ hLow hHigh (hEq : percent = x) => hEq ▸ hPercent percent hLow hHigh
      · split
        · rw [Style.finite_iff]
          simp [Style.numberFields, isFinite_one, Design.isFinite_zero]
        · rw [Style.finite_iff]
          simp [Style.numberFields]

/-- A least height takes the place of another one. -/
theorem finite_minHeight {s : Style} (hStyle : s.Finite) {least : Option Float}
    (hLeast : ∀ x ∈ least, x.isFinite = true) : Style.Finite { s with minHeightPx := least } := by
  rw [Style.finite_iff] at *
  intro place hPlace
  have hCases : place = least ∨ place ∈ s.numberFields := by
    simp only [Style.numberFields, List.mem_cons] at hPlace ⊢
    grind
  rcases hCases with rfl | hOld
  · exact hLeast
  · exact hStyle place hOld

theorem finite_columnSizing (hNode : node.Finite) (available : Float) :
    (columnSizing node available).Finite := by
  have hWidth := finite_widthSizing hNode available
  have hHeight : ∀ x ∈ if 0.0 < node.box.height then some node.box.height else none,
      x.isFinite = true := by
    intro x hMem
    split at hMem
    · exact Option.some.inj hMem ▸ hNode.height
    · cases hMem
  unfold columnSizing
  generalize widthSizing node available = style at hWidth
  exact finite_alignSelf (finite_minHeight hWidth hHeight) _

/-- The column of a centered label grows by constants. -/
theorem finite_centeredColumn {slot : Slot} (hStyle : slot.style.Finite) :
    ∀ own ∈ (centeredColumn slot).style, own.Finite := by
  intro own hOwn
  rw [← Option.some.inj hOwn]
  rw [Style.finite_iff] at *
  intro place hPlace
  have hCases : place = some 1.0 ∨ place = some 0.0 ∨ place = none ∨
      place ∈ slot.style.numberFields := by
    simp only [Style.numberFields, List.mem_cons] at hPlace ⊢
    grind
  rcases hCases with rfl | rfl | rfl | hOld
  · exact fun x hMem => Option.some.inj hMem ▸ isFinite_one
  · exact fun x hMem => Option.some.inj hMem ▸ Design.isFinite_zero
  · intro x hMem
    cases hMem
  · exact hStyle place hOld

/-! ## Leaves -/

theorem finite_text? (hNode : node.Finite) (hText : text? thresholds node = some layout) :
    layout.Finite := by
  have hStyle := (finite_textStyle hNode).toOption
  unfold text? at hText
  split at hText
  · cases hText
  · simp only at hText
    split at hText
    · exact Option.some.inj hText ▸ (Layout.Node.finite_leaf_iff rfl).2 hStyle
    · exact Option.some.inj hText ▸ (Layout.Node.finite_leaf_iff rfl).2 hStyle

theorem finite_image? (hImage : image? thresholds node = some layout) : layout.Finite := by
  have hStyle : Style.Finite { borderRadius := Design.radiusCss node } := by
    rw [Style.finite_iff]
    simp [Style.numberFields]
  unfold image? at hImage
  split at hImage
  · exact Option.some.inj hImage ▸ (Layout.Node.finite_leaf_iff rfl).2 hStyle.toOption
  · cases hImage

/-! ## Children -/

/-- Children of finite numbers that read as layouts of finite numbers, none of them of an
unknown kind. -/
def Measured (members : List Member) : Prop :=
  ∀ member ∈ members, member.node.Finite ∧
    ∀ layout, member.layout = some layout → layout.Finite ∧ layout.isUnknown = false

theorem Measured.of_subset {others : List Member} (hMembers : Measured members)
    (hSubset : ∀ member ∈ others, member ∈ members) : Measured others :=
  fun member hMem => hMembers member (hSubset member hMem)

theorem Measured.of_perm {others : List Member} (hMembers : Measured members)
    (hPerm : others.Perm members) : Measured others :=
  hMembers.of_subset fun _ => hPerm.mem_iff.1

theorem Measured.absorbed (thresholds : Thresholds) (node : Design.Node)
    (hMembers : Measured members) :
    Measured (absorbBackground thresholds node members).1 := by
  exact hMembers.of_subset fun _ => mem_of_mem_content

theorem Measured.shown (hMembers : Measured members) :
    ∀ layout ∈ shown members, layout.Finite := by
  intro layout hMem
  obtain ⟨member, hMember, hLayout⟩ := List.mem_filterMap.1 hMem
  exact ((hMembers member hMember).2 layout hLayout).1

theorem finite_none : ∀ own ∈ (none : Option Style), own.Finite := by
  intro own hOwn
  cases hOwn

/-- The looks of a node and of its background have no numbers. -/
theorem finite_absorbed (thresholds : Thresholds) (node : Design.Node) (members : List Member) :
    (absorbBackground thresholds node members).2.Finite := by
  unfold absorbBackground
  simp only
  split
  · exact finite_visualStyle node
  · split
    · exact (finite_visualStyle node).overlay (finite_visualStyle _)
    · exact finite_visualStyle node

theorem finite_gather_container {style : Option Style} {content : List Layout.Node}
    (hStyle : ∀ own ∈ style, own.Finite) (hContent : ∀ child ∈ content, child.Finite)
    (hGather : gather (.container style) content = some layout) : layout.Finite := by
  obtain ⟨-, rfl⟩ := gather_eq_some.1 hGather
  exact Layout.Node.finite_container_iff.2 ⟨hStyle, hContent⟩

/-! ## Arrangements -/

theorem finite_withSizing {sizing : Style} (hSizing : sizing.Finite) (hLayout : layout.Finite)
    (hKnown : layout.isUnknown = false) : (withSizing sizing layout).Finite := by
  have hOwn := hLayout.ownStyle hKnown
  rw [withSizing_eq]
  refine hLayout.withStyle hKnown fun sized hSized => ?_
  unfold sizedStyle at hSized
  split at hSized
  · exact hOwn sized hSized
  · rw [← Option.some.inj hSized]
    cases hStyle : layout.style with
    | none => exact (Style.overlay_empty sizing).symm ▸ hSizing
    | some own => exact hSizing.overlay (hOwn own hStyle)

theorem Measured.stackContent (hMembers : Measured members) :
    ∀ layout ∈ stackContent members, layout.Finite := by
  intro layout hMem
  obtain ⟨member, hMember, hSized⟩ := List.mem_filterMap.1 hMem
  obtain ⟨content, hContent, rfl⟩ := Option.map_eq_some_iff.1 hSized
  obtain ⟨hNode, hLayout⟩ := hMembers member hMember
  obtain ⟨hFinite, hKnown⟩ := hLayout content hContent
  exact finite_withSizing (finite_stackSizing hNode) hFinite hKnown

theorem finite_stack? (hNode : node.Finite) (hMembers : Measured members)
    (hStack : stack? thresholds node members = some layout) : layout.Finite := by
  have hStyle := (finite_layoutStyle hNode .column).overlay
    (finite_absorbed thresholds node members)
  have hContent := (hMembers.absorbed thresholds node).stackContent
  exact finite_gather_container hStyle.toOption hContent hStack

/-- A column of a slot has the style and the content of the slot. -/
theorem Measured.slots (hMembers : Measured members) (available : Float) :
    ∀ slot ∈ slots available members, slot.style.Finite ∧ slot.content.Finite := by
  intro slot hMem
  obtain ⟨member, hMember, hSlot⟩ := List.mem_filterMap.1 hMem
  obtain ⟨content, hContent, rfl⟩ := Option.map_eq_some_iff.1 hSlot
  obtain ⟨hNode, hLayout⟩ := hMembers member hMember
  exact ⟨finite_columnSizing hNode available, (hLayout content hContent).1⟩

/-- The columns of a row, one of which may hold a centered label. -/
theorem finite_arrangeRow (thresholds : Thresholds) (row : Design.Node) {arrangement : Style}
    {slots : List Slot} (hArrangement : arrangement.Finite)
    (hSlots : ∀ slot ∈ slots, slot.style.Finite ∧ slot.content.Finite) :
    (arrangeRow thresholds row arrangement slots).2.Finite ∧
      ∀ column ∈ (arrangeRow thresholds row arrangement slots).1,
        (∀ own ∈ column.style, own.Finite) ∧ ∀ child ∈ column.children, child.Finite := by
  have hColumn : ∀ slot ∈ slots, (∀ own ∈ slot.column.style, own.Finite) ∧
      ∀ child ∈ slot.column.children, child.Finite := fun slot hMem =>
    ⟨(hSlots slot hMem).1.toOption, List.forall_mem_singleton.2 (hSlots slot hMem).2⟩
  unfold arrangeRow
  split
  · rename_i label action
    have hLabel := hSlots label List.mem_cons_self
    have hAction := hColumn action (List.mem_cons_of_mem _ List.mem_cons_self)
    split
    · refine ⟨hArrangement, List.forall_mem_cons.2 ⟨?_, List.forall_mem_singleton.2 hAction⟩⟩
      exact ⟨finite_centeredColumn hLabel.1, List.forall_mem_singleton.2 hLabel.2⟩
    · exact ⟨hArrangement, List.forall_mem_cons.2
        ⟨hColumn label List.mem_cons_self, List.forall_mem_singleton.2 hAction⟩⟩
  · exact ⟨hArrangement, List.forall_mem_map.2 hColumn⟩

theorem finite_row? (hNode : node.Finite) (hMembers : Measured members)
    (hRow : row? thresholds node members = some layout) : layout.Finite := by
  have hVisual := finite_absorbed thresholds node members
  have hSlots := (hMembers.absorbed thresholds node).slots
    (availableWidth node (absorbBackground thresholds node members).1.length
      (Design.layoutStyle node .row))
  obtain ⟨hStyle, hColumns⟩ := finite_arrangeRow thresholds node
    (finite_layoutStyle hNode .row) hSlots
  unfold row? at hRow
  simp only at hRow
  split at hRow
  · cases hRow
  · rw [← Option.some.inj hRow]
    exact Layout.Node.finite_columns_iff.2 ⟨(hStyle.overlay hVisual).toOption, hColumns⟩

theorem finite_visualRow? {row : List Member} (hRow : Measured row)
    (hLayout : visualRow? row = some layout) : layout.Finite := by
  rcases visualRow?_eq row with ⟨single, hEq, hSingle⟩ | hEq
  · rw [hSingle] at hLayout
    exact ((hRow single (hEq ▸ List.mem_singleton_self single)).2 layout hLayout).1
  · rw [hEq] at hLayout
    obtain ⟨-, rfl⟩ := gather_eq_some.1 hLayout
    refine Layout.Node.finite_columns_iff.2 ⟨finite_none, fun column hColumn => ?_⟩
    obtain ⟨content, hContent, rfl⟩ := List.mem_map.1 hColumn
    refine ⟨finite_none, List.forall_mem_singleton.2 ?_⟩
    exact (hRow.of_perm (leftToRight_perm row)).shown content hContent

theorem finite_scatter? (hMembers : Measured members)
    (hScatter : scatter? thresholds node members = some layout) : layout.Finite := by
  have hStyle := finite_absorbed thresholds node members
  have hContent := hMembers.absorbed thresholds node
  have hGather : gather (.container (absorbBackground thresholds node members).2.toOption)
      ((Design.groupIntoRows Member.node thresholds
        (absorbBackground thresholds node members).1).filterMap visualRow?) = some layout :=
    hScatter
  refine finite_gather_container hStyle.toOption (fun child hChild => ?_) hGather
  obtain ⟨row, hRow, hLayout⟩ := List.mem_filterMap.1 hChild
  exact finite_visualRow? (hContent.of_subset fun _ => mem_of_mem_row hRow) hLayout

theorem finite_arrange? (hNode : node.Finite) (hMembers : Measured members)
    (hArrange : arrange? thresholds node members = some layout) : layout.Finite := by
  unfold arrange? at hArrange
  split at hArrange
  · exact finite_row? hNode hMembers hArrange
  · exact finite_stack? hNode hMembers hArrange
  · exact finite_scatter? hMembers hArrange

/-! ## Familiar shapes -/

theorem finite_card? (hMembers : Measured members)
    (hCard : card? thresholds node members = some layout) : layout.Finite := by
  unfold card? at hCard
  split at hCard
  · rename_i others background hSplit
    have hOthers : Measured others := by
      refine hMembers.of_subset fun member hMem => ?_
      exact (splitBackground_perm hSplit).mem_iff.1 (List.mem_cons_of_mem _ hMem)
    have hStyle := (finite_visualStyle background.node).overlay (finite_visualStyle node)
    simp only at hCard
    split at hCard
    · cases hCard
    · rw [← Option.some.inj hCard]
      exact Layout.Node.finite_container_iff.2 ⟨hStyle.toOption, hOthers.shown⟩
  · cases hCard

theorem finite_controlVisual (node : Design.Node) (background : Option Member) :
    (controlVisual node background).Finite := by
  cases background with
  | none => exact finite_visualStyle node
  | some background => exact (finite_visualStyle node).overlay (finite_visualStyle background.node)

theorem finite_controlStyle (hNode : node.Finite) (hMembers : Measured members)
    {control : Control} (hControl : control? thresholds node members = some control) :
    ∀ own ∈ controlStyle node control, own.Finite := by
  obtain ⟨label, shapes, hLabel, -, -, -, hPerm⟩ := control?_eq_some hControl
  have hText : control.text.Finite :=
    hLabel ▸ (hMembers label (hPerm.mem_iff.1 List.mem_cons_self)).1
  have hVisual : control.visual.Finite := by
    rw [control?_visual hControl]
    exact finite_controlVisual node _
  exact (((finite_layoutStyle hNode _).overlay hVisual).overlay (finite_textStyle hText)).toOption

theorem finite_nav? (hNode : node.Finite) (hMembers : Measured members)
    (hNav : nav? node members = some layout) : layout.Finite := by
  have hStyle := (finite_layoutStyle hNode .row).overlay (finite_visualStyle node)
  unfold nav? at hNav
  simp only at hNav
  split at hNav
  · cases hNav
  · rw [← Option.some.inj hNav]
    refine Layout.Node.finite_nav_iff.2 ⟨hStyle.toOption, fun item hItem => ?_⟩
    obtain ⟨link, hLink, rfl⟩ := List.mem_map.1 hItem
    obtain ⟨member, hMember, rfl⟩ := List.mem_map.1 (List.mem_filter.1 hLink).1
    have hLinked := hMembers member ((inOrder_perm node members).mem_iff.1 hMember)
    exact (finite_textStyle hLinked.1).toOption

theorem finite_build? (hNode : node.Finite) (hMembers : Measured members) {rule : Rule}
    (hBuilt : rule.build? thresholds node members = some layout) : layout.Finite := by
  cases rule with
  | card => exact finite_card? hMembers hBuilt
  | input =>
    obtain ⟨control, hControl, rfl⟩ := Option.map_eq_some_iff.1 hBuilt
    exact (Layout.Node.finite_leaf_iff rfl).2 (finite_controlStyle hNode hMembers hControl)
  | button =>
    obtain ⟨control, hControl, rfl⟩ := Option.map_eq_some_iff.1 hBuilt
    exact (Layout.Node.finite_leaf_iff rfl).2 (finite_controlStyle hNode hMembers hControl)
  | nav => exact finite_nav? hNode hMembers hBuilt

/-! ## Whole designs -/

theorem isUnknown_of_sound (hLayout : layout.Sound) : layout.isUnknown = false := by
  cases layout with
  | unknown => exact hLayout.elim
  | _ => rfl

/-- A design of finite numbers reads as a layout of finite numbers. -/
theorem finite_of_classify (thresholds : Thresholds) (node : Design.Node) :
    (∀ x ∈ node.preorder, x.Finite) →
      ∀ layout, classify thresholds node = some layout → layout.Finite := by
  induction node using Design.Node.induct with
  | step node ih =>
    intro hDesign layout hLayout
    rw [Design.Node.preorder_eq, List.forall_mem_cons] at hDesign
    obtain ⟨hNode, hInside⟩ := hDesign
    have hMembers : Measured (membersOf thresholds node) := by
      intro member hMem
      obtain ⟨child, hChild, rfl⟩ := exists_child_of_mem_membersOf hMem
      have hBelow : ∀ x ∈ child.preorder, x.Finite := fun x hMem =>
        hInside x (List.mem_flatMap.2 ⟨child, hChild, hMem⟩)
      refine ⟨hBelow child ?_, fun content hContent =>
        ⟨ih child hChild hBelow content hContent, ?_⟩⟩
      · rw [Design.Node.preorder_eq]
        exact List.mem_cons_self
      · have hWellFormed := wellFormed_of_classify thresholds child content hContent
        exact isUnknown_of_sound (hWellFormed content (Layout.Node.mem_preorder_self content)).2
    rcases classify_cases hLayout with ⟨-, hText⟩ | hImage | ⟨rule, -, hBuilt⟩ | hArrange
    · exact finite_text? hNode hText
    · exact finite_image? hImage
    · exact finite_build? hNode hMembers hBuilt
    · exact finite_arrange? hNode hMembers hArrange

end Pagewright.Classify
