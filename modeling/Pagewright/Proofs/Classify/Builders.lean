import Pagewright.Classify.Basic
import Pagewright.Proofs.Design.Rows
import Pagewright.Proofs.Layout.Nodes

/-!
# What the builders put together

Every builder of the classification takes a background out of the children,
puts the others into some order, and wraps what they read as. Here each builder
has one lemma that says which children it takes and what it makes of them;
statements about classified layouts rest on these lemmas alone.

## Main results

* `splitBackground_taken`, `absorbBackground_taken` — no child is lost but a
  background, and a background is a shape.
* `withSizing_eq` — a stack changes nothing about its children but their style.
* `stack?_eq`, `row?_eq`, `scatter?_eq` — an arrangement is a wrapper around
  what the children read as, unless that is nothing.
* `card?_eq_some`, `control?_eq_some`, `nav?_eq` — the familiar shapes.
* `firstMatch?_eq_some` — only rules that apply make something.
* `classify_cases` — the ways in which a node comes to read as something.
-/

namespace Pagewright.Classify

open Design (Thresholds)
open Layout (Column Style)

variable {thresholds : Thresholds} {node : Design.Node} {members : List Member}

theorem membersOf_eq_map (thresholds : Thresholds) (node : Design.Node) :
    membersOf thresholds node =
      node.children.map fun child => ⟨child, classify thresholds child⟩ :=
  classifyAll_eq_map thresholds node.children

/-- A classified child is a child of the node with what it reads as. -/
theorem exists_child_of_mem_membersOf {member : Member}
    (hMem : member ∈ membersOf thresholds node) :
    ∃ child ∈ node.children, member = ⟨child, classify thresholds child⟩ := by
  rw [membersOf_eq_map] at hMem
  obtain ⟨child, hChild, rfl⟩ := List.mem_map.1 hMem
  exact ⟨child, hChild, rfl⟩

/-! ## Backgrounds -/

theorem inOrder_perm (parent : Design.Node) (members : List Member) :
    (inOrder parent members).Perm members :=
  Design.readingOrder_perm _ _ _

theorem isShape_of_isBackground {box : Design.Box} {child : Design.Node}
    (hBackground : Design.isBackground thresholds box child = true) :
    child.type.isShape = true := by
  simp only [Design.isBackground, Bool.and_eq_true, Bool.or_eq_true, beq_iff_eq] at hBackground
  obtain ⟨⟨⟨⟨hType, -⟩, -⟩, -⟩, -⟩ := hBackground
  rcases hType with hType | hType <;> rw [hType] <;> rfl

/-- The background that is found is one of the siblings. -/
theorem backgroundIndex?_eq_some {box : Design.Box} {siblings : List Member} {index : Nat}
    (hIndex : Design.backgroundIndex? Member.node thresholds box siblings = some index) :
    ∃ background, siblings[index]? = some background ∧
      Design.isBackground thresholds box background.node = true := by
  unfold Design.backgroundIndex? at hIndex
  split at hIndex
  · cases hIndex
  · obtain ⟨hLt, hBackground, -⟩ := List.findIdx?_eq_some_iff_getElem.1 hIndex
    exact ⟨siblings[index], List.getElem?_eq_getElem hLt, hBackground⟩

/-- Either all children stay, or one of them is taken out as the background. -/
theorem splitBackground_cases (thresholds : Thresholds) (node : Design.Node)
    (members : List Member) :
    splitBackground thresholds node members = (inOrder node members, none) ∨
      ∃ others background,
        splitBackground thresholds node members = (others, some background) ∧
          Design.isBackground thresholds node.box background.node = true ∧
            (background :: others).Perm members := by
  cases hIndex : Design.backgroundIndex? Member.node thresholds node.box
      (inOrder node members) with
  | none =>
    left
    rw [splitBackground]
    simp only [hIndex]
  | some index =>
    right
    obtain ⟨background, hTaken, hBackground⟩ := backgroundIndex?_eq_some hIndex
    have hSplit : splitBackground thresholds node members =
        ((inOrder node members).eraseIdx index, some background) := by
      rw [splitBackground]
      simp only [hIndex, Design.removeAt, hTaken]
    exact ⟨_, background, hSplit, hBackground, splitBackground_perm hSplit⟩

/-- Beside the children that stay there are only shapes. -/
theorem splitBackground_taken (thresholds : Thresholds) (node : Design.Node)
    (members : List Member) :
    ∃ taken : List Member, (∀ member ∈ taken, member.node.type.isShape = true) ∧
      ((splitBackground thresholds node members).1 ++ taken).Perm members := by
  rcases splitBackground_cases thresholds node members with
    hSplit | ⟨others, background, hSplit, hBackground, hPerm⟩
  · refine ⟨[], fun _ hMem => absurd hMem List.not_mem_nil, ?_⟩
    rw [hSplit, List.append_nil]
    exact inOrder_perm node members
  · refine ⟨[background], fun member hMem => ?_, ?_⟩
    · rw [List.mem_singleton.1 hMem]
      exact isShape_of_isBackground hBackground
    · rw [hSplit]
      exact List.perm_append_comm.trans hPerm

/-- The content of a node without looks of its own is what its background leaves. -/
theorem absorbBackground_fst (thresholds : Thresholds) (node : Design.Node)
    (members : List Member) :
    (absorbBackground thresholds node members).1 =
      if (Design.visualStyle node).hasVisual then inOrder node members
      else (splitBackground thresholds node members).1 := by
  unfold absorbBackground
  simp only
  split
  · rfl
  · split <;> simp only [*]

/-- Beside the children that are content there are only shapes. -/
theorem absorbBackground_taken (thresholds : Thresholds) (node : Design.Node)
    (members : List Member) :
    ∃ taken : List Member, (∀ member ∈ taken, member.node.type.isShape = true) ∧
      ((absorbBackground thresholds node members).1 ++ taken).Perm members := by
  rw [absorbBackground_fst]
  split
  · refine ⟨[], fun _ hMem => absurd hMem List.not_mem_nil, ?_⟩
    rw [List.append_nil]
    exact inOrder_perm node members
  · exact splitBackground_taken thresholds node members

theorem mem_of_mem_content {member : Member}
    (hMem : member ∈ (absorbBackground thresholds node members).1) : member ∈ members := by
  obtain ⟨taken, -, hPerm⟩ := absorbBackground_taken thresholds node members
  exact hPerm.mem_iff.1 (List.mem_append_left taken hMem)

/-! ## Arrangements -/

/-- A wrapper around parts, unless there are none. -/
def gather {α : Type} (wrap : List α → Layout.Node) (parts : List α) : Option Layout.Node :=
  if parts.isEmpty then none else some (wrap parts)

theorem gather_eq_some {α : Type} {wrap : List α → Layout.Node} {parts : List α}
    {layout : Layout.Node} :
    gather wrap parts = some layout ↔ parts ≠ [] ∧ wrap parts = layout := by
  cases parts <;> simp [gather]

theorem gather_eq_none_iff {α : Type} {wrap : List α → Layout.Node} {parts : List α} :
    gather wrap parts = none ↔ parts = [] := by
  cases parts <;> simp [gather]

/-- A style over a sizing, unless the sizing says nothing. -/
def sizedStyle (sizing : Style) (own : Option Style) : Option Style :=
  if sizing.isEmpty then own else some (sizing.overlay (own.getD Style.empty))

theorem withSizing_eq (sizing : Style) (node : Layout.Node) :
    withSizing sizing node = node.withStyle (sizedStyle sizing node.style) := by
  unfold withSizing sizedStyle
  split
  · cases node <;> rfl
  · cases node.style with
    | none => rw [Option.getD_none, Style.overlay_empty]
    | some own => rw [Option.getD_some]

/-- Sizing is a matter of style. -/
theorem withSizing_eq_withStyle (sizing : Style) (node : Layout.Node) :
    ∃ style, withSizing sizing node = node.withStyle style :=
  ⟨_, withSizing_eq sizing node⟩

/-- A stack holds what the children read as, each with a style that sizes it. -/
theorem stack?_eq (thresholds : Thresholds) (node : Design.Node) (members : List Member) :
    ∃ style, stack? thresholds node members = gather (.container style)
      (stackContent (absorbBackground thresholds node members).1) :=
  ⟨_, rfl⟩

theorem map_content_slots (available : Float) (members : List Member) :
    (slots available members).map Slot.content = shown members := by
  rw [slots, shown, List.map_filterMap]
  refine List.filterMap_congr fun member _ => ?_
  cases member.layout <;> rfl

/-- However a row is arranged, each column holds what its slot holds. -/
theorem children_arrangeRow (thresholds : Thresholds) (row : Design.Node) (layout : Style)
    (slots : List Slot) :
    (arrangeRow thresholds row layout slots).1.map Column.children =
      slots.map fun slot => [slot.content] := by
  unfold arrangeRow
  split
  · split <;> rfl
  · rw [List.map_map]
    rfl

/-- A row has a column for each child that shows something. -/
theorem row?_eq (thresholds : Thresholds) (node : Design.Node) (members : List Member) :
    ∃ style entries, row? thresholds node members = gather (.columns style) entries ∧
      entries.map Column.children =
        (shown (absorbBackground thresholds node members).1).map ([·]) := by
  generalize hLayout : Design.layoutStyle node .row = layout
  generalize hOthers : (absorbBackground thresholds node members).1 = others
  generalize hSlots : slots (availableWidth node others.length layout) others = row
  have hChildren := children_arrangeRow thresholds node layout row
  have hEmpty : row.isEmpty = (arrangeRow thresholds node layout row).1.isEmpty := by
    rw [← List.isEmpty_map (f := Column.children), hChildren, List.isEmpty_map]
  have hRow : row? thresholds node members =
      if row.isEmpty then none
      else some (.columns ((arrangeRow thresholds node layout row).2.overlay
        (absorbBackground thresholds node members).2).toOption
          (arrangeRow thresholds node layout row).1) := by
    rw [← hSlots, ← hOthers, ← hLayout]
    rfl
  refine ⟨((arrangeRow thresholds node layout row).2.overlay
    (absorbBackground thresholds node members).2).toOption,
    (arrangeRow thresholds node layout row).1, ?_, ?_⟩
  · rw [hRow, hEmpty]
    rfl
  · rw [hChildren, ← map_content_slots (availableWidth node others.length layout), hSlots,
      List.map_map]
    rfl

/-- The children of a row among others, from left to right. -/
theorem leftToRight_perm (row : List Member) :
    (Design.leftToRight Member.node row).Perm row :=
  List.mergeSort_perm _ _

/-- A lone child stands for its row, several stand in columns. -/
theorem visualRow?_eq (row : List Member) :
    (∃ single, row = [single] ∧ visualRow? row = single.layout) ∨
      visualRow? row = gather (.columns none)
        ((shown (Design.leftToRight Member.node row)).map fun node => .mk none [node]) := by
  unfold visualRow?
  split
  · exact .inl ⟨_, rfl, rfl⟩
  · right
    simp only [gather, List.isEmpty_map]

/-- The members of rows are those that were grouped. -/
theorem mem_of_mem_row {row : List Member} {member : Member}
    (hRow : row ∈ Design.groupIntoRows Member.node thresholds members) (hMem : member ∈ row) :
    member ∈ members :=
  (Design.groupIntoRows_perm _ _ _).mem_iff.1 (List.mem_flatten.2 ⟨row, hRow, hMem⟩)

/-- Freely placed children are gathered row by row. -/
theorem scatter?_eq (thresholds : Thresholds) (node : Design.Node) (members : List Member) :
    ∃ style, scatter? thresholds node members = gather (.container style)
      ((Design.groupIntoRows Member.node thresholds
        (absorbBackground thresholds node members).1).filterMap visualRow?) :=
  ⟨_, rfl⟩

/-! ## Familiar shapes -/

/-- A card holds what is left of the children when a shape is taken out. -/
theorem card?_eq_some {layout : Layout.Node}
    (hCard : card? thresholds node members = some layout) :
    ∃ style others background, background.node.type.isShape = true ∧
      (background :: others).Perm members ∧ 2 ≤ (shown others).length ∧
        layout = .container style (shown others) := by
  unfold card? at hCard
  rcases splitBackground_cases thresholds node members with
    hSplit | ⟨others, background, hSplit, hBackground, hPerm⟩
  · rw [hSplit] at hCard
    cases hCard
  · rw [hSplit] at hCard
    simp only at hCard
    split at hCard
    · cases hCard
    · rename_i hLength
      exact ⟨_, others, background, isShape_of_isBackground hBackground, hPerm,
        Nat.le_of_not_lt hLength, (Option.some.inj hCard).symm⟩

theorem isShape_of_isIconLike {type : Design.NodeType} (hIcon : type.isIconLike = true) :
    type.isShape = true := by
  cases type with
  | rectangle => rfl
  | _ => exact hIcon

theorem label_ne_empty {control : Control} (hPlausible : control.isPlausible node = true) :
    control.label ≠ "" := by
  simp only [Control.isPlausible, Bool.and_eq_true, Bool.not_eq_true', Bool.or_eq_false_iff,
    beq_eq_false_iff_ne] at hPlausible
  exact hPlausible.1.2

/-- The parts of a control are one text and icons. -/
theorem parts?_eq_some {others : List Member} {background : Option Member} {control : Control}
    (hParts : parts? node others background = some control) :
    ∃ label icons, label.node = control.text ∧ label.node.isText = true ∧
      (∀ icon ∈ icons, icon.node.type.isShape = true) ∧ (label :: icons).Perm others := by
  unfold parts? at hParts
  split at hParts
  · rename_i hKinds
    split at hParts
    · rename_i label hLabel
      have hMem : label ∈ others.filter (·.node.isText) := hLabel ▸ List.mem_singleton_self label
      refine ⟨label, others.filter (!·.node.isText), ?_, (List.mem_filter.1 hMem).2, ?_, ?_⟩
      · rw [← Option.some.inj hParts]
      · intro icon hIcon
        obtain ⟨hOther, hNoText⟩ := List.mem_filter.1 hIcon
        have hKind := List.all_eq_true.1 hKinds icon hOther
        rw [Bool.not_eq_true'] at hNoText
        rw [hNoText, Bool.false_or] at hKind
        exact isShape_of_isIconLike hKind
      · have hPerm := List.filter_append_perm (·.node.isText) others
        rwa [hLabel] at hPerm
    · cases hParts
  · cases hParts

/-- A control has one text among shapes. -/
theorem control?_eq_some {control : Control}
    (hControl : control? thresholds node members = some control) :
    ∃ label shapes, label.node = control.text ∧ label.node.isText = true ∧
      control.label ≠ "" ∧ (∀ shape ∈ shapes, shape.node.type.isShape = true) ∧
        (label :: shapes).Perm members := by
  unfold control? at hControl
  split at hControl
  · obtain ⟨hParts, hPlausible⟩ := Option.filter_eq_some_iff.1 hControl
    obtain ⟨label, icons, hText, hIsText, hIcons, hPerm⟩ := parts?_eq_some hParts
    obtain ⟨taken, hTaken, hAll⟩ := splitBackground_taken thresholds node members
    refine ⟨label, icons ++ taken, hText, hIsText, label_ne_empty hPlausible, ?_, ?_⟩
    · intro shape hShape
      rcases List.mem_append.1 hShape with hIcon | hBackground
      · exact hIcons shape hIcon
      · exact hTaken shape hBackground
    · exact (hPerm.append_right taken).trans hAll
  · cases hControl

theorem parts?_visual {others : List Member} {background : Option Member} {control : Control}
    (hParts : parts? node others background = some control) :
    control.visual = controlVisual node background := by
  unfold parts? at hParts
  split at hParts
  · split at hParts
    · rw [← Option.some.inj hParts]
    · cases hParts
  · cases hParts

/-- A control has the looks of its node, those of its background over them. -/
theorem control?_visual {control : Control}
    (hControl : control? thresholds node members = some control) :
    control.visual = controlVisual node (splitBackground thresholds node members).2 := by
  unfold control? at hControl
  split at hControl
  · exact parts?_visual (Option.filter_eq_some_iff.1 hControl).1
  · cases hControl

/-- A bar holds a link for each child that is not blank. -/
theorem nav?_eq (node : Design.Node) (members : List Member) :
    ∃ style, nav? node members = gather (.nav style)
      ((((inOrder node members).map Member.node).filter (·.text != "")).map navItem) := by
  refine ⟨((Design.layoutStyle node .row).overlay (Design.visualStyle node)).toOption, ?_⟩
  simp only [nav?, gather, List.isEmpty_map]

/-! ## The first rule that fits -/

/-- What the rules make is made by one that applies. -/
theorem firstMatch?_eq_some {layout : Layout.Node}
    (hMatch : Rule.firstMatch? thresholds node members = some layout) :
    ∃ rule : Rule, rule.applies thresholds node members = true ∧
      rule.build? thresholds node members = some layout := by
  obtain ⟨rule, -, hRule⟩ := List.exists_of_findSome?_eq_some hMatch
  simp only [Option.ite_none_right_eq_some] at hRule
  exact ⟨rule, hRule⟩

/-! ## Whole nodes -/

/-- What a node reads as comes from the text, the paint, a rule or the arrangement. -/
theorem classify_cases {layout : Layout.Node}
    (hLayout : classify thresholds node = some layout) :
    node.isText = true ∧ text? thresholds node = some layout ∨
      image? thresholds node = some layout ∨
      (∃ rule : Rule, rule.applies thresholds node (membersOf thresholds node) = true ∧
        rule.build? thresholds node (membersOf thresholds node) = some layout) ∨
      arrange? thresholds node (membersOf thresholds node) = some layout := by
  rw [classify_eq_judge, judge] at hLayout
  split at hLayout
  · rename_i hText
    exact .inl ⟨hText, hLayout⟩
  split at hLayout
  · exact .inr (.inl hLayout)
  cases hMatch : Rule.firstMatch? thresholds node (membersOf thresholds node) with
  | none =>
    rw [hMatch] at hLayout
    exact .inr (.inr (.inr hLayout))
  | some built =>
    rw [hMatch] at hLayout
    obtain ⟨rule, hApplies, hBuilt⟩ := firstMatch?_eq_some hMatch
    exact .inr (.inr (.inl ⟨rule, hApplies, hBuilt.trans hLayout⟩))

end Pagewright.Classify
