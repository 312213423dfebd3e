import Pagewright.Proofs.Classify.Texts

/-!
# What is lost with a background

A node may take one of its children for its background. That child is no
content then; its looks pass to the node, and all that it would have been
classified as is lost. This is nothing as long as the child is *hollow*: a shape
that is not painted with an image, or one that holds nothing that shows. But a
shape may have looks and be painted with an image as well, and such an image
is lost.

When a node shows nothing does not depend on which rule or arrangement it goes
through: a text is blank, a leaf is no image, and anything else has content that
shows nothing.

## Main results

* `arrange?_eq_none_iff` — an arrangement shows nothing when its content does not.
* `classify_eq_none_iff` — the nodes that show nothing.
* `background_taken` — what is taken for a background, and when nothing is lost with it.
-/

namespace Pagewright.Classify

open Design (Thresholds)
open Layout (Column Style)

variable {thresholds : Thresholds} {node : Design.Node} {members : List Member}

/-! ## Arrangements that show nothing -/

theorem shown_eq_nil_iff : shown members = [] ↔ ∀ member ∈ members, member.layout = none :=
  List.filterMap_eq_nil_iff

theorem stackContent_eq_nil_iff : stackContent members = [] ↔ shown members = [] := by
  rw [stackContent, List.filterMap_eq_nil_iff, shown_eq_nil_iff]
  exact forall₂_congr fun member _ => Option.map_eq_none_iff

theorem visualRow?_eq_none_iff {row : List Member} :
    visualRow? row = none ↔ ∀ member ∈ row, member.layout = none := by
  rcases visualRow?_eq row with ⟨single, rfl, hSingle⟩ | hRow
  · rw [hSingle, List.forall_mem_singleton]
  · rw [hRow, gather_eq_none_iff, List.map_eq_nil_iff, shown_eq_nil_iff]
    exact forall_congr' fun member => by rw [(leftToRight_perm row).mem_iff]

/-- An arrangement shows nothing exactly when none of its content does. -/
theorem arrange?_eq_none_iff (thresholds : Thresholds) (node : Design.Node)
    (members : List Member) :
    arrange? thresholds node members = none ↔
      shown (absorbBackground thresholds node members).1 = [] := by
  unfold arrange?
  split
  · obtain ⟨style, entries, hRow, hSingle⟩ := row?_eq thresholds node members
    rw [hRow, gather_eq_none_iff, ← List.map_eq_nil_iff (f := Column.children), hSingle,
      List.map_eq_nil_iff]
  · obtain ⟨style, hStack⟩ := stack?_eq thresholds node members
    rw [hStack, gather_eq_none_iff, stackContent_eq_nil_iff]
  · obtain ⟨style, hScatter⟩ := scatter?_eq thresholds node members
    have hSeats := Design.groupIntoRows_perm Member.node thresholds
      (absorbBackground thresholds node members).1
    rw [hScatter, gather_eq_none_iff, List.filterMap_eq_nil_iff, shown_eq_nil_iff]
    simp only [visualRow?_eq_none_iff, ← hSeats.mem_iff, List.mem_flatten]
    exact ⟨fun hRows member ⟨row, hRow, hMem⟩ => hRows row hRow member hMem,
      fun hAll row hRow member hMem => hAll member ⟨row, hRow, hMem⟩⟩

/-! ## Rules find content -/

/-- What is left when a background is split off is content in any case. -/
theorem mem_content_of_mem_split {member : Member}
    (hMem : member ∈ (splitBackground thresholds node members).1) :
    member ∈ (absorbBackground thresholds node members).1 := by
  rw [absorbBackground_fst]
  split
  · obtain ⟨taken, -, hPerm⟩ := splitBackground_taken thresholds node members
    exact (inOrder_perm node members).mem_iff.2
      (hPerm.mem_iff.1 (List.mem_append_left taken hMem))
  · exact hMem

/-- No text is taken for a background. -/
theorem text_mem_content {member : Member} (hMem : member ∈ members)
    (hText : member.node.isText = true) :
    member ∈ (absorbBackground thresholds node members).1 := by
  obtain ⟨taken, hTaken, hPerm⟩ := absorbBackground_taken thresholds node members
  rcases List.mem_append.1 (hPerm.mem_iff.2 hMem) with hContent | hShape
  · exact hContent
  · rw [Design.Node.isText_eq_false_of_isShape (hTaken member hShape)] at hText
    cases hText

/-- A text that is not blank is content that shows. -/
theorem shown_content_of_text {member : Member} (hMem : member ∈ membersOf thresholds node)
    (hText : member.node.isText = true) (hSaid : member.node.text ≠ "") :
    shown (absorbBackground thresholds node (membersOf thresholds node)).1 ≠ [] := by
  intro hNone
  have hLayout := shown_eq_nil_iff.1 hNone member (text_mem_content hMem hText)
  obtain ⟨child, -, rfl⟩ := exists_child_of_mem_membersOf hMem
  rw [classify_text hText, text?_eq_none_iff] at hLayout
  exact hSaid hLayout

/-- A card shows content. -/
theorem shown_content_of_card? {layout : Layout.Node}
    (hCard : card? thresholds node members = some layout) :
    shown (absorbBackground thresholds node members).1 ≠ [] := by
  intro hNone
  unfold card? at hCard
  split at hCard
  · rename_i others background hSplit
    have hOthers : shown others = [] := by
      rw [shown_eq_nil_iff] at hNone ⊢
      intro member hMem
      exact hNone member (mem_content_of_mem_split (by rwa [hSplit]))
    simp [hOthers] at hCard
  · cases hCard

/-- What a rule makes of a node, it makes of content that shows. -/
theorem shown_content_of_build? {rule : Rule} {layout : Layout.Node}
    (hApplies : rule.applies thresholds node (membersOf thresholds node) = true)
    (hBuilt : rule.build? thresholds node (membersOf thresholds node) = some layout) :
    shown (absorbBackground thresholds node (membersOf thresholds node)).1 ≠ [] := by
  have hLabelled {control : Control}
      (hControl : control? thresholds node (membersOf thresholds node) = some control) :
      shown (absorbBackground thresholds node (membersOf thresholds node)).1 ≠ [] := by
    obtain ⟨label, shapes, hText, hIsText, hLabel, -, hPerm⟩ := control?_eq_some hControl
    refine shown_content_of_text (hPerm.mem_iff.1 List.mem_cons_self) hIsText ?_
    rw [hText]
    exact hLabel
  cases rule with
  | card => exact shown_content_of_card? hBuilt
  | input =>
    obtain ⟨control, hControl, -⟩ := Option.map_eq_some_iff.1 hBuilt
    exact hLabelled hControl
  | button =>
    obtain ⟨control, hControl, -⟩ := Option.map_eq_some_iff.1 hBuilt
    exact hLabelled hControl
  | nav =>
    simp only [Rule.applies, isNav, Bool.and_eq_true, decide_eq_true_eq, List.all_eq_true,
      isLink, bne_iff_ne] at hApplies
    obtain ⟨⟨-, hSeveral⟩, hLinks⟩ := hApplies
    obtain ⟨link, hMem⟩ := List.exists_mem_of_length_pos (Nat.zero_lt_of_lt hSeveral)
    exact shown_content_of_text hMem (hLinks link hMem).1.1 (hLinks link hMem).1.2

/-! ## Nodes that show nothing -/

/-- A text shows nothing when it is blank, a leaf when it is no image, and any
other node when none of its content shows anything. -/
theorem classify_eq_none_iff (thresholds : Thresholds) (node : Design.Node) :
    classify thresholds node = none ↔
      if node.isText then node.text = ""
      else if node.children = [] then image? thresholds node = none
      else shown (absorbBackground thresholds node (membersOf thresholds node)).1 = [] := by
  by_cases hText : node.isText = true
  · rw [classify_text hText, text?_eq_none_iff, if_pos hText]
  rw [if_neg hText]
  by_cases hLeaf : node.children = []
  · rw [classify_childless (Bool.eq_false_iff.2 hText) hLeaf, if_pos hLeaf]
  have hSome : (membersOf thresholds node).isEmpty = false := by
    rw [membersOf_eq_map, List.isEmpty_map]
    exact Bool.eq_false_iff.2 fun hNil => hLeaf (List.isEmpty_iff.1 hNil)
  rw [classify_eq_judge, judge, if_neg hText, hSome, if_neg Bool.false_ne_true, if_neg hLeaf]
  cases hMatch : Rule.firstMatch? thresholds node (membersOf thresholds node) with
  | none => exact arrange?_eq_none_iff thresholds node (membersOf thresholds node)
  | some layout =>
    obtain ⟨rule, hApplies, hBuilt⟩ := firstMatch?_eq_some hMatch
    exact iff_of_false (Option.some_ne_none layout) (shown_content_of_build? hApplies hBuilt)

/-- A shape is no image exactly when none of its paints is one. -/
theorem image?_eq_none_iff (hShape : node.type.isShape = true) :
    image? thresholds node = none ↔ ∀ paint ∈ node.fills, paint.kind ≠ .image := by
  simp [image?, hShape]

/-! ## Backgrounds -/

/-- The child whose looks a node takes on where it is arranged. -/
def absorbed? (thresholds : Thresholds) (parent : Design.Node) (members : List Member) :
    Option Member :=
  if (Design.visualStyle parent).hasVisual then none
  else (splitBackground thresholds parent members).2

/-- Whether nothing is lost with a shape: it is not painted with an image, or none
of the children that are its content shows anything. -/
def Hollow (thresholds : Thresholds) (shape : Design.Node) : Prop :=
  if shape.children = [] then ∀ paint ∈ shape.fills, paint.kind ≠ .image
  else shown (absorbBackground thresholds shape (membersOf thresholds shape)).1 = []

/-- What it means that a node takes a child, or none, for its background and keeps
the others as its content. -/
structure TakesBackground (thresholds : Thresholds) (node : Design.Node)
    (content : List Member) (taken : Option Member) : Prop where
  kept : (content ++ taken.toList).Perm (membersOf thresholds node)
  shape : ∀ background ∈ taken,
    background.node.type = .rectangle ∨ background.node.type = .vector
  looks : ∀ background ∈ taken, (Design.visualStyle background.node).hasVisual = true
  lost : ∀ background ∈ taken,
    classify thresholds background.node = none ↔ Hollow thresholds background.node

/-- A shape shows nothing exactly when it is hollow. -/
theorem classify_shape_eq_none_iff {shape : Design.Node} (hShape : shape.type.isShape = true) :
    classify thresholds shape = none ↔ Hollow thresholds shape := by
  rw [classify_eq_none_iff, Design.Node.isText_eq_false_of_isShape hShape,
    if_neg Bool.false_ne_true, image?_eq_none_iff hShape, Hollow]

/-- A node that takes no background keeps all of its children. -/
theorem takesBackground_none (thresholds : Thresholds) (node : Design.Node) :
    TakesBackground thresholds node (inOrder node (membersOf thresholds node)) none where
  kept := by
    rw [Option.toList_none, List.append_nil]
    exact inOrder_perm node _
  shape := nofun
  looks := nofun
  lost := nofun

theorem takesBackground_split (thresholds : Thresholds) (node : Design.Node) :
    TakesBackground thresholds node
      (splitBackground thresholds node (membersOf thresholds node)).1
      (splitBackground thresholds node (membersOf thresholds node)).2 := by
  rcases splitBackground_cases thresholds node (membersOf thresholds node) with
    hSplit | ⟨others, background, hSplit, hBackground, hPerm⟩
  · rw [hSplit]
    exact takesBackground_none thresholds node
  · have hShape := isShape_of_isBackground hBackground
    simp only [Design.isBackground, Bool.and_eq_true, Bool.or_eq_true, beq_iff_eq] at hBackground
    rw [hSplit]
    exact
      { kept := List.perm_append_comm.trans hPerm
        shape := fun _ hMem => Option.some.inj hMem ▸ hBackground.1.1.1.1
        looks := fun _ hMem => Option.some.inj hMem ▸ hBackground.1.1.1.2
        lost := fun _ hMem => Option.some.inj hMem ▸ classify_shape_eq_none_iff hShape }

theorem takesBackground_absorb (thresholds : Thresholds) (node : Design.Node) :
    TakesBackground thresholds node
      (absorbBackground thresholds node (membersOf thresholds node)).1
      (absorbed? thresholds node (membersOf thresholds node)) := by
  rw [absorbBackground_fst, absorbed?]
  split
  · exact takesBackground_none thresholds node
  · exact takesBackground_split thresholds node

/-- Whether its background is split off by a rule or absorbed by an arrangement, a
node takes at most one child for it, a rectangle or vector with looks of its own;
all other children are kept, and nothing that shows is lost exactly when the
background is hollow. -/
theorem background_taken (thresholds : Thresholds) (node : Design.Node) :
    TakesBackground thresholds node
        (splitBackground thresholds node (membersOf thresholds node)).1
        (splitBackground thresholds node (membersOf thresholds node)).2 ∧
      TakesBackground thresholds node
        (absorbBackground thresholds node (membersOf thresholds node)).1
        (absorbed? thresholds node (membersOf thresholds node)) :=
  ⟨takesBackground_split thresholds node, takesBackground_absorb thresholds node⟩

/-- A box on the page. -/
def squareBox : Json :=
  .obj [("height", .int 100), ("width", .int 100), ("x", .int 0), ("y", .int 0)]

/-- A picture with round corners. -/
def roundPhoto : Json :=
  .obj [("absoluteBoundingBox", squareBox), ("cornerRadius", .int 8),
    ("fills", .arr [.obj [("type", .str "IMAGE")]]), ("type", .str "RECTANGLE")]

/-- A frame that holds nothing but the picture. -/
def framedPhoto : Json :=
  .obj [("absoluteBoundingBox", squareBox), ("children", .arr [roundPhoto]),
    ("layoutMode", .str "VERTICAL"), ("type", .str "FRAME")]

/-- The frame takes the picture for its background, and nothing shows. -/
theorem framedPhoto_vanishes :
    (∃ photo, absorbed? {} (Design.readNode framedPhoto)
        (membersOf {} (Design.readNode framedPhoto)) = some photo ∧
      classify {} photo.node ≠ none) ∧
    classify {} (Design.readNode framedPhoto) = none := by
  have hTaken : (absorbed? {} (Design.readNode framedPhoto)
      (membersOf {} (Design.readNode framedPhoto))).any
        (fun photo => (classify {} photo.node).isSome) = true := by decide +kernel
  have hNone : (classify {} (Design.readNode framedPhoto)).isNone = true := by decide +kernel
  obtain ⟨photo, hPhoto, hShown⟩ := (Option.any_eq_true _ _).1 hTaken
  exact ⟨⟨photo, hPhoto, Option.isSome_iff_ne_none.1 hShown⟩, Option.isNone_iff_eq_none.1 hNone⟩

end Pagewright.Classify
