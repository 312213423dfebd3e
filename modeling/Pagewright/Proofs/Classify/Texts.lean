import Mathlib.Data.List.Perm.Basic
import Pagewright.Proofs.Classify.Builders
import Pagewright.Proofs.Design.Tree

/-!
# Classification keeps every text

What is written on a design is what can be read on the layout that it is
classified as: each text once, though not always in the same place. Backgrounds
and icons fall away on the way, and nothing is written on them as long as the
design is bare.

## Main results

* `texts_arrange?` — no arrangement loses what its children read as.
* `texts_build?` — nor does a rule that applies.
* `texts_classify` — the texts of a design are those of its layout.
-/

namespace Pagewright.Classify

open Design (Thresholds)
open Layout (Column Style)

variable {thresholds : Thresholds} {node : Design.Node} {members : List Member}

/-- What is read on a layout, if there is one. -/
def textsOf (layout : Option Layout.Node) : List String := layout.elim [] Layout.Node.texts

/-- What is read on a classified child. -/
def Member.texts (member : Member) : List String := textsOf member.layout

/-- What is read on the layouts that are made of some of the items of a list. -/
theorem flatMap_texts_filterMap {α : Type} (make : α → Option Layout.Node) (items : List α) :
    (items.filterMap make).flatMap Layout.Node.texts =
      items.flatMap fun item => textsOf (make item) := by
  induction items with
  | nil => rfl
  | cons item rest ih =>
    rw [List.filterMap_cons, List.flatMap_cons, ← ih]
    cases make item <;> rfl

theorem texts_shown (members : List Member) :
    (shown members).flatMap Layout.Node.texts = members.flatMap Member.texts :=
  flatMap_texts_filterMap Member.layout members

/-! ## Arrangements -/

theorem texts_gather_container (style : Option Style) (content : List Layout.Node) :
    textsOf (gather (.container style) content) = content.flatMap Layout.Node.texts := by
  cases content with
  | nil => rfl
  | cons => exact Layout.Node.texts_container style _

/-- Columns with one node each are read as these nodes. -/
theorem texts_gather_columns {style : Option Style} {entries : List Column}
    {content : List Layout.Node} (hSingle : entries.map Column.children = content.map ([·])) :
    textsOf (gather (.columns style) entries) = content.flatMap Layout.Node.texts := by
  have hEntries : (entries.flatMap fun column => column.children.flatMap Layout.Node.texts) =
      content.flatMap Layout.Node.texts := by
    rw [← List.flatMap_map Column.children, hSingle, List.flatMap_map]
    exact List.flatMap_congr fun node _ => List.flatMap_singleton _ node
  rw [← hEntries]
  cases entries with
  | nil => rfl
  | cons => exact Layout.Node.texts_columns style _

theorem texts_stackContent (members : List Member) :
    (stackContent members).flatMap Layout.Node.texts = members.flatMap Member.texts := by
  rw [stackContent, flatMap_texts_filterMap]
  refine List.flatMap_congr fun member _ => ?_
  rw [Member.texts]
  cases member.layout with
  | none => rfl
  | some layout =>
    obtain ⟨style, hSizing⟩ := withSizing_eq_withStyle (stackSizing member.node) layout
    show (withSizing (stackSizing member.node) layout).texts = layout.texts
    rw [hSizing, Layout.Node.texts_withStyle]

theorem texts_visualRow? (row : List Member) :
    (textsOf (visualRow? row)).Perm (row.flatMap Member.texts) := by
  rcases visualRow?_eq row with ⟨single, hRow, hSingle⟩ | hRow
  · rw [hRow, ← hRow, hSingle, hRow, List.flatMap_singleton]
    exact .refl _
  · rw [hRow, texts_gather_columns (by rw [List.map_map]; rfl), texts_shown]
    exact (leftToRight_perm row).flatMap_right _

/-- No arrangement loses what its children read as, if nothing is read on shapes. -/
theorem texts_arrange?
    (hShapes : ∀ member ∈ members, member.node.type.isShape = true → member.texts = []) :
    (textsOf (arrange? thresholds node members)).Perm (members.flatMap Member.texts) := by
  obtain ⟨taken, hTaken, hPerm⟩ := absorbBackground_taken thresholds node members
  -- The content reads as all children do, since what is missing there is a shape.
  have hContent : ((absorbBackground thresholds node members).1.flatMap Member.texts).Perm
      (members.flatMap Member.texts) := by
    have hAll := hPerm.flatMap_right Member.texts
    rwa [List.flatMap_append, List.flatMap_eq_nil_iff.2 fun member hMem =>
      hShapes member (hPerm.mem_iff.1 (List.mem_append_right _ hMem)) (hTaken member hMem),
      List.append_nil] at hAll
  refine .trans ?_ hContent
  unfold arrange?
  split
  · obtain ⟨style, entries, hRow, hSingle⟩ := row?_eq thresholds node members
    rw [hRow, texts_gather_columns hSingle, texts_shown]
  · obtain ⟨style, hStack⟩ := stack?_eq thresholds node members
    rw [hStack, texts_gather_container, texts_stackContent]
  · obtain ⟨style, hScatter⟩ := scatter?_eq thresholds node members
    rw [hScatter, texts_gather_container, flatMap_texts_filterMap]
    refine (List.Perm.flatMap_left _ fun row _ => texts_visualRow? row).trans ?_
    rw [← List.flatMap_assoc, List.flatMap_id']
    exact (Design.groupIntoRows_perm _ _ _).flatMap_right _

/-! ## Familiar shapes -/

/-- What is read on the texts and shapes among classified children. -/
structure Plain (members : List Member) : Prop where
  text : ∀ member ∈ members, member.node.isText = true → member.texts = member.node.ownTexts
  shape : ∀ member ∈ members, member.node.type.isShape = true → member.texts = []

theorem Plain.texts_shapes (hPlain : Plain members) {shapes : List Member}
    (hShapes : ∀ shape ∈ shapes, shape.node.type.isShape = true)
    (hMem : ∀ shape ∈ shapes, shape ∈ members) : shapes.flatMap Member.texts = [] :=
  List.flatMap_eq_nil_iff.2 fun shape hShape =>
    hPlain.shape shape (hMem shape hShape) (hShapes shape hShape)

theorem texts_card? (hPlain : Plain members) {layout : Layout.Node}
    (hCard : card? thresholds node members = some layout) :
    layout.texts.Perm (members.flatMap Member.texts) := by
  obtain ⟨style, others, background, hShape, hPerm, -, rfl⟩ := card?_eq_some hCard
  have hBackground : background.texts = [] :=
    hPlain.shape background (hPerm.mem_iff.1 List.mem_cons_self) hShape
  have hAll := hPerm.flatMap_right Member.texts
  rw [List.flatMap_cons, hBackground, List.nil_append] at hAll
  rw [Layout.Node.texts_container, texts_shown]
  exact hAll

/-- All that is read on the children of a control is its label. -/
theorem texts_control (hPlain : Plain members) {control : Control}
    (hControl : control? thresholds node members = some control) :
    [control.label].Perm (members.flatMap Member.texts) := by
  obtain ⟨label, shapes, hText, hIsText, hLabel, hShapes, hPerm⟩ := control?_eq_some hControl
  have hMem : ∀ member ∈ label :: shapes, member ∈ members := fun member => hPerm.mem_iff.1
  have hOwn : label.texts = [control.label] := by
    rw [hPlain.text label (hMem label List.mem_cons_self) hIsText, Design.Node.ownTexts, hText]
    exact if_pos ⟨hText ▸ hIsText, hLabel⟩
  have hAll := hPerm.flatMap_right Member.texts
  rwa [List.flatMap_cons, hOwn, hPlain.texts_shapes hShapes fun shape hShape =>
    hMem shape (List.mem_cons_of_mem label hShape), List.append_nil] at hAll

/-- The links of a bar are the texts of its children. -/
theorem texts_nav (hPlain : Plain members) (hNav : isNav thresholds node members = true)
    {layout : Layout.Node} (hBuilt : nav? node members = some layout) :
    layout.texts.Perm (members.flatMap Member.texts) := by
  obtain ⟨style, hEq⟩ := nav?_eq node members
  rw [hEq] at hBuilt
  obtain ⟨-, rfl⟩ := gather_eq_some.1 hBuilt
  -- Every child is a text that is not blank, so none is filtered out.
  have hLink : ∀ member ∈ members, member.node.isText = true ∧ member.node.text ≠ "" := by
    simp only [isNav, Bool.and_eq_true, List.all_eq_true] at hNav
    intro member hMem
    have h := hNav.2 member hMem
    simp only [isLink, Bool.and_eq_true, bne_iff_ne] at h
    exact h.1
  have hOwn : members.flatMap Member.texts = members.map (·.node.text) := by
    rw [← List.flatMap_pure_eq_map]
    refine List.flatMap_congr fun member hMem => ?_
    rw [hPlain.text member hMem (hLink member hMem).1]
    exact if_pos (hLink member hMem)
  have hPerm := inOrder_perm node members
  rw [hOwn, Layout.Node.texts_leaf rfl, Layout.Node.ownTexts, List.map_map,
    List.filter_eq_self.2 fun text hText => ?_, List.map_map]
  · exact hPerm.map _
  · obtain ⟨member, hMem, rfl⟩ := List.mem_map.1 hText
    exact bne_iff_ne.2 (hLink member (hPerm.mem_iff.1 hMem)).2

/-- A rule that applies loses nothing that is read on the children. -/
theorem texts_build? (hPlain : Plain members) {rule : Rule} {layout : Layout.Node}
    (hApplies : rule.applies thresholds node members = true)
    (hBuilt : rule.build? thresholds node members = some layout) :
    layout.texts.Perm (members.flatMap Member.texts) := by
  cases rule with
  | card => exact texts_card? hPlain hBuilt
  | input =>
    obtain ⟨control, hControl, rfl⟩ := Option.map_eq_some_iff.1 hBuilt
    exact texts_control hPlain hControl
  | button =>
    obtain ⟨control, hControl, rfl⟩ := Option.map_eq_some_iff.1 hBuilt
    exact texts_control hPlain hControl
  | nav => exact texts_nav hPlain hApplies hBuilt

/-! ## Whole designs -/

/-- On the layout of a text is read what the text says. -/
theorem texts_text? (hText : node.isText = true) :
    textsOf (text? thresholds node) = node.ownTexts := by
  unfold text?
  split
  · rename_i hBlank
    exact (if_neg fun h => h.2 hBlank).symm
  · rename_i hSaid
    have hOwn : node.ownTexts = [node.text] := if_pos ⟨hText, hSaid⟩
    rw [hOwn]
    simp only
    split <;> rfl

theorem texts_image? : textsOf (image? thresholds node) = [] := by
  unfold image?
  split <;> rfl

theorem classify_text (hText : node.isText = true) :
    classify thresholds node = text? thresholds node := by
  rw [classify_eq_judge, judge, if_pos hText]

theorem classify_childless (hText : node.isText = false) (hLeaf : node.children = []) :
    classify thresholds node = image? thresholds node := by
  rw [classify_eq_judge, judge, if_neg (by rw [hText]; exact Bool.false_ne_true), membersOf,
    hLeaf]
  rfl

/-- The children of a bare design are plain. -/
theorem plain_membersOf (thresholds : Thresholds) (hBare : node.Bare) :
    Plain (membersOf thresholds node) := by
  have hChild : ∀ member ∈ membersOf thresholds node,
      member.layout = classify thresholds member.node ∧ member.node.Bare := by
    intro member hMem
    obtain ⟨child, hChild, rfl⟩ := exists_child_of_mem_membersOf hMem
    exact ⟨rfl, (Design.Node.bare_iff.1 hBare).2 child hChild⟩
  constructor
  · intro member hMem hText
    rw [Member.texts, (hChild member hMem).1, classify_text hText, texts_text? hText]
  · intro member hMem hShape
    obtain ⟨hLayout, hMemberBare⟩ := hChild member hMem
    rw [Member.texts, hLayout,
      classify_childless (Design.Node.isText_eq_false_of_isShape hShape)
        ((Design.Node.bare_iff.1 hMemberBare).1 (.inr hShape)), texts_image?]

/-- A bare design and its layout say the same. -/
theorem texts_classify (thresholds : Thresholds) (node : Design.Node) :
    node.Bare → (textsOf (classify thresholds node)).Perm node.texts := by
  induction node using Design.Node.induct with
  | step node ih =>
    intro hBare
    by_cases hText : node.isText = true
    · rw [classify_text hText, texts_text? hText, hBare.texts_text hText]
    -- Nothing is written on the node itself, so its texts are those of the children.
    have hOwn : node.ownTexts = [] := if_neg fun h => hText h.1
    rw [Design.Node.texts_eq, hOwn, List.nil_append]
    have hMembers : ((membersOf thresholds node).flatMap Member.texts).Perm
        (node.children.flatMap Design.Node.texts) := by
      rw [membersOf_eq_map, List.flatMap_map]
      exact List.Perm.flatMap_left _ fun child hChild =>
        ih child hChild ((Design.Node.bare_iff.1 hBare).2 child hChild)
    have hPlain := plain_membersOf thresholds hBare
    rw [classify_eq_judge, judge, if_neg hText]
    split
    · rename_i hNone
      rw [texts_image?]
      rw [List.isEmpty_iff.1 hNone] at hMembers
      exact hMembers
    · refine .trans ?_ hMembers
      cases hMatch : Rule.firstMatch? thresholds node (membersOf thresholds node) with
      | none => exact texts_arrange? hPlain.shape
      | some layout =>
        obtain ⟨rule, hApplies, hBuilt⟩ := firstMatch?_eq_some hMatch
        exact texts_build? hPlain hApplies hBuilt

end Pagewright.Classify
