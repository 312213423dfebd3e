import Mathlib.Data.List.InsertIdx
import Pagewright.Proofs.Classify.Builders
import Pagewright.Proofs.Design.Order

/-!
# Classification does not depend on how siblings are listed

Every rule and every arrangement takes the children of a node in reading order,
or asks of them what does not depend on order: how many they are, and whether
all of them are links. And no rule looks further than to the children: what is
inside them counts only through what they read as. Each test and each builder
has a lemma for the second fact, which are the cases of `judge_alone`; the first
one is `judge_of_inOrder`.

## Main results

* `judge_alone` — what is inside the children counts by their layouts alone.
* `judge_of_inOrder` — children with one reading order read as one.
* `classify_rearranged` — a rearranged design reads as the same.
-/

namespace Pagewright.Classify

open Design (Rearranged Thresholds)
open Layout (Style)

variable {thresholds : Thresholds} {node : Design.Node} {members : List Member}

/-! ## Children in another order -/

section Order

variable {others : List Member} (hOrder : inOrder node members = inOrder node others)
include hOrder

/-- What has one reading order is a permutation of one another. -/
theorem perm_of_inOrder : members.Perm others :=
  (inOrder_perm node members).symm.trans (hOrder ▸ inOrder_perm node others)

theorem splitBackground_of_inOrder :
    splitBackground thresholds node members = splitBackground thresholds node others := by
  rw [splitBackground, splitBackground, hOrder]

theorem absorbBackground_of_inOrder :
    absorbBackground thresholds node members = absorbBackground thresholds node others := by
  rw [absorbBackground, absorbBackground, hOrder, splitBackground_of_inOrder hOrder]

theorem control?_of_inOrder :
    control? thresholds node members = control? thresholds node others := by
  rw [control?, control?, (perm_of_inOrder hOrder).isEmpty_eq, splitBackground_of_inOrder hOrder]

theorem applies_of_inOrder (rule : Rule) :
    rule.applies thresholds node members = rule.applies thresholds node others := by
  have hPerm := perm_of_inOrder hOrder
  cases rule with
  | card =>
    simp only [Rule.applies, isCard, hPerm.length_eq, splitBackground_of_inOrder hOrder]
  | input => simp only [Rule.applies, isInput, control?_of_inOrder hOrder]
  | button => simp only [Rule.applies, isButton, control?_of_inOrder hOrder]
  | nav => simp only [Rule.applies, isNav, hPerm.length_eq, hPerm.all_eq]

theorem build?_of_inOrder (rule : Rule) :
    rule.build? thresholds node members = rule.build? thresholds node others := by
  cases rule with
  | card => simp only [Rule.build?, card?, splitBackground_of_inOrder hOrder]
  | input => simp only [Rule.build?, input?, control?_of_inOrder hOrder]
  | button => simp only [Rule.build?, button?, control?_of_inOrder hOrder]
  | nav => simp only [Rule.build?, nav?, hOrder]

theorem arrange?_of_inOrder :
    arrange? thresholds node members = arrange? thresholds node others := by
  simp only [arrange?, row?, stack?, scatter?, absorbBackground_of_inOrder hOrder]

/-- A node reads as the same whose children have the same reading order. -/
theorem judge_of_inOrder : judge thresholds node members = judge thresholds node others := by
  simp only [judge, Rule.firstMatch?, (perm_of_inOrder hOrder).isEmpty_eq,
    applies_of_inOrder hOrder, build?_of_inOrder hOrder, arrange?_of_inOrder hOrder]

end Order

/-! ## Children without what is inside them -/

/-- A child without the nodes inside it, with the layout that it reads as. -/
def Member.alone (member : Member) : Member := { member with node := member.node.alone }

theorem inOrder_alone (node : Design.Node) (members : List Member) :
    inOrder node.alone (members.map Member.alone) = (inOrder node members).map Member.alone :=
  Design.readingOrder_map Member.node (fun _ => rfl) _ members

theorem splitBackground_alone (thresholds : Thresholds) (node : Design.Node)
    (members : List Member) :
    splitBackground thresholds node.alone (members.map Member.alone) =
      (splitBackground thresholds node members).map (List.map Member.alone)
        (Option.map Member.alone) := by
  have hIndex : Design.backgroundIndex? Member.node thresholds node.alone.box
      ((inOrder node members).map Member.alone) =
        Design.backgroundIndex? Member.node thresholds node.box (inOrder node members) :=
    Design.backgroundIndex?_map Member.node (fun _ => rfl) _ _ _
  simp only [splitBackground, inOrder_alone, hIndex]
  cases Design.backgroundIndex? Member.node thresholds node.box (inOrder node members) with
  | none => rfl
  | some index =>
    simp only [Design.removeAt, List.getElem?_map, List.eraseIdx_map, Prod.map]

theorem absorbBackground_alone (thresholds : Thresholds) (node : Design.Node)
    (members : List Member) :
    absorbBackground thresholds node.alone (members.map Member.alone) =
      (absorbBackground thresholds node members).map (List.map Member.alone) id := by
  rw [absorbBackground, absorbBackground, inOrder_alone, splitBackground_alone]
  show (if (Design.visualStyle node).hasVisual then _ else _) = _
  split
  · rfl
  · obtain ⟨others, background⟩ := splitBackground thresholds node members
    cases background with
    | none => rfl
    | some => rfl

theorem shown_alone (members : List Member) : shown (members.map Member.alone) = shown members :=
  List.filterMap_map

/-! ### Familiar shapes -/

/-- A control whose label holds no nodes. -/
def Control.alone (control : Control) : Control := { control with text := control.text.alone }

theorem parts?_alone (node : Design.Node) (others : List Member) (background : Option Member) :
    parts? node.alone (others.map Member.alone) (background.map Member.alone) =
      (parts? node others background).map Control.alone := by
  have hVisual : controlVisual node.alone (background.map Member.alone) =
      controlVisual node background := by
    cases background with
    | none => rfl
    | some => rfl
  have hTexts : (others.map Member.alone).filter (·.node.isText) =
      (others.filter (·.node.isText)).map Member.alone := List.filter_map
  have hIcons : (others.map Member.alone).filter (·.node.type.isIconLike) =
      (others.filter (·.node.type.isIconLike)).map Member.alone := List.filter_map
  have hKinds : (others.map Member.alone).all
      (fun member => member.node.isText || member.node.type.isIconLike) =
        others.all fun member => member.node.isText || member.node.type.isIconLike := List.all_map
  rw [parts?, parts?, hVisual, hTexts, hIcons, hKinds, List.length_map]
  split
  · cases others.filter (·.node.isText) with
    | nil => rfl
    | cons text rest =>
      cases rest with
      | nil => rfl
      | cons => rfl
  · rfl

theorem control?_alone (thresholds : Thresholds) (node : Design.Node) (members : List Member) :
    control? thresholds node.alone (members.map Member.alone) =
      (control? thresholds node members).map Control.alone := by
  rw [control?, control?, splitBackground_alone, List.isEmpty_map]
  show (if (node.type.isFrameLike && !members.isEmpty) = true then _ else _) = _
  split
  · obtain ⟨others, background⟩ := splitBackground thresholds node members
    show (parts? node.alone (others.map Member.alone) (background.map Member.alone)).filter _ = _
    rw [parts?_alone, Option.filter_map]
    rfl
  · rfl

theorem isNav_alone (thresholds : Thresholds) (node : Design.Node) (members : List Member) :
    isNav thresholds node.alone (members.map Member.alone) = isNav thresholds node members := by
  rw [isNav, isNav, List.length_map, List.all_map]
  rfl

theorem nav?_alone (node : Design.Node) (members : List Member) :
    nav? node.alone (members.map Member.alone) = nav? node members := by
  have hItems : (((inOrder node members).map Member.alone).map (·.node)).filter (·.text != "") =
      (((inOrder node members).map (·.node)).filter (·.text != "")).map Design.Node.alone := by
    have hNodes : ((inOrder node members).map Member.alone).map (·.node) =
        ((inOrder node members).map (·.node)).map Design.Node.alone := by
      rw [List.map_map, List.map_map]
      rfl
    rw [hNodes, List.filter_map]
    rfl
  rw [nav?, nav?, inOrder_alone]
  simp only [hItems]
  rw [List.isEmpty_map, List.map_map]
  rfl

theorem applies_alone (rule : Rule) (thresholds : Thresholds) (node : Design.Node)
    (members : List Member) :
    rule.applies thresholds node.alone (members.map Member.alone) =
      rule.applies thresholds node members := by
  cases rule with
  | card =>
    simp only [Rule.applies, isCard, splitBackground_alone, List.length_map, Prod.map,
      Option.isSome_map]
    rfl
  | input =>
    simp only [Rule.applies, isInput, control?_alone, Option.any_map]
    rfl
  | button => simp only [Rule.applies, isButton, control?_alone, Option.isSome_map]
  | nav => exact isNav_alone thresholds node members

theorem card?_alone (thresholds : Thresholds) (node : Design.Node) (members : List Member) :
    card? thresholds node.alone (members.map Member.alone) = card? thresholds node members := by
  rw [card?, card?, splitBackground_alone]
  obtain ⟨others, background⟩ := splitBackground thresholds node members
  cases background with
  | none => rfl
  | some background =>
    simp only [Prod.map, Option.map_some, shown_alone]
    rfl

theorem build?_alone (rule : Rule) (thresholds : Thresholds) (node : Design.Node)
    (members : List Member) :
    rule.build? thresholds node.alone (members.map Member.alone) =
      rule.build? thresholds node members := by
  cases rule with
  | card => exact card?_alone thresholds node members
  | input =>
    simp only [Rule.build?, input?, control?_alone, Option.map_map]
    rfl
  | button =>
    simp only [Rule.build?, button?, control?_alone, Option.map_map]
    rfl
  | nav => exact nav?_alone node members

/-! ### Arrangements -/

theorem stackContent_alone (members : List Member) :
    stackContent (members.map Member.alone) = stackContent members :=
  List.filterMap_map

theorem stack?_alone (thresholds : Thresholds) (node : Design.Node) (members : List Member) :
    stack? thresholds node.alone (members.map Member.alone) =
      stack? thresholds node members := by
  simp only [stack?, absorbBackground_alone, Prod.map, stackContent_alone, id]
  rfl

/-- A slot whose child holds no nodes. -/
def Slot.alone (slot : Slot) : Slot := { slot with source := slot.source.alone }

theorem slots_alone (available : Float) (members : List Member) :
    slots available (members.map Member.alone) = (slots available members).map Slot.alone := by
  rw [slots, slots, List.filterMap_map, List.map_filterMap]
  refine List.filterMap_congr fun member _ => ?_
  show (member.layout.map _) = (member.layout.map _).map _
  rw [Option.map_map]
  rfl

theorem arrangeRow_alone (thresholds : Thresholds) (row : Design.Node) (layout : Style)
    (slots : List Slot) :
    arrangeRow thresholds row.alone layout (slots.map Slot.alone) =
      arrangeRow thresholds row layout slots := by
  match slots with
  | [] | [_] | [_, _] => rfl
  | first :: second :: third :: rest =>
    simp only [arrangeRow, List.map_cons, List.map_map]
    rfl

theorem row?_alone (thresholds : Thresholds) (node : Design.Node) (members : List Member) :
    row? thresholds node.alone (members.map Member.alone) = row? thresholds node members := by
  simp only [row?, absorbBackground_alone, Prod.map, slots_alone, arrangeRow_alone,
    List.isEmpty_map, List.length_map, id]
  rfl

theorem visualRow?_alone (row : List Member) :
    visualRow? (row.map Member.alone) = visualRow? row := by
  have hShown : shown (Design.leftToRight Member.node (row.map Member.alone)) =
      shown (Design.leftToRight Member.node row) := by
    rw [Design.leftToRight_map Member.node (f := Member.alone) (fun _ => rfl), shown_alone]
  match row with
  | [] => rfl
  | [_] => rfl
  | _ :: _ :: _ =>
    simp only [visualRow?, List.map_cons] at hShown ⊢
    rw [hShown]

theorem scatter?_alone (thresholds : Thresholds) (node : Design.Node) (members : List Member) :
    scatter? thresholds node.alone (members.map Member.alone) =
      scatter? thresholds node members := by
  have hGroups (siblings : List Member) :
      Design.groupIntoRows Member.node thresholds (siblings.map Member.alone) =
        (Design.groupIntoRows Member.node thresholds siblings).map (List.map Member.alone) :=
    Design.groupIntoRows_map Member.node (fun _ => rfl) thresholds siblings
  have hRows : visualRow? ∘ List.map Member.alone = visualRow? := funext visualRow?_alone
  simp only [scatter?, absorbBackground_alone, Prod.map, id, hGroups, List.filterMap_map, hRows]

/-- What is inside the children of a node counts by what they read as alone. -/
theorem judge_alone (thresholds : Thresholds) (node : Design.Node) (members : List Member) :
    judge thresholds node.alone (members.map Member.alone) = judge thresholds node members := by
  have hArrange : arrange? thresholds node.alone (members.map Member.alone) =
      arrange? thresholds node members := by
    simp only [arrange?, row?_alone, stack?_alone, scatter?_alone]
    rfl
  simp only [judge, Rule.firstMatch?, applies_alone, build?_alone, hArrange, List.isEmpty_map]
  rfl

/-! ## Rearranged designs -/

/-- A design whose siblings stand apart reads as the same in every arrangement. -/
theorem classify_rearranged (thresholds : Thresholds) {a b : Design.Node}
    (hRearranged : Rearranged a b) (hApart : a.Apart) :
    classify thresholds a = classify thresholds b := by
  induction hRearranged with
  | intro node pairs children hChildren hInside hOrder ih =>
    obtain ⟨hPlaces, hBelow⟩ := Design.Node.apart_iff.1 hApart
    generalize hMoved : { node with children := children } = moved
    have hAlone : moved.alone = node.alone := hMoved ▸ rfl
    -- A child and what has become of it are the same member, but for the nodes inside.
    have hSame : (membersOf thresholds node).map Member.alone =
        (pairs.map Prod.snd).map fun child =>
          Member.alone ⟨child, classify thresholds child⟩ := by
      rw [membersOf_eq_map, hChildren, List.map_map, List.map_map, List.map_map]
      refine List.map_congr_left fun pair hPair => ?_
      have hChild : pair.1 ∈ node.children := hChildren ▸ List.mem_map_of_mem hPair
      have hPairAlone := (hInside pair hPair).alone_eq
      show (⟨pair.1.alone, classify thresholds pair.1⟩ : Member) =
        ⟨pair.2.alone, classify thresholds pair.2⟩
      rw [hPairAlone, ih pair hPair (hBelow pair.1 hChild)]
    have hPerm : ((membersOf thresholds node).map Member.alone).Perm
        ((membersOf thresholds moved).map Member.alone) := by
      rw [hSame, membersOf_eq_map, ← hMoved, List.map_map (g := Member.alone)]
      exact (hOrder.map _).symm
    have hNodup : (((membersOf thresholds node).map Member.alone).map
        fun member => member.node.position).Nodup := by
      rw [membersOf_eq_map, List.map_map, List.map_map]
      exact hPlaces
    rw [classify_eq_judge, classify_eq_judge, ← judge_alone, ← judge_alone thresholds moved, hAlone]
    exact judge_of_inOrder (Design.readingOrder_eq_of_perm hPerm hNodup)

end Pagewright.Classify
