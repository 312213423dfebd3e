import Pagewright.Proofs.Design.Tree
import Pagewright.Proofs.Json.Fields

/-!
# What is read of a design

A node is read from the fields of an object, its children from one of them. A
number that a node ends up with was read as a number, and these are finite.

## Main results

* `readNode_obj`, `readChildrenField_eq`, `readItems_eq` — reading, one level at
  a time.
* `nodeOf_insert_children` — no other field of a node is read from its children.
* `finite_readNode` — the numbers of every node that is read are finite.
-/

namespace Pagewright.Design

open Json

/-! ## One level at a time -/

theorem readNode_obj (fields : Fields) :
    readNode (.obj fields) = nodeOf fields (readChildrenField fields) := by
  rw [readNode]

theorem readChildrenField_eq (fields : Fields) :
    readChildrenField fields = ((lookup "children" fields).map readChildren).getD [] := by
  induction fields with
  | nil => rfl
  | cons field rest ih =>
    obtain ⟨key, value⟩ := field
    rw [readChildrenField, lookup]
    split
    · rfl
    · exact ih

/-- Only objects are children. -/
theorem readItems_eq (items : List Json) :
    readItems items = (items.filter isObject).map readNode := by
  induction items with
  | nil => rfl
  | cons item rest ih =>
    cases item with
    | obj fields => exact congrArg (List.cons _) ih
    | _ => exact ih

theorem children_nodeOf (fields : Fields) (children : List Node) :
    (nodeOf fields children).children = children := rfl

theorem nodeOf_with_children (fields : Fields) (children others : List Node) :
    { nodeOf fields children with children := others } = nodeOf fields others := by
  simp only [nodeOf]

/-- What a node has of its own does not come from its children. -/
theorem nodeOf_insert_children (value : Json) (fields : Fields) (children : List Node) :
    nodeOf (insert "children" value fields) children = nodeOf fields children := by
  have hOther {key : String} (hKey : "children" ≠ key) := lookup_insert_ne hKey value fields
  simp only [nodeOf, textAt, numberAt, objectAt, objectsAt, tagAt, readCornerRadii,
    readOverrideSizes, hOther, ne_eq, String.reduceEq, not_false_eq_true]

/-! ## Finite numbers -/

/-- The numbers of a node that a layout may take over are finite, where they are given. -/
structure Node.Finite (node : Node) : Prop where
  width : node.box.width.isFinite = true
  height : node.box.height.isFinite = true
  gap : ∀ x ∈ node.itemSpacing, x.isFinite = true
  padding : ∀ edge ∈ [node.padding.top, node.padding.right, node.padding.bottom,
    node.padding.left], ∀ x ∈ edge, x.isFinite = true
  grow : ∀ x ∈ node.layoutGrow, x.isFinite = true
  fontSize : ∀ x ∈ node.typeStyle.bind (·.fontSize), x.isFinite = true
  letterSpacing : ∀ x ∈ node.typeStyle.bind (·.letterSpacing), x.isFinite = true
  lineHeight : ∀ x ∈ node.typeStyle.bind (·.lineHeightPx), x.isFinite = true
  overrides : ∀ x ∈ node.overrideFontSizes, x.isFinite = true

theorem finite_of_numberAt {fields : Fields} {key : String} {x : Float}
    (hNumber : numberAt fields key = some x) : x.isFinite = true := by
  obtain ⟨value, -, hRead⟩ := Option.bind_eq_some_iff.1 hNumber
  exact finite_of_number? hRead

theorem finite_numberOr {fallback : Float} (hFallback : fallback.isFinite = true)
    (fields : Fields) (key : String) : (numberOr fallback fields key).isFinite = true := by
  unfold numberOr
  cases hNumber : numberAt fields key with
  | none => exact hFallback
  | some x => exact finite_of_numberAt hNumber

theorem isFinite_zero : (0.0 : Float).isFinite = true := rfl

/-- The numbers of a typography are those of the fields that it was read from. -/
theorem finite_typeStyle {fields : Fields} {part : TypeStyle → Option Float} {key : String}
    (hPart : ∀ own, part (readTypeStyle own) = numberAt own key) :
    ∀ x ∈ ((objectAt fields "style").map readTypeStyle).bind part, x.isFinite = true := by
  intro x hMem
  obtain ⟨style, hStyle, hNumber⟩ := Option.bind_eq_some_iff.1 hMem
  obtain ⟨own, -, rfl⟩ := Option.map_eq_some_iff.1 hStyle
  rw [hPart] at hNumber
  exact finite_of_numberAt hNumber

theorem finite_nodeOf (fields : Fields) (children : List Node) :
    (nodeOf fields children).Finite where
  width := by
    show ((objectAt fields "absoluteBoundingBox").map readBox |>.getD {}).width.isFinite = true
    cases objectAt fields "absoluteBoundingBox" with
    | none => rfl
    | some box => exact finite_numberOr isFinite_zero box "width"
  height := by
    show ((objectAt fields "absoluteBoundingBox").map readBox |>.getD {}).height.isFinite = true
    cases objectAt fields "absoluteBoundingBox" with
    | none => rfl
    | some box => exact finite_numberOr isFinite_zero box "height"
  gap _ := finite_of_numberAt
  padding edge hEdge x hMem := by
    simp only [nodeOf, List.mem_cons, List.not_mem_nil, or_false] at hEdge
    rcases hEdge with rfl | rfl | rfl | rfl <;> exact finite_of_numberAt hMem
  grow _ := finite_of_numberAt
  fontSize := finite_typeStyle fun _ => rfl
  letterSpacing := finite_typeStyle fun _ => rfl
  lineHeight := finite_typeStyle fun _ => rfl
  overrides x hMem := by
    obtain ⟨entry, -, hEntry⟩ := List.mem_filterMap.1 hMem
    obtain ⟨own, -, hNumber⟩ := Option.bind_eq_some_iff.1 hEntry
    exact finite_of_numberAt hNumber

/-- The numbers of every node that is read are finite. -/
theorem finite_readNode (document : Json) : ∀ x ∈ (readNode document).preorder, x.Finite := by
  -- The children of an object are the nodes of the items of an array.
  suffices hBoth : (∀ x ∈ (readNode document).preorder, x.Finite) ∧
      ∀ child ∈ readChildren document, ∀ x ∈ child.preorder, x.Finite from hBoth.1
  have hEmpty : ∀ x ∈ (nodeOf [] []).preorder, x.Finite := by
    intro x hMem
    rw [Node.preorder_eq, children_nodeOf, List.flatMap_nil, List.mem_singleton] at hMem
    exact hMem ▸ finite_nodeOf [] []
  induction document using Json.induct with
  | inArray items ih =>
    refine ⟨hEmpty, fun child hChild => ?_⟩
    rw [readChildren, readItems_eq] at hChild
    obtain ⟨item, hItem, rfl⟩ := List.mem_map.1 hChild
    exact (ih item (List.mem_filter.1 hItem).1).1
  | inObject fields ih =>
    refine ⟨fun x hMem => ?_, fun child hChild => nomatch hChild⟩
    rw [readNode_obj, Node.preorder_eq, children_nodeOf] at hMem
    rcases List.mem_cons.1 hMem with rfl | hInside
    · exact finite_nodeOf fields _
    · obtain ⟨child, hChild, hBelow⟩ := List.mem_flatMap.1 hInside
      rw [readChildrenField_eq] at hChild
      cases hLookup : lookup "children" fields with
      | none =>
        rw [hLookup] at hChild
        cases hChild
      | some value =>
        rw [hLookup] at hChild
        exact (ih "children" value hLookup).2 child hChild x hBelow
  | atLeaf leaf hLeaf =>
    cases leaf with
    | arr | obj => cases hLeaf
    | _ => exact ⟨hEmpty, fun child hChild => nomatch hChild⟩

end Pagewright.Design
