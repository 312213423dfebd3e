import Pagewright.Proofs.Classify.Order
import Pagewright.Proofs.Design.Reader
import Pagewright.Proofs.Import.Frame

/-!
# An import does not depend on how siblings are listed

A document lists the children of a node in an array. Documents are `Reordered`
when the items of these arrays stand in other orders, in any of their nodes;
the designs that are read from them are then rearranged, so that frames whose
siblings stand apart have one import.

## Main results

* `Reordered.rearranged` — what is read from reordered documents.
* `importFrame_reordered` — the order of siblings passes neither into a layout
  nor into an import.
-/

namespace Pagewright.Import

open Design (Rearranged Thresholds readNode)
open Classify (classify)

/-! ## Documents -/

/-- Documents of which one lists the children of its nodes in other orders: each pair
holds an item and what has become of it. -/
inductive Reordered : Json → Json → Prop where
  | same (document : Json) : Reordered document document
  | children (fields : Json.Fields) (pairs : List (Json × Json)) (items : List Json)
      (hChildren : Json.lookup "children" fields = some (.arr (pairs.map Prod.fst)))
      (hInside : ∀ pair ∈ pairs, Reordered pair.1 pair.2)
      (hOrder : items.Perm (pairs.map Prod.snd)) :
      Reordered (.obj fields) (.obj (Json.insert "children" (.arr items) fields))

namespace Reordered

variable {a b : Json}

theorem isObject_eq (hReordered : Reordered a b) : a.isObject = b.isObject := by
  cases hReordered with
  | same => rfl
  | children => rfl

theorem declaredType_eq (hReordered : Reordered a b) : declaredType a = declaredType b := by
  cases hReordered with
  | same => rfl
  | children =>
    rw [declaredType, declaredType, Json.get?, Json.get?, Json.lookup_insert_ne (by decide)]

/-- From reordered documents rearranged designs are read. -/
theorem rearranged (hReordered : Reordered a b) : Rearranged (readNode a) (readNode b) := by
  induction hReordered with
  | same document => exact .refl _
  | children fields pairs items hChildren hInside hOrder ih =>
    have hNodes : Design.readChildrenField fields =
        ((pairs.filter fun pair => pair.1.isObject).map fun pair =>
          (readNode pair.1, readNode pair.2)).map Prod.fst := by
      rw [Design.readChildrenField_eq, hChildren]
      show Design.readItems (pairs.map Prod.fst) = _
      rw [Design.readItems_eq, List.filter_map, List.map_map, List.map_map]
      rfl
    have hMoved : (Design.readItems items).Perm
        (((pairs.filter fun pair => pair.1.isObject).map fun pair =>
          (readNode pair.1, readNode pair.2)).map Prod.snd) := by
      have hObjects : (pairs.filter fun pair => pair.1.isObject) =
          pairs.filter (Json.isObject ∘ Prod.snd) :=
        List.filter_congr fun pair hPair => (hInside pair hPair).isObject_eq
      rw [Design.readItems_eq, hObjects, List.map_map]
      refine ((hOrder.filter Json.isObject).map readNode).trans (.of_eq ?_)
      rw [List.filter_map, List.map_map]
      rfl
    have hRead : readNode (.obj (Json.insert "children" (.arr items) fields)) =
        { Design.nodeOf fields (Design.readChildrenField fields) with
          children := Design.readItems items } := by
      rw [Design.nodeOf_with_children, Design.readNode_obj, Design.readChildrenField_eq,
        Json.lookup_insert_self, Design.nodeOf_insert_children]
      rfl
    rw [hRead, Design.readNode_obj]
    refine .intro _ _ _ ((Design.children_nodeOf fields _).trans hNodes) (fun pair hPair => ?_)
      hMoved
    obtain ⟨source, hSource, rfl⟩ := List.mem_map.1 hPair
    exact ih source (List.mem_filter.1 hSource).1

end Reordered

/-! ## Imports -/

/-- The blocks of a frame depend on its name and its layout. -/
theorem blocks_alone (frame : Design.Node) (layout : Option Layout.Node) :
    blocks frame.alone layout = blocks frame layout := by
  cases layout with
  | none => rfl
  | some layout =>
    cases layout with
    | «section» | container => rfl
    | _ => rfl

/-- Where no two siblings stand in the same place, the order in which they are listed is
neither seen in the layout of a design nor in the import of a document. -/
theorem importFrame_reordered (thresholds : Thresholds) :
    (∀ a b : Design.Node, Rearranged a b → a.Apart →
      classify thresholds a = classify thresholds b) ∧
    ∀ a b : Json, Reordered a b → (readNode a).Apart →
      importFrame thresholds a = importFrame thresholds b := by
  refine ⟨fun a b hRearranged => Classify.classify_rearranged thresholds hRearranged,
    fun a b hReordered hApart => ?_⟩
  have hRearranged := hReordered.rearranged
  have hAlone := hRearranged.alone_eq
  have hType : (readNode a).type = (readNode b).type := by
    show (readNode a).alone.type = (readNode b).alone.type
    rw [hAlone]
  have hLayout := Classify.classify_rearranged thresholds hRearranged hApart
  have hBlocks : blocks (readNode a) (classify thresholds (readNode a)) =
      blocks (readNode b) (classify thresholds (readNode b)) := by
    rw [← blocks_alone, ← blocks_alone (readNode b), hAlone, hLayout]
  simp only [importFrame, hReordered.isObject_eq, hReordered.declaredType_eq, hType, hBlocks]

/-- A text at a height of the page. -/
def placedText (text : String) (y : Float) : Json :=
  .obj [("absoluteBoundingBox", .obj [("y", .float y)]), ("characters", .str text),
    ("type", .str "TEXT")]

/-- A frame of two texts, listed in some order. -/
def couple (first second : Json) : Json :=
  .obj [("children", .arr [first, second]), ("type", .str "FRAME")]

theorem reordered_couple (first second : Json) :
    Reordered (couple first second) (couple second first) :=
  .children [("children", .arr [first, second]), ("type", .str "FRAME")]
    [(first, first), (second, second)] [second, first] rfl
    (fun _ hPair => by
      rcases List.mem_pair.1 hPair with rfl | rfl
      · exact .same _
      · exact .same _)
    (.swap first second [])

theorem importFrame_reordered_couple :
    let upper := placedText "Above" 0.0
    let lower := placedText "Below" 40.0
    classify {} (readNode (couple upper lower)) = classify {} (readNode (couple lower upper)) ∧
      importFrame {} (couple upper lower) = importFrame {} (couple lower upper) := by
  intro upper lower
  obtain ⟨hDesigns, hDocuments⟩ := importFrame_reordered {}
  have hReordered := reordered_couple upper lower
  have hApart : (readNode (couple upper lower)).Apart := by
    unfold Design.Node.Apart
    decide +kernel
  exact ⟨hDesigns _ _ hReordered.rearranged hApart, hDocuments _ _ hReordered hApart⟩

end Pagewright.Import
