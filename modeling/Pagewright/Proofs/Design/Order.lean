import Mathlib.Data.List.Nodup
import Pagewright.Proofs.Design.Tree
import Pagewright.Design.Arrangement

/-!
# Siblings in another order

A tool lists the children of a node in an order of its own. A design is
`Rearranged` when its nodes list them in other orders, at any depth. What is
known of a node apart from its children, `Node.alone`, stays; so does the
reading order of siblings, which goes by their positions, as long as no two of
them stand in the same place.

## Main results

* `Rearranged.alone_eq`, `Rearranged.refl` — what a rearrangement keeps.
* `readingOrder_eq_of_perm` — siblings that stand apart have one reading order.
* `readingOrder_map`, `backgroundIndex?_map`, `groupIntoRows_map` — the
  arrangement of siblings does not look into them.
-/

namespace Pagewright.Design

/-! ## Designs -/

namespace Node

/-- A node without the nodes inside it. -/
def alone (node : Node) : Node := { node with children := [] }

/-- Where a node stands, as far as siblings are told apart by it. -/
def position (node : Node) : Int × Int := positionKey true node.box

/-- Whether no two siblings of a design stand in the same place. -/
def Apart (node : Node) : Prop := ∀ x ∈ node.preorder, (x.children.map position).Nodup

/-- Siblings stand apart when the children of the root do and theirs do. -/
theorem apart_iff {node : Node} :
    node.Apart ↔ (node.children.map position).Nodup ∧ ∀ child ∈ node.children, child.Apart := by
  unfold Apart
  rw [preorder_eq, List.forall_mem_cons]
  refine and_congr_right fun _ => ⟨fun h child hChild x hMem => ?_, fun h x hMem => ?_⟩
  · exact h x (List.mem_flatMap.2 ⟨child, hChild, hMem⟩)
  · obtain ⟨child, hChild, hInside⟩ := List.mem_flatMap.1 hMem
    exact h child hChild x hInside

end Node

/-- A design with the children of its nodes in other orders: each pair holds a child and
what has become of it. -/
inductive Rearranged : Node → Node → Prop where
  | intro (node : Node) (pairs : List (Node × Node)) (children : List Node)
      (hChildren : node.children = pairs.map Prod.fst)
      (hInside : ∀ pair ∈ pairs, Rearranged pair.1 pair.2)
      (hOrder : children.Perm (pairs.map Prod.snd)) :
      Rearranged node { node with children := children }

namespace Rearranged

/-- A rearrangement moves the nodes inside a node, and nothing else. -/
theorem alone_eq {a b : Node} (hRearranged : Rearranged a b) : b.alone = a.alone := by
  cases hRearranged
  rfl

theorem refl (node : Node) : Rearranged node node := by
  induction node using Node.induct with
  | step node ih =>
    have hSelf := intro node (node.children.map fun child => (child, child)) node.children
      (by rw [List.map_map]; exact (List.map_id _).symm)
      (by
        intro pair hPair
        obtain ⟨child, hChild, rfl⟩ := List.mem_map.1 hPair
        exact ih child hChild)
      (by rw [List.map_map]; exact .of_eq (List.map_id _).symm)
    cases node
    exact hSelf

end Rearranged

/-! ## Reading order -/

theorem keyLe_iff {a b : Int × Int} :
    keyLe a b = true ↔ a.1 < b.1 ∨ a.1 = b.1 ∧ a.2 ≤ b.2 := by
  simp only [keyLe, Bool.or_eq_true, Bool.and_eq_true, decide_eq_true_eq, beq_iff_eq]

theorem keyLe_trans {a b c : Int × Int} (hFirst : keyLe a b = true) (hSecond : keyLe b c = true) :
    keyLe a c = true := by
  rw [keyLe_iff] at *
  omega

theorem keyLe_total (a b : Int × Int) : (keyLe a b || keyLe b a) = true := by
  rw [Bool.or_eq_true, keyLe_iff, keyLe_iff]
  omega

theorem keyLe_antisymm {a b : Int × Int} (hLe : keyLe a b = true) (hGe : keyLe b a = true) :
    a = b := by
  rw [keyLe_iff] at hLe hGe
  exact Prod.ext (by omega) (by omega)

/-- Either axis first, the key of a box is told by its position. -/
theorem position_eq_of_positionKey {horizontal : Bool} {a b : Node}
    (hKey : positionKey horizontal a.box = positionKey horizontal b.box) :
    a.position = b.position := by
  cases horizontal with
  | true => exact hKey
  | false => exact congrArg Prod.swap hKey

variable {α : Type} {node : α → Node}

/-- Siblings that stand apart are read in one order, however they are listed. -/
theorem readingOrder_eq_of_perm {horizontal : Bool} {siblings others : List α}
    (hPerm : siblings.Perm others) (hApart : (siblings.map fun x => (node x).position).Nodup) :
    readingOrder node horizontal siblings = readingOrder node horizontal others := by
  have hSorted (xs : List α) : (readingOrder node horizontal xs).Pairwise fun a b =>
      keyLe (positionKey horizontal (node a).box) (positionKey horizontal (node b).box) = true := by
    unfold readingOrder
    refine List.pairwise_mergeSort (fun a b c => ?_) (fun a b => ?_) xs
    · exact keyLe_trans
    · exact keyLe_total _ _
  refine List.Perm.eq_of_pairwise ?_ (hSorted siblings) (hSorted others)
    ((readingOrder_perm _ _ _).trans (hPerm.trans (readingOrder_perm _ _ _).symm))
  intro a b hA hB hLe hGe
  refine List.inj_on_of_nodup_map hApart ?_ ?_
    (position_eq_of_positionKey (keyLe_antisymm hLe hGe))
  · exact (readingOrder_perm _ _ _).mem_iff.1 hA
  · exact hPerm.mem_iff.2 ((readingOrder_perm _ _ _).mem_iff.1 hB)

/-! ## Siblings without what is inside them -/

section Alone

variable (node) {f : α → α} (hAlone : ∀ x, node (f x) = (node x).alone)
include hAlone

theorem readingOrder_map (horizontal : Bool) (siblings : List α) :
    readingOrder node horizontal (siblings.map f) =
      (readingOrder node horizontal siblings).map f := by
  refine (List.map_mergeSort fun a _ b _ => ?_).symm
  rw [hAlone, hAlone]
  rfl

theorem leftToRight_map (siblings : List α) :
    leftToRight node (siblings.map f) = (leftToRight node siblings).map f := by
  refine (List.map_mergeSort fun a _ b _ => ?_).symm
  rw [hAlone, hAlone]
  rfl

theorem backgroundIndex?_map (thresholds : Thresholds) (parent : Box) (siblings : List α) :
    backgroundIndex? node thresholds parent (siblings.map f) =
      backgroundIndex? node thresholds parent siblings := by
  have hSame : (fun x => isBackground thresholds parent (node x)) ∘ f =
      fun x => isBackground thresholds parent (node x) := by
    funext x
    show isBackground thresholds parent (node (f x)) = _
    rw [hAlone]
    rfl
  rw [backgroundIndex?, backgroundIndex?, List.findIdx?_map, hSame]

end Alone

/-! ## Rows of siblings without what is inside them -/

/-- A row of what becomes of its members. -/
def Row.map (f : α → α) (row : Row α) : Row α := ⟨row.center, row.members.map f⟩

theorem joinRow_map (f : α → α) (center reach : Float) (sibling : α) (rows : List (Row α)) :
    joinRow center reach (f sibling) (rows.map (Row.map f)) =
      (joinRow center reach sibling rows).map (Row.map f) := by
  induction rows with
  | nil => rfl
  | cons row rest ih =>
    rw [List.map_cons, joinRow, joinRow]
    show (if (row.center - center).abs ≤ reach then
      (⟨(row.center + center) / 2.0, row.members.map f ++ [f sibling]⟩ : Row α) ::
        rest.map (Row.map f) else _) = _
    split
    · rw [List.map_cons, Row.map, List.map_append]
      rfl
    · rw [List.map_cons, ih]

theorem insertRow_map (f : α → α) (row : Row α) (rows : List (Row α)) :
    insertRow (row.map f) (rows.map (Row.map f)) = (insertRow row rows).map (Row.map f) := by
  induction rows with
  | nil => rfl
  | cons other rest ih =>
    rw [List.map_cons, insertRow, insertRow]
    show (if row.center < other.center then _ else _) = _
    split
    · rw [List.map_cons, ih]
    · rfl

/-- A loop over items that are mapped builds what is mapped, if each of its steps does. -/
theorem foldl_map_eq_map {β γ : Type} {add : γ → β → γ} {g : β → β} {h : γ → γ}
    (hStep : ∀ built x, add (h built) (g x) = h (add built x)) (items : List β) :
    ∀ built, (items.map g).foldl add (h built) = h (items.foldl add built) := by
  induction items with
  | nil => exact fun _ => rfl
  | cons x rest ih =>
    intro built
    rw [List.map_cons, List.foldl_cons, List.foldl_cons, hStep, ih]

theorem sortRows_map (f : α → α) (rows : List (Row α)) :
    sortRows (rows.map (Row.map f)) = (sortRows rows).map (Row.map f) := by
  have hFold : (rows.map (Row.map f)).foldl (fun sorted row => insertRow row sorted) [] =
      (rows.foldl (fun sorted row => insertRow row sorted) []).map (Row.map f) :=
    foldl_map_eq_map (h := List.map (Row.map f)) (fun sorted row => insertRow_map f row sorted)
      rows []
  rw [sortRows, sortRows, List.map_reverse]
  exact congrArg List.reverse hFold

theorem openRows_map (node : α → Node) {f : α → α} (hAlone : ∀ x, node (f x) = (node x).alone)
    (thresholds : Thresholds) (siblings : List α) :
    openRows node thresholds (siblings.map f) =
      (openRows node thresholds siblings).map (Row.map f) := by
  refine foldl_map_eq_map (h := List.map (Row.map f)) (fun rows x => ?_) siblings []
  show joinRow (node (f x)).box.centerY (rowReach thresholds (node (f x)).box) _ _ = _
  rw [hAlone]
  exact joinRow_map f _ _ x rows

theorem groupIntoRows_map (node : α → Node) {f : α → α}
    (hAlone : ∀ x, node (f x) = (node x).alone) (thresholds : Thresholds) (siblings : List α) :
    groupIntoRows node thresholds (siblings.map f) =
      (groupIntoRows node thresholds siblings).map (List.map f) := by
  rw [groupIntoRows, groupIntoRows, openRows_map node hAlone, sortRows_map, List.map_map,
    List.map_map]
  rfl

end Pagewright.Design
