import Pagewright.Proofs.Page.Build
import Pagewright.Proofs.Page.Split

/-!
# The shape of an exported page

Apart from ids a page is determined by one block: the element of the root, in a
holder of the dialect where the root is a leaf. The passes then work on that
block alone. `pageShape` puts this together; `unlabelled_content` says that it
is the exported page without its ids, so that everything about pages that does
not concern ids can be shown of `pageShape`.

## Main results

* `unlabelled_content` — the exported page without its ids.
* `length_content` — a page has a block exactly when the layout has content.
-/

namespace Pagewright.Page

open Layout

variable {d : Dialect}

/-- The block around a leaf at the top of a page, without ids. -/
def Dialect.holder (d : Dialect) (e : Element Unit) : Element Unit :=
  match d with
  | .container => Element.ofContainer () false [] [e]
  | _ => Element.ofSection () false [] [Element.ofColumn () [] [e]]

/-- The block that a page starts from, without ids. -/
def rootBlock (d : Dialect) (layout : Node) : Option (Element Unit) :=
  (build d rootPath 0 layout).map fun e =>
    if e.kind = d.topLevel then e.unlabelled else d.holder e.unlabelled

/-- What the passes make of a block, without ids. -/
def passShape (d : Dialect) (block : Element Unit) : List (Element Unit) :=
  match d with
  | .classic => [flattenElement block]
  | .classicSimple => (splitShape block).map flattenElement
  | .container => [block]

/-- A page without ids. -/
def pageShape (d : Dialect) (layout : Node) : List (Element Unit) :=
  (rootBlock d layout).toList.flatMap (passShape d)

theorem rootBlock_isSome (layout : Node) :
    (rootBlock d layout).isSome = layout.hasContent := by
  rw [rootBlock, Option.isSome_map, build_isSome]

theorem unlabelled_wrapLeaf (index : Nat) (e : Element String) (issued : Issued) :
    (wrapLeaf d index e issued).1.unlabelled = d.holder e.unlabelled := by
  cases d with
  | container => rfl
  | classic | classicSimple => rfl

theorem unlabelled_applyPasses (block : Element String) (issued : Issued) :
    (applyPasses d [block] issued).map Element.unlabelled = passShape d block.unlabelled := by
  cases d with
  | container => rfl
  | classic =>
    rw [applyPasses, flatten, flattenAll_eq_map, passShape, Element.unlabelled,
      flattenElement_map]
    rfl
  | classicSimple =>
    have hSplit := unlabelled_splitElement 0 block issued
    rw [applyPasses, flatten, flattenAll_eq_map, split, splitFrom, splitFrom,
      List.append_nil, List.map_map, passShape, Element.unlabelled, splitShape_map,
      ← hSplit, List.map_map]
    exact List.map_congr_left fun e _ => (flattenElement_map _ e).symm

/-- The exported page without its ids. -/
theorem unlabelled_content (layout : Node) :
    (content d layout).map Element.unlabelled = pageShape d layout := by
  unfold content pageShape rootBlock
  cases build d rootPath 0 layout with
  | none => cases d <;> rfl
  | some e =>
    have hTree : (Element.assign e {}).1.unlabelled = e.unlabelled :=
      Element.unlabelled_assign e {}
    have hKind : (Element.assign e {}).1.kind = e.kind := by
      simpa [Element.unlabelled] using congrArg Element.kind hTree
    simp only [Option.toList_some, Element.assignAll, normalize, hKind, Option.map_some,
      List.flatMap_cons, List.flatMap_nil, List.append_nil]
    split
    · rw [unlabelled_applyPasses, hTree]
    · rw [unlabelled_applyPasses, unlabelled_wrapLeaf, hTree]

/-- No pass leaves nothing of a block. -/
theorem passShape_ne_nil (block : Element Unit) : passShape d block ≠ [] := by
  cases d with
  | container | classic => exact List.cons_ne_nil _ _
  | classicSimple => exact fun hNil => splitShape_ne_nil block (List.map_eq_nil_iff.1 hNil)

/-- The number of blocks of a page: none without content, else one unless it is split. -/
theorem length_content (layout : Node) :
    (content d layout = [] ↔ layout.hasContent = false) ∧
      (d = .classicSimple ∨
        (content d layout).length = if layout.hasContent then 1 else 0) := by
  have hSome := rootBlock_isSome (d := d) layout
  rw [← List.map_eq_nil_iff (f := Element.unlabelled), ← List.length_map Element.unlabelled,
    unlabelled_content, pageShape, ← hSome]
  cases rootBlock d layout with
  | none => exact ⟨⟨fun _ => rfl, fun _ => rfl⟩, .inr rfl⟩
  | some block =>
    rw [Option.toList_some, List.flatMap_singleton]
    refine ⟨⟨fun hNil => absurd hNil (passShape_ne_nil block), nofun⟩, ?_⟩
    cases d with
    | classicSimple => exact .inl rfl
    | classic | container => exact .inr rfl

end Pagewright.Page
