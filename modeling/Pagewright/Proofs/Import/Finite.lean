import Pagewright.Proofs.Classify.Finite
import Pagewright.Proofs.Import.Frame

/-!
# An import can be stored and read again

Whatever a document holds in the place of numbers, texts that spell them or
numbers out of all range, only finite numbers are taken over. So no number of
an import is lost when it is written out, and the import is read back as it
was. A heading level and a font weight are held in the width that their
readers ask for.

## Main results

* `readNode_importFrame` — every import is finite and is read back.
-/

namespace Pagewright.Import

open Design (Thresholds)
open Classify (classify)

variable {thresholds : Thresholds} {document : Json} {layout : Layout.Node}

/-- An import is the section of the blocks of a frame. -/
theorem eq_of_importFrame (hImport : importFrame thresholds document = .ok layout) :
    layout = .section none
      (blocks (Design.readNode document) (classify thresholds (Design.readNode document))) := by
  by_cases hFrame : IsFrame document
  · rw [importFrame_of_isFrame thresholds hFrame] at hImport
    exact (Except.ok.inj hImport).symm
  · rw [importFrame_of_not_isFrame thresholds hFrame] at hImport
    cases hImport

theorem blocks_finite (frame : Design.Node) {classified : Option Layout.Node}
    (hWellFormed : ∀ layout, classified = some layout → layout.WellFormed)
    (hFinite : ∀ layout, classified = some layout → layout.Finite) :
    ∀ block ∈ blocks frame classified, block.Finite := by
  cases classified with
  | none =>
    refine List.forall_mem_singleton.2 ?_
    exact (Layout.Node.finite_leaf_iff rfl).2 Classify.finite_none
  | some layout =>
    have hLayout := hFinite layout rfl
    cases layout with
    | «section» =>
      exact (hWellFormed _ rfl _ (Layout.Node.mem_preorder_self _)).2.elim
    | container => exact (Layout.Node.finite_container_iff.1 hLayout).2
    | _ => exact List.forall_mem_singleton.2 hLayout

/-- All numbers of an import are finite, and what is stored of it is read as the import:
nothing of what a document held in the place of a number makes it unreadable. -/
theorem readNode_importFrame (hImport : importFrame thresholds document = .ok layout) :
    (∀ x ∈ layout.numbers, x.isFinite = true) ∧
      Layout.readNode layout.toJson.stored = .ok layout := by
  rw [eq_of_importFrame hImport]
  have hWellFormed := Classify.wellFormed_of_classify thresholds (Design.readNode document)
  have hClassified := Classify.finite_of_classify thresholds _ (Design.finite_readNode document)
  have hBlocks := (blocks_wellFormed (Design.readNode document) hWellFormed).2
  have hFinite := Layout.Node.finite_section Classify.finite_none
    (blocks_finite (Design.readNode document) hWellFormed hClassified)
  refine ⟨hFinite, Layout.readNode_stored hFinite fun x hMem => ?_⟩
  rcases Layout.Node.mem_preorder_section.1 hMem with rfl | ⟨block, hBlock, hInside⟩
  · rfl
  · exact Classify.isUnknown_of_sound (hBlocks block hBlock x hInside).2

/-- A stack with a gap that is no finite number and a padding that is spelled out. -/
def looseDocument : Json :=
  .obj [("children", .arr [captionDocument]), ("itemSpacing", .str "inf"),
    ("layoutMode", .str "VERTICAL"), ("paddingTop", .str " 12 "), ("type", .str "FRAME")]

theorem isFrame_loose : IsFrame looseDocument := ⟨_, "FRAME", rfl, rfl, by decide⟩

theorem readNode_importFrame_loose :
    ∃ layout, importFrame {} looseDocument = .ok layout ∧
      (∀ x ∈ layout.numbers, x.isFinite = true) ∧
        Layout.readNode layout.toJson.stored = .ok layout := by
  have hImport := importFrame_of_isFrame {} isFrame_loose
  exact ⟨_, hImport, readNode_importFrame hImport⟩

end Pagewright.Import
