import Pagewright.Import.Frame
import Pagewright.Proofs.Classify.Texts
import Pagewright.Proofs.Classify.WellFormed

/-!
# What an import gives

A frame is unwrapped after it is classified: a container around everything is
left out, and its blocks stand in a section. A frame that shows nothing is
imported as its name. Neither step loses a text or lets anything empty through.

## Main results

* `isFrame_iff` — which documents are frames.
* `texts_importFrame` — the texts of a bare frame are those of its import.
* `wellFormed_importFrame` — an import is a section of well-formed blocks.
-/

namespace Pagewright.Import

open Design (Thresholds)
open Classify (classify textsOf)

variable {thresholds : Thresholds} {document : Json}

/-! ## Frames -/

/-- A document of a frame: an object with the type of a frame, in any letter case
and with blanks around it. -/
def IsFrame (document : Json) : Prop :=
  ∃ fields tag, document = .obj fields ∧ Json.lookup "type" fields = some (.str tag) ∧
    Text.upper (Text.trimmed tag) = "FRAME"

theorem ofTag_eq_frame_iff {tag : String} :
    Design.NodeType.ofTag tag = .frame ↔ Text.upper (Text.trimmed tag) = "FRAME" := by
  unfold Design.NodeType.ofTag
  split <;> simp_all

theorem type_readNode (fields : Json.Fields) :
    (Design.readNode (.obj fields)).type =
      Design.NodeType.ofTag ((Design.textAt fields "type").getD "") := by
  rw [Design.readNode, Design.nodeOf]

theorem lookup_of_textAt {fields : Json.Fields} {key text : String}
    (hText : Design.textAt fields key = some text) :
    Json.lookup key fields = some (.str text) := by
  obtain ⟨value, hValue, hRead⟩ := Option.bind_eq_some_iff.1 hText
  rw [hValue]
  cases value with
  | str => exact congrArg (some ∘ Json.str) (Option.some.inj hRead)
  | _ => cases hRead

/-- The documents of frames are the objects that read as frames. -/
theorem isFrame_iff :
    IsFrame document ↔
      document.isObject = true ∧ (Design.readNode document).type = .frame := by
  constructor
  · rintro ⟨fields, tag, rfl, hTag, hFrame⟩
    refine ⟨rfl, ?_⟩
    rw [type_readNode, Design.textAt, hTag]
    exact ofTag_eq_frame_iff.2 hFrame
  · rintro ⟨hObject, hType⟩
    cases document with
    | obj fields =>
      rw [type_readNode, ofTag_eq_frame_iff] at hType
      cases hTag : Design.textAt fields "type" with
      | none =>
        rw [hTag] at hType
        exact absurd hType (by decide)
      | some tag =>
        rw [hTag] at hType
        exact ⟨fields, tag, rfl, lookup_of_textAt hTag, hType⟩
    | _ => cases hObject

theorem importFrame_of_isFrame (thresholds : Thresholds) (hFrame : IsFrame document) :
    importFrame thresholds document = .ok (.section none
      (blocks (Design.readNode document) (classify thresholds (Design.readNode document)))) := by
  obtain ⟨hObject, hType⟩ := isFrame_iff.1 hFrame
  rw [importFrame, if_pos hObject]
  exact if_pos hType

theorem importFrame_of_not_isFrame (thresholds : Thresholds) (hOther : ¬IsFrame document) :
    importFrame thresholds document =
      .error (if document.isObject then .notAFrame (declaredType document)
        else .notAnObject) := by
  rw [importFrame]
  split
  · rename_i hObject
    exact if_neg fun hType => hOther (isFrame_iff.2 ⟨hObject, hType⟩)
  · rfl

/-! ## Texts -/

/-- The blocks of a frame that shows something say what its layout says. -/
theorem texts_blocks (frame : Design.Node) (layout : Layout.Node) :
    (blocks frame (some layout)).flatMap Layout.Node.texts = layout.texts := by
  cases layout with
  | «section» style children => exact (Layout.Node.texts_section style children).symm
  | container style children => exact (Layout.Node.texts_container style children).symm
  | _ => exact List.flatMap_singleton _ _

/-- On a bare design and on its layout the same texts are read, and so they are on a
bare frame and on its import, unless the frame shows nothing and is imported as its
name. -/
theorem texts_importFrame (thresholds : Thresholds) :
    (∀ node : Design.Node, node.Bare → (textsOf (classify thresholds node)).Perm node.texts) ∧
    ∀ document, IsFrame document → (Design.readNode document).Bare →
      ∃ layout, importFrame thresholds document = .ok layout ∧
        match classify thresholds (Design.readNode document) with
        | some _ => layout.texts.Perm (Design.readNode document).texts
        | none =>
          let name := Text.trimmed (Design.readNode document).name
          layout = .section none [.text (if name = "" then "Imported frame" else name) none] := by
  refine ⟨Classify.texts_classify thresholds, fun document hFrame hBare => ?_⟩
  refine ⟨_, importFrame_of_isFrame thresholds hFrame, ?_⟩
  have hTexts := Classify.texts_classify thresholds _ hBare
  cases hLayout : classify thresholds (Design.readNode document) with
  | none => rfl
  | some layout =>
    rw [hLayout] at hTexts
    show (Layout.Node.section none _).texts.Perm _
    rw [Layout.Node.texts_section, texts_blocks]
    exact hTexts

/-- A text with blanks around it. -/
def captionDocument : Json := .obj [("characters", .str " Sale "), ("type", .str "TEXT")]

/-- A frame with a text over a shape. -/
def posterDocument : Json :=
  .obj [("children", .arr [.obj [("type", .str "RECTANGLE")], captionDocument]),
    ("type", .str "Frame")]

theorem isFrame_poster : IsFrame posterDocument := ⟨_, "Frame", rfl, rfl, by decide⟩

theorem texts_importFrame_poster :
    ∃ layout, importFrame {} posterDocument = .ok layout ∧ layout.texts.Perm ["Sale"] := by
  have hBare : (Design.readNode posterDocument).Bare := by
    unfold Design.Node.Bare
    decide
  have hTexts : (Design.readNode posterDocument).texts = ["Sale"] := by decide
  obtain ⟨hDesigns, hFrames⟩ := texts_importFrame {}
  obtain ⟨layout, hImport, hRead⟩ := hFrames posterDocument isFrame_poster hBare
  refine ⟨layout, hImport, ?_⟩
  have hPerm := hDesigns (Design.readNode posterDocument) hBare
  rw [hTexts] at hPerm hRead
  cases hLayout : classify {} (Design.readNode posterDocument) with
  | none =>
    rw [hLayout] at hPerm
    exact absurd hPerm.length_eq (by decide)
  | some classified =>
    rw [hLayout] at hRead
    exact hRead

/-! ## Well-formed layouts -/

theorem isBlankText_frameLabel (frame : Design.Node) :
    Text.isBlankText (frameLabel frame) = false := by
  unfold frameLabel
  simp only
  split
  · decide
  · rename_i hName
    rw [Text.isBlankText_trimmed]
    exact Bool.eq_false_iff.2 fun hBlank => hName (Text.trimmed_eq_empty_iff.2 hBlank)

theorem blocks_wellFormed (frame : Design.Node) {classified : Option Layout.Node}
    (hClassified : ∀ layout, classified = some layout → layout.WellFormed) :
    blocks frame classified ≠ [] ∧ ∀ block ∈ blocks frame classified, block.WellFormed := by
  cases classified with
  | none =>
    refine ⟨List.cons_ne_nil _ _, List.forall_mem_singleton.2 ?_⟩
    refine Layout.Node.wellFormed_leaf rfl ?_ trivial
    show (!Text.isBlankText (frameLabel frame)) = true
    rw [isBlankText_frameLabel]
    rfl
  | some layout =>
    have hLayout := hClassified layout rfl
    cases layout with
    | «section» => exact (hLayout _ (Layout.Node.mem_preorder_self _)).2.elim
    | container style children =>
      exact ⟨(hLayout _ (Layout.Node.mem_preorder_self _)).2, hLayout.child_container⟩
    | _ => exact ⟨List.cons_ne_nil _ _, List.forall_mem_singleton.2 hLayout⟩

/-- Exactly the documents of frames are imported. An import is a section without a
style around well-formed blocks, at least one, and no node in it is without content.
Every classified layout is well-formed. -/
theorem wellFormed_importFrame (thresholds : Thresholds) :
    (∀ document : Json,
      (IsFrame document → ∃ children,
        importFrame thresholds document = .ok (.section none children) ∧ children ≠ [] ∧
          (∀ x ∈ (Layout.Node.section none children).preorder, x.hasContent = true) ∧
            ∀ child ∈ children, child.WellFormed) ∧
      (¬IsFrame document → importFrame thresholds document =
        .error (if document.isObject then .notAFrame (declaredType document)
          else .notAnObject))) ∧
    ∀ node layout, classify thresholds node = some layout → layout.WellFormed := by
  refine ⟨fun document => ⟨fun hFrame => ?_, importFrame_of_not_isFrame thresholds⟩,
    Classify.wellFormed_of_classify thresholds⟩
  obtain ⟨hNonempty, hBlocks⟩ := blocks_wellFormed (Design.readNode document)
    (Classify.wellFormed_of_classify thresholds (Design.readNode document))
  refine ⟨_, importFrame_of_isFrame thresholds hFrame, hNonempty, fun x hMem => ?_, hBlocks⟩
  rcases Layout.Node.mem_preorder_section.1 hMem with rfl | ⟨block, hBlock, hInside⟩
  · exact Layout.Node.anyContent_of_wellFormed hNonempty hBlocks
  · exact (hBlocks block hBlock x hInside).1

theorem wellFormed_importFrame_poster :
    (∃ children, importFrame {} posterDocument = .ok (.section none children) ∧
      children ≠ [] ∧ ∀ child ∈ children, child.WellFormed) ∧
    importFrame {} captionDocument = .error (.notAFrame "TEXT") ∧
    ∃ layout, classify {} (Design.readNode captionDocument) = some layout ∧
      layout.WellFormed := by
  obtain ⟨hDocuments, hDesigns⟩ := wellFormed_importFrame {}
  have hCaption : ¬IsFrame captionDocument := by
    rw [isFrame_iff]
    decide
  have hShown : classify {} (Design.readNode captionDocument) ≠ none := by
    rw [Classify.classify_text (by decide), Ne, Classify.text?_eq_none_iff]
    decide
  obtain ⟨children, hImport, hNonempty, -, hChildren⟩ :=
    (hDocuments posterDocument).1 isFrame_poster
  obtain ⟨layout, hLayout⟩ := Option.ne_none_iff_exists'.1 hShown
  exact ⟨⟨children, hImport, hNonempty, hChildren⟩, (hDocuments captionDocument).2 hCaption,
    layout, hLayout, hDesigns _ layout hLayout⟩

end Pagewright.Import
