import Pagewright.Page.Split
import Pagewright.Proofs.Page.Tree

/-!
# What splitting does to one section

A section is split when it is plain, has one column, and that column holds more
than one block. Splitting replaces it by one section for every block: an inner
section comes to the top level as it is, and a run of other elements gets a
section and a column of its own. `splitShape` says this without ids.

## Main results

* `blocks_proper` — runs are not empty and hold no inner section.
* `length_blocks_le_one_iff` — what one block at most means.
* `unlabelled_splitElement` — apart from ids a split gives `splitShape`.
* `flatMap_sections` — a view that passes through plain wrappers passes through a split.
-/

namespace Pagewright.Page

variable {ι : Type}

/-! ## Blocks -/

/-- A block is an inner section, or a run of other elements that is not empty. -/
def Block.Proper : Block ι → Prop
  | .promoted e => e.isInnerSection = true
  | .run elements => elements ≠ [] ∧ ∀ e ∈ elements, e.isInnerSection = false

private theorem proper_run {buffer : List (Element ι)} (hEmpty : buffer.isEmpty = false)
    (hBuffer : ∀ e ∈ buffer, e.isInnerSection = false) : (Block.run buffer).Proper := by
  refine ⟨fun hNil => ?_, hBuffer⟩
  simp [hNil] at hEmpty

theorem blocksFrom_proper (es : List (Element ι)) :
    ∀ buffer : List (Element ι), (∀ e ∈ buffer, e.isInnerSection = false) →
      ∀ block ∈ blocksFrom buffer es, block.Proper := by
  induction es with
  | nil =>
    intro buffer hBuffer block hMem
    cases hEmpty : buffer.isEmpty with
    | true => simp [blocksFrom, hEmpty] at hMem
    | false =>
      have hBlock : block = .run buffer := by simpa [blocksFrom, hEmpty] using hMem
      exact hBlock ▸ proper_run hEmpty hBuffer
  | cons e rest ih =>
    intro buffer hBuffer block hMem
    cases hInner : e.isInnerSection with
    | false =>
      rw [blocksFrom, if_neg (by simp [hInner])] at hMem
      refine ih (buffer ++ [e]) (fun x hx => ?_) block hMem
      rcases List.mem_append.1 hx with hOld | hNew
      · exact hBuffer x hOld
      · exact List.mem_singleton.1 hNew ▸ hInner
    | true =>
      rw [blocksFrom, if_pos hInner, List.mem_append, List.mem_cons] at hMem
      rcases hMem with hRun | rfl | hRest
      · cases hEmpty : buffer.isEmpty with
        | true => simp [hEmpty] at hRun
        | false =>
          have hBlock : block = .run buffer := by simpa [hEmpty] using hRun
          exact hBlock ▸ proper_run hEmpty hBuffer
      · exact hInner
      · exact ih [] (fun _ hNil => absurd hNil List.not_mem_nil) block hRest

/-- Runs are not empty and hold no inner section. -/
theorem blocks_proper (es : List (Element ι)) : ∀ block ∈ blocks es, block.Proper :=
  blocksFrom_proper es [] fun _ hNil => absurd hNil List.not_mem_nil

theorem Block.Proper.members_ne_nil {block : Block ι} (h : block.Proper) :
    block.members ≠ [] := by
  cases block with
  | promoted e => exact List.cons_ne_nil e []
  | run elements => exact h.1

/-- Every block takes at least one of the elements. -/
theorem length_blocks_le (es : List (Element ι)) : (blocks es).length ≤ es.length := by
  have hCount : ∀ bs : List (Block ι), (∀ block ∈ bs, block.Proper) →
      bs.length ≤ (bs.flatMap Block.members).length := by
    intro bs
    induction bs with
    | nil => intro _; exact Nat.le_refl _
    | cons block rest ih =>
      intro hProper
      have hRest := ih fun other hMem => hProper other (List.mem_cons_of_mem block hMem)
      have hPos := List.length_pos_iff.2 (hProper block List.mem_cons_self).members_ne_nil
      rw [List.flatMap_cons, List.length_append, List.length_cons]
      omega
  have h := hCount (blocks es) (blocks_proper es)
  rwa [blocks_members] at h

theorem blocksFrom_of_no_section (es : List (Element ι)) :
    ∀ buffer : List (Element ι), (∀ e ∈ es, e.isInnerSection = false) →
      blocksFrom buffer es = if (buffer ++ es).isEmpty then [] else [.run (buffer ++ es)] := by
  induction es with
  | nil => intro buffer _; rw [blocksFrom, List.append_nil]
  | cons e rest ih =>
    intro buffer hNone
    have hInner := hNone e List.mem_cons_self
    rw [blocksFrom, if_neg (by simp [hInner]),
      ih (buffer ++ [e]) fun x hx => hNone x (List.mem_cons_of_mem e hx),
      List.append_assoc, List.singleton_append]

/-- There is one block at most when there is one element at most, or no inner section. -/
theorem length_blocks_le_one_iff (es : List (Element ι)) :
    (blocks es).length ≤ 1 ↔ es.length ≤ 1 ∨ ∀ e ∈ es, e.isInnerSection = false := by
  constructor
  · intro hLength
    have hMembers := blocks_members es
    have hProper := blocks_proper es
    match hBlocks : blocks es with
    | [] =>
      rw [hBlocks] at hMembers
      left
      rw [← hMembers]
      exact Nat.zero_le 1
    | [.promoted e] =>
      rw [hBlocks] at hMembers
      left
      rw [← hMembers]
      exact Nat.le_refl 1
    | [.run elements] =>
      rw [hBlocks] at hMembers hProper
      right
      rw [← hMembers]
      simpa [Block.members] using (hProper _ List.mem_cons_self).2
    | _ :: _ :: _ =>
      rw [hBlocks] at hLength
      simp at hLength
  · rintro (hShort | hNone)
    · exact Nat.le_trans (length_blocks_le es) hShort
    · rw [blocks, blocksFrom_of_no_section es [] hNone]
      split <;> simp

/-- Several blocks are several elements, one of them an inner section. -/
theorem one_lt_blockCount_iff {es : List (Element ι)} :
    1 < blockCount es ↔ 1 < es.length ∧ ∃ e ∈ es, e.isInnerSection = true := by
  rw [← Nat.not_le, ← length_blocks, length_blocks_le_one_iff, not_or, Nat.not_le]
  simp

/-! ## Sections of blocks -/

/-- The section that a block becomes, without ids. -/
def Block.toSection : Block ι → Element Unit
  | .promoted e => { e.unlabelled with inner := false }
  | .run elements =>
    Element.ofSection () false []
      [Element.ofColumn () [] (elements.map Element.unlabelled)]

theorem unlabelled_sectionsOf (index : Nat) (bs : List (Block String)) :
    ∀ (position : Nat) (issued : Issued),
      (sectionsOf index position bs issued).1.map Element.unlabelled =
        bs.map Block.toSection := by
  induction bs with
  | nil => intro position issued; rfl
  | cons block rest ih =>
    intro position issued
    cases block with
    | promoted e =>
      simp only [sectionsOf, List.map_cons, ih]
      rw [Block.toSection, Element.unlabelled, Element.unlabelled, Element.map_eq,
        Element.map_eq]
    | run elements =>
      simp only [sectionsOf, List.map_cons, ih]
      rw [Block.toSection, Element.ofSection, Element.ofColumn, Element.unlabelled,
        Element.map_eq, List.map_singleton, Element.map_eq]
      rfl

theorem soleColumn?_eq_some_iff {e : Element ι} {elements : List (Element ι)} :
    soleColumn? e = some elements ↔
      e.kind = .section ∧ e.inner = false ∧ e.settings = [] ∧
        ∃ column, e.elements = [column] ∧ column.kind = .column ∧
          column.elements = elements := by
  unfold soleColumn?
  constructor
  · intro h
    split at h
    · rename_i hPlain
      simp only [Bool.and_eq_true, beq_iff_eq, Bool.not_eq_true', List.isEmpty_iff] at hPlain
      split at h
      · rename_i column hElements
        split at h
        · rename_i hKind
          exact ⟨hPlain.1.1, hPlain.1.2, hPlain.2, column, hElements, hKind,
            Option.some.inj h⟩
        · cases h
      · cases h
    · cases h
  · rintro ⟨hKind, hInner, hSettings, column, hElements, hColumn, rfl⟩
    simp [hKind, hInner, hSettings, hElements, hColumn]

/-! ## A split without ids -/

/-- The sections that stand for a section after a split, without ids. -/
def splitShape (e : Element ι) : List (Element Unit) :=
  match soleColumn? e with
  | some elements =>
    if (blocks elements).length ≤ 1 then [e.unlabelled]
    else (blocks elements).map Block.toSection
  | none => [e.unlabelled]

theorem splitShape_ne_nil (e : Element ι) : splitShape e ≠ [] := by
  unfold splitShape
  split
  · split
    · exact List.cons_ne_nil _ _
    · rename_i hBlocks
      intro hNil
      rw [List.map_eq_nil_iff.1 hNil] at hBlocks
      exact hBlocks (Nat.zero_le 1)
  · exact List.cons_ne_nil _ _

theorem unlabelled_splitElement (index : Nat) (e : Element String) (issued : Issued) :
    (splitElement index e issued).1.map Element.unlabelled = splitShape e := by
  unfold splitElement splitShape
  cases soleColumn? e with
  | none => rfl
  | some elements =>
    simp only [← length_blocks]
    split
    · rfl
    · exact unlabelled_sectionsOf index (blocks elements) 0 issued

/-! Labels play no part in a split. -/

/-- A block with other labels. -/
def Block.map {κ : Type} (f : ι → κ) : Block ι → Block κ
  | .promoted e => .promoted (Element.map f e)
  | .run elements => .run (elements.map (Element.map f))

theorem blocksFrom_map {κ : Type} (f : ι → κ) (es : List (Element ι)) :
    ∀ buffer : List (Element ι),
      blocksFrom (buffer.map (Element.map f)) (es.map (Element.map f)) =
        (blocksFrom buffer es).map (Block.map f) := by
  induction es with
  | nil => intro buffer; cases buffer <;> rfl
  | cons e rest ih =>
    intro buffer
    rw [List.map_cons, blocksFrom, blocksFrom, Element.map_isInnerSection]
    split
    · have hRest := ih []
      rw [List.map_nil] at hRest
      rw [hRest, List.map_append, List.map_cons]
      cases buffer <;> rfl
    · have hRest := ih (buffer ++ [e])
      rwa [List.map_append, List.map_singleton] at hRest

theorem Block.toSection_map {κ : Type} (f : ι → κ) (block : Block ι) :
    (block.map f).toSection = block.toSection := by
  cases block with
  | promoted e => rw [Block.map, Block.toSection, Block.toSection, Element.unlabelled_map]
  | run elements =>
    have hElements : (elements.map (Element.map f)).map Element.unlabelled =
        elements.map Element.unlabelled := by
      rw [List.map_map]
      exact List.map_congr_left fun e _ => Element.unlabelled_map f e
    rw [Block.map, Block.toSection, Block.toSection, hElements]

theorem soleColumn?_map {κ : Type} (f : ι → κ) (e : Element ι) :
    soleColumn? (Element.map f e) = (soleColumn? e).map (List.map (Element.map f)) := by
  unfold soleColumn?
  rw [Element.map_kind, Element.map_inner, Element.map_settings, Element.map_elements]
  split
  · match e.elements with
    | [] => rfl
    | [column] => simp only [List.map_cons, List.map_nil, Element.map_kind]; split <;> simp
    | _ :: _ :: _ => rfl
  · rfl

theorem splitShape_map {κ : Type} (f : ι → κ) (e : Element ι) :
    splitShape (Element.map f e) = splitShape e := by
  unfold splitShape
  rw [soleColumn?_map, Element.unlabelled_map]
  cases soleColumn? e with
  | none => rfl
  | some elements =>
    have hBlocks : blocks (elements.map (Element.map f)) = (blocks elements).map (Block.map f) :=
      blocksFrom_map f elements []
    have hSections : ((blocks elements).map (Block.map f)).map Block.toSection =
        (blocks elements).map Block.toSection := by
      rw [List.map_map]
      exact List.map_congr_left fun block _ => Block.toSection_map f block
    simp only [Option.map_some, hBlocks, List.length_map, hSections]

/-! ## Views of a split -/

/-- A view that does not see inner flags and plain wrappers sees in the sections
of blocks what it sees in their elements. -/
theorem flatMap_sections {α : Type} {view : Element Unit → List α}
    (hInner : ∀ e : Element Unit, view { e with inner := false } = view e)
    (hPlain : ∀ elements, view (Element.ofSection () false []
      [Element.ofColumn () [] elements]) = elements.flatMap view)
    (elements : List (Element ι)) :
    ((blocks elements).map Block.toSection).flatMap view =
      (elements.map Element.unlabelled).flatMap view := by
  have hBlock : ∀ block ∈ blocks elements,
      view block.toSection = (block.members.map Element.unlabelled).flatMap view := by
    intro block _
    cases block with
    | promoted e => simp [Block.toSection, Block.members, hInner]
    | run run => rw [Block.toSection, Block.members, hPlain]
  calc ((blocks elements).map Block.toSection).flatMap view
      = (blocks elements).flatMap fun block =>
          (block.members.map Element.unlabelled).flatMap view := by
        rw [List.flatMap_map]; exact List.flatMap_congr hBlock
    _ = (((blocks elements).flatMap Block.members).map Element.unlabelled).flatMap view := by
        rw [List.map_flatMap, List.flatMap_assoc]
    _ = (elements.map Element.unlabelled).flatMap view := by rw [blocks_members]

end Pagewright.Page
