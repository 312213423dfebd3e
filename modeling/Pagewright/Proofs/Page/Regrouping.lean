import Mathlib.Data.List.Chain
import Pagewright.Proofs.Page.Split

/-!
# What splitting does to a page

Splitting looks at the elements of a page one by one. A plain section with one
column is taken apart when that column has more than one block; every other
element stays. The sections that stand for a column after a split are new ones
around runs of loose elements and inner sections that were promoted. Put back
in their place they are the column: nothing is lost and nothing is moved, and
runs are as long as they can be.

The scan that counts blocks and the scan that takes them are two functions;
`length_blocks` says that they agree.

## Main results

* `isChain_blocks` — no run directly follows another.
* `exists_topSections` — the sections of blocks, told apart by where they come from.
* `split_regroups` — a split regroups every element of a page on its own.
-/

namespace Pagewright.Page

variable {ι : Type}

/-! ## Runs -/

/-- Whether a block is a run of loose elements. -/
def Block.isRun : Block ι → Bool
  | .promoted _ => false
  | .run _ => true

/-- A run goes on until the next inner section, so that no run follows another. -/
theorem isChain_blocksFrom (es : List (Element ι)) : ∀ buffer : List (Element ι),
    (blocksFrom buffer es).IsChain fun first next => ¬(first.isRun ∧ next.isRun) := by
  induction es with
  | nil => intro buffer; cases buffer <;> simp [blocksFrom]
  | cons e rest ih =>
    intro buffer
    rw [blocksFrom]
    split
    · have hRest : (Block.promoted e :: blocksFrom [] rest).IsChain
          fun first next => ¬(first.isRun ∧ next.isRun) :=
        (ih []).cons fun next _ hBoth => Bool.false_ne_true hBoth.1
      cases buffer with
      | nil => exact hRest
      | cons first others =>
        refine hRest.cons fun next hNext hBoth => ?_
        rw [← Option.some.inj hNext] at hBoth
        exact Bool.false_ne_true hBoth.2
    · exact ih (buffer ++ [e])

theorem isChain_blocks (es : List (Element ι)) :
    (blocks es).IsChain fun first next => ¬(first.isRun ∧ next.isRun) :=
  isChain_blocksFrom es []

/-! ## Sections at the top -/

/-- A section that stands at the top level after a split: a new one around loose
elements, or one that was promoted from a column. -/
inductive TopSection (ι : Type) where
  | synthetic (e : Element ι)
  | promoted (e : Element ι)

namespace TopSection

/-- The section itself. -/
def element : TopSection ι → Element ι
  | synthetic e => e
  | promoted e => e

/-- Whether a section is a new one. -/
def isSynthetic : TopSection ι → Bool
  | synthetic _ => true
  | promoted _ => false

/-- What stood in the column in the place of a section. -/
def restored : TopSection ι → List (Element ι)
  | synthetic e => e.elements.flatMap (·.elements)
  | promoted e => [{ e with inner := true }]

/-- A new section is plain and has one plain column with at least one element,
none of which is an inner section. A promoted one is no inner section any more. -/
def Proper : TopSection ι → Prop
  | synthetic e => ∃ outer column elements,
      e = Element.ofSection outer false [] [Element.ofColumn column [] elements] ∧
        elements ≠ [] ∧ ∀ inside ∈ elements, inside.isInnerSection = false
  | promoted e => e.kind = .section ∧ e.inner = false

/-- All sections at the top are outer ones. -/
theorem Proper.outer {s : TopSection ι} (h : s.Proper) :
    s.element.kind = .section ∧ s.element.inner = false := by
  cases s with
  | promoted e => exact h
  | synthetic e =>
    obtain ⟨outer, column, elements, rfl, -⟩ := h
    exact ⟨rfl, rfl⟩

end TopSection

theorem with_inner_of_isInnerSection {e : Element ι} (hInner : e.isInnerSection = true) :
    e.kind = .section ∧ ({ e with inner := true } : Element ι) = e := by
  simp only [Element.isInnerSection, Bool.and_eq_true, beq_iff_eq] at hInner
  cases e
  exact ⟨hInner.1, congrArg (Element.mk _ _ _ · _ _) hInner.2.symm⟩

/-- The sections of blocks, told apart by where they come from. -/
theorem exists_topSections (index : Nat) (bs : List (Block String)) :
    (∀ block ∈ bs, block.Proper) → ∀ (position : Nat) (issued : Issued),
      ∃ sections : List (TopSection String),
        sections.map (·.element) = (sectionsOf index position bs issued).1 ∧
        sections.flatMap (·.restored) = bs.flatMap Block.members ∧
        sections.map (·.isSynthetic) = bs.map Block.isRun ∧
        ∀ s ∈ sections, s.Proper := by
  induction bs with
  | nil => exact fun _ _ _ => ⟨[], rfl, rfl, rfl, nofun⟩
  | cons block rest ih =>
    intro hProper position issued
    have hOthers := ih fun other hMem => hProper other (List.mem_cons_of_mem block hMem)
    have hBlock := hProper block List.mem_cons_self
    cases block with
    | promoted e =>
      obtain ⟨sections, hElements, hRestored, hKinds, hAll⟩ := hOthers (position + 1) issued
      obtain ⟨hKind, hSame⟩ := with_inner_of_isInnerSection hBlock
      refine ⟨.promoted { e with inner := false } :: sections, ?_, ?_, ?_, ?_⟩
      · rw [List.map_cons, hElements]
        rfl
      · rw [List.flatMap_cons, List.flatMap_cons, hRestored]
        exact congrArg (fun first => [first] ++ rest.flatMap Block.members) hSame
      · rw [List.map_cons, List.map_cons, hKinds]
        rfl
      · exact List.forall_mem_cons.2 ⟨⟨hKind, rfl⟩, hAll⟩
    | run elements =>
      let outer := issued.allocate (runPath "section" index position)
      let column := outer.2.allocate (runPath "column" index position)
      obtain ⟨sections, hElements, hRestored, hKinds, hAll⟩ := hOthers (position + 1) column.2
      refine ⟨.synthetic (.ofSection outer.1 false [] [.ofColumn column.1 [] elements]) ::
        sections, ?_, ?_, ?_, ?_⟩
      · rw [List.map_cons, hElements]
        rfl
      · rw [List.flatMap_cons, List.flatMap_cons, hRestored]
        exact congrArg (· ++ rest.flatMap Block.members) (List.flatMap_singleton _ _)
      · rw [List.map_cons, List.map_cons, hKinds]
        rfl
      · exact List.forall_mem_cons.2 ⟨⟨outer.1, column.1, elements, rfl, hBlock⟩, hAll⟩

/-! ## Pages -/

/-- A plain section that is no inner one, around one column with the given elements. -/
def Element.IsSplittable (e : Element ι) (elements : List (Element ι)) : Prop :=
  e.kind = .section ∧ e.inner = false ∧ e.settings = [] ∧
    ∃ column, e.elements = [column] ∧ column.kind = .column ∧ column.elements = elements

/-- What may stand at the top level for an element after a split. -/
def Regrouped (e : Element String) (tops : List (Element String)) : Prop :=
  ((∀ elements, ¬e.IsSplittable elements) → tops = [e]) ∧
    ∀ elements, e.IsSplittable elements →
      tops.length = max 1 (blockCount elements) ∧
        (blockCount elements ≤ 1 → tops = [e]) ∧
        (1 < blockCount elements → ∃ sections : List (TopSection String),
          sections.map (·.element) = tops ∧
            sections.flatMap (·.restored) = elements ∧
            (sections.IsChain fun first next => ¬(first.isSynthetic ∧ next.isSynthetic)) ∧
            (∀ s ∈ sections, s.Proper) ∧
            ∀ top ∈ tops, top.kind = .section ∧ top.inner = false)

theorem regrouped_splitElement (index : Nat) (e : Element String) (issued : Issued) :
    Regrouped e (splitElement index e issued).1 := by
  have hSole (elements : List (Element String)) :
      e.IsSplittable elements ↔ soleColumn? e = some elements := soleColumn?_eq_some_iff.symm
  simp only [Regrouped, hSole]
  unfold splitElement
  constructor
  · intro hNone
    rw [Option.eq_none_iff_forall_ne_some.2 hNone]
  · intro elements hColumn
    rw [hColumn]
    by_cases hOne : blockCount elements ≤ 1
    · simp only [if_pos hOne]
      exact ⟨(Nat.max_eq_left hOne).symm, fun _ => trivial,
        fun hMany => absurd hOne (Nat.not_le.2 hMany)⟩
    · obtain ⟨sections, hElements, hRestored, hKinds, hProper⟩ :=
        exists_topSections index (blocks elements) (blocks_proper elements) 0 issued
      have hLength : sections.length = blockCount elements := by
        rw [← length_blocks, ← List.length_map (·.isSynthetic), hKinds, List.length_map]
      have hChain : sections.IsChain fun first next => ¬(first.isSynthetic ∧ next.isSynthetic) := by
        have hRuns := isChain_blocks elements
        rw [← List.isChain_map Block.isRun (R := fun a b => ¬(a = true ∧ b = true)), ← hKinds,
          List.isChain_map] at hRuns
        exact hRuns
      simp only [if_neg hOne]
      refine ⟨?_, fun hFew => absurd hFew hOne, fun _ => ⟨sections, hElements, ?_, hChain,
        hProper, ?_⟩⟩
      · rw [← hElements, List.length_map, hLength]
        exact (Nat.max_eq_right (Nat.le_of_not_le hOne)).symm
      · rw [hRestored, blocks_members]
      · rw [← hElements, List.forall_mem_map]
        exact fun s hMem => (hProper s hMem).outer

theorem regrouped_splitFrom (content : List (Element String)) : ∀ (index : Nat) (issued : Issued),
    ∃ parts, parts.flatten = (splitFrom index content issued).1 ∧
      List.Forall₂ Regrouped content parts := by
  induction content with
  | nil => exact fun _ _ => ⟨[], rfl, .nil⟩
  | cons e rest ih =>
    intro index issued
    obtain ⟨parts, hParts, hRegrouped⟩ := ih (index + 1) (splitElement index e issued).2
    refine ⟨(splitElement index e issued).1 :: parts, ?_,
      .cons (regrouped_splitElement index e issued) hRegrouped⟩
    rw [List.flatten_cons, hParts]
    rfl

/-- A split regroups the elements of a page one by one, in their order. Plain
sections with one column become one section for every block of the column, if
there are several; put back into the column these give what stood there before,
new sections are not empty, and no two of them are neighbours. All else stays. -/
theorem split_regroups (content : List (Element String)) (issued : Issued) :
    ∃ parts, parts.flatten = (split content issued).1 ∧
      List.Forall₂ Regrouped content parts :=
  regrouped_splitFrom content 0 issued

end Pagewright.Page
