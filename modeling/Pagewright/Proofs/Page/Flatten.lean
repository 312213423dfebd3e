import Mathlib.Logic.Relation
import Pagewright.Proofs.Page.Tree

/-!
# Flattening as rewriting

A single step takes one redundant wrapper out of a column, anywhere in a page.
Flattening works from the inside out, but the order of steps does not matter:
whether an element is redundant depends on its settings and on those of its
only column, and no step changes either. So every step keeps what a page is
flattened to, and a page without further steps is flattened already.

## Main results

* `isFlat_flatten` — a flattened page has no redundant wrapper in any column.
* `flattenElement_of_isFlat` — flattening leaves such a page as it is.
* `flattenElement_of_unwraps` — a step keeps what an element is flattened to.
* `steps_flatten` — single steps lead to the flattened page.
* `flatten_unique_normal_form` — no other page without further steps can be reached.
-/

namespace Pagewright.Page

open Relation (ReflTransGen)

variable {ι : Type}

/-! ## Single steps -/

/-- An element, and what a single step makes of it: a redundant wrapper inside
some column gives way to the elements of its only column. -/
inductive Unwraps : Element ι → Element ι → Prop where
  | here {e wrapper column : Element ι} {before after : List (Element ι)}
      (hKind : e.kind = .column) (hElements : e.elements = before ++ wrapper :: after)
      (hRedundant : isRedundant wrapper = true) (hColumn : wrapper.elements = [column]) :
      Unwraps e { e with elements := before ++ column.elements ++ after }
  | inside {e x y : Element ι} {before after : List (Element ι)}
      (hElements : e.elements = before ++ x :: after) (hStep : Unwraps x y) :
      Unwraps e { e with elements := before ++ y :: after }

/-- A page, and what a single step in one of its elements makes of it. -/
def FlattenStep (content next : List (Element ι)) : Prop :=
  ∃ before x y after, content = before ++ x :: after ∧ Unwraps x y ∧
    next = before ++ y :: after

/-- Pages without redundant wrappers in any column at any depth. -/
def IsFlat (content : List (Element ι)) : Prop :=
  ∀ e ∈ Element.preorderAll content, e.kind = .column →
    ∀ inside ∈ e.elements, isRedundant inside = false

instance (content : List (Element ι)) : Decidable (IsFlat content) :=
  inferInstanceAs (Decidable (∀ e ∈ Element.preorderAll content, e.kind = .column →
    ∀ inside ∈ e.elements, isRedundant inside = false))

theorem with_own_elements (e : Element ι) :
    Element.mk e.id e.kind e.widget e.inner e.settings e.elements = e := by
  cases e
  rfl

/-! ## Redundancy -/

/-- What redundancy looks at in an element and in the elements inside it. -/
def Element.frame (e : Element ι) : ElementKind × Bool × Settings := (e.kind, e.inner, e.settings)

/-- Whether an element is redundant, told from its frame and from those inside it. -/
def isRedundantFrame (own : ElementKind × Bool × Settings)
    (inside : List (ElementKind × Bool × Settings)) : Bool :=
  own.1 == .section && own.2.1 && own.2.2.isEmpty &&
    match inside with
    | [column] => column.1 == .column && column.2.2.isEmpty && !column.2.1
    | _ => false

theorem isRedundant_eq (e : Element ι) :
    isRedundant e = isRedundantFrame e.frame (e.elements.map Element.frame) := by
  unfold isRedundant isRedundantFrame
  match e.elements with
  | [] => rfl
  | [column] => rfl
  | _ :: _ :: _ => rfl

/-- Columns are never redundant, whatever they hold. -/
theorem isRedundant_of_column {e : Element ι} (hKind : e.kind = .column) :
    isRedundant e = false := by
  simp [isRedundant, Element.isInnerSection, hKind]

theorem frame_flattenElement (e : Element ι) : (flattenElement e).frame = e.frame := by
  rw [flattenElement_eq]
  rfl

/-- What is redundant stays redundant when it is flattened, and nothing becomes so. -/
theorem isRedundant_flattenElement (e : Element ι) :
    isRedundant (flattenElement e) = isRedundant e := by
  by_cases hColumn : e.kind = .column
  · have hFlat : (flattenElement e).kind = .column := (flattenElement_kind e).trans hColumn
    rw [isRedundant_of_column hFlat, isRedundant_of_column hColumn]
  · have hInside : (e.elements.map flattenElement).map Element.frame =
        e.elements.map Element.frame := by
      rw [List.map_map]
      exact List.map_congr_left fun inside _ => frame_flattenElement inside
    rw [isRedundant_eq, isRedundant_eq e, frame_flattenElement, flattenElement_elements,
      flattenInside, if_neg hColumn, hInside]

theorem unwrap_of_redundant {wrapper column : Element ι} (hRedundant : isRedundant wrapper = true)
    (hColumn : wrapper.elements = [column]) : unwrap wrapper = column.elements := by
  rw [unwrap, if_pos hRedundant, hColumn, List.flatMap_singleton]

/-- A flattened wrapper gives way to the elements of its flattened column. -/
theorem unwrap_flattenElement {wrapper column : Element ι}
    (hRedundant : isRedundant wrapper = true) (hColumn : wrapper.elements = [column]) :
    unwrap (flattenElement wrapper) = (flattenElement column).elements := by
  obtain ⟨hSection, -⟩ := exists_column_of_isRedundant hRedundant
  have hInside : (flattenElement wrapper).elements = [flattenElement column] := by
    rw [flattenElement_elements, hSection, hColumn, flattenInside, if_neg (by decide),
      List.map_singleton]
  exact unwrap_of_redundant ((isRedundant_flattenElement wrapper).trans hRedundant) hInside

theorem unwrap_of_not_redundant {e : Element ι} (hKept : isRedundant e = false) :
    unwrap e = [e] := by
  rw [unwrap, hKept]
  rfl

/-! ## Flat elements -/

/-- A page is flat when its elements are. -/
theorem isFlat_iff {content : List (Element ι)} : IsFlat content ↔ ∀ e ∈ content, IsFlat [e] := by
  simp only [IsFlat, Element.preorderAll_eq, List.mem_flatMap, List.mem_singleton]
  constructor
  · rintro hFlat e hMem x ⟨same, hSame, hx⟩
    exact hFlat x ⟨same, hSame ▸ hMem, hx⟩
  · rintro hFlat x ⟨e, hMem, hx⟩
    exact hFlat e hMem x ⟨e, rfl, hx⟩

/-- An element is flat when no column is redundant in it directly, and what is in it is flat. -/
theorem isFlat_singleton_iff {e : Element ι} :
    IsFlat [e] ↔ (e.kind = .column → ∀ inside ∈ e.elements, isRedundant inside = false) ∧
      IsFlat e.elements := by
  simp only [IsFlat, Element.preorderAll_eq, List.flatMap_singleton, Element.preorder_eq,
    List.forall_mem_cons]

theorem isFlat_flattenElement (e : Element ι) : IsFlat [flattenElement e] := by
  induction e using Element.induct with
  | step e ih =>
    have hFlat : ∀ inside ∈ e.elements.map flattenElement, IsFlat [inside] :=
      List.forall_mem_map.2 ih
    rw [isFlat_singleton_iff, flattenElement_kind, flattenElement_elements, flattenInside]
    by_cases hColumn : e.kind = .column
    · -- A wrapper was flattened before it is taken out, so that its column holds
      -- nothing redundant.
      have hUnwrapped : ∀ x ∈ (e.elements.map flattenElement).flatMap unwrap,
          isRedundant x = false ∧ IsFlat [x] := by
        intro x hMem
        obtain ⟨wrapper, hWrapper, hx⟩ := List.mem_flatMap.1 hMem
        have hInside := isFlat_singleton_iff.1 (hFlat wrapper hWrapper)
        cases hRedundant : isRedundant wrapper with
        | false =>
          rw [unwrap_of_not_redundant hRedundant, List.mem_singleton] at hx
          exact hx ▸ ⟨hRedundant, hFlat wrapper hWrapper⟩
        | true =>
          obtain ⟨-, -, -, column, hElements, hKind, -⟩ := exists_column_of_isRedundant hRedundant
          rw [unwrap_of_redundant hRedundant hElements] at hx
          rw [hElements] at hInside
          obtain ⟨hOwn, hBelow⟩ := isFlat_singleton_iff.1 hInside.2
          exact ⟨hOwn hKind x hx, isFlat_iff.1 hBelow x hx⟩
      rw [if_pos hColumn]
      exact ⟨fun _ x hx => (hUnwrapped x hx).1, isFlat_iff.2 fun x hx => (hUnwrapped x hx).2⟩
    · rw [if_neg hColumn]
      exact ⟨fun hKind => absurd hKind hColumn, isFlat_iff.2 hFlat⟩

/-- A flattened page has no redundant wrapper in any column. -/
theorem isFlat_flatten (content : List (Element ι)) : IsFlat (flatten content) := by
  rw [flatten, flattenAll_eq_map, isFlat_iff]
  exact List.forall_mem_map.2 fun e _ => isFlat_flattenElement e

/-- Flattening leaves flat elements as they are. -/
theorem flattenElement_of_isFlat (e : Element ι) : IsFlat [e] → flattenElement e = e := by
  induction e using Element.induct with
  | step e ih =>
    intro hFlat
    obtain ⟨hKept, hInside⟩ := isFlat_singleton_iff.1 hFlat
    have hElements : e.elements.map flattenElement = e.elements :=
      (List.map_congr_left fun x hx => ih x hx (isFlat_iff.1 hInside x hx)).trans (List.map_id' _)
    rw [flattenElement_eq, flattenInside, hElements]
    by_cases hColumn : e.kind = .column
    · have hUnwrap : e.elements.flatMap unwrap = e.elements.flatMap fun x => [x] :=
        List.flatMap_congr fun x hx => unwrap_of_not_redundant (hKept hColumn x hx)
      rw [if_pos hColumn, hUnwrap, List.flatMap_singleton', with_own_elements]
    · rw [if_neg hColumn, with_own_elements]

theorem flatten_of_isFlat {content : List (Element ι)} (hFlat : IsFlat content) :
    flatten content = content := by
  rw [flatten, flattenAll_eq_map]
  exact (List.map_congr_left fun e hMem =>
    flattenElement_of_isFlat e (isFlat_iff.1 hFlat e hMem)).trans (List.map_id' _)

/-! ## Steps keep what a page is flattened to -/

/-- A step keeps what an element is flattened to. -/
theorem flattenElement_of_unwraps {e next : Element ι} (hStep : Unwraps e next) :
    flattenElement e = flattenElement next := by
  induction hStep with
  | @inside e x y before after hElements _ ih =>
    rw [flattenElement_eq, flattenElement_eq, hElements]
    simp only [flattenInside, List.map_append, List.map_cons, ih]
  | @here e wrapper column before after hKind hElements hRedundant hColumn =>
    obtain ⟨-, -, -, only, hOnly, hOnlyKind, -⟩ := exists_column_of_isRedundant hRedundant
    have hColumnKind : column.kind = .column :=
      (List.cons.inj (hColumn.symm.trans hOnly)).1 ▸ hOnlyKind
    have hUnwrapped : unwrap (flattenElement wrapper) =
        (column.elements.map flattenElement).flatMap unwrap := by
      rw [unwrap_flattenElement hRedundant hColumn, flattenElement_elements, hColumnKind,
        flattenInside, if_pos rfl]
    rw [flattenElement_eq, flattenElement_eq, hElements]
    simp only [flattenInside, if_pos hKind, List.map_append, List.map_cons, List.flatMap_append,
      List.flatMap_cons, hUnwrapped, List.append_assoc]

theorem flatten_of_step {content next : List (Element ι)} (hStep : FlattenStep content next) :
    flatten content = flatten next := by
  obtain ⟨before, x, y, after, rfl, hUnwraps, rfl⟩ := hStep
  simp only [flatten, flattenAll_eq_map, List.map_append, List.map_cons,
    flattenElement_of_unwraps hUnwraps]

theorem flatten_of_steps {content next : List (Element ι)}
    (hSteps : ReflTransGen FlattenStep content next) : flatten content = flatten next := by
  induction hSteps with
  | refl => rfl
  | tail _ hStep ih => exact ih.trans (flatten_of_step hStep)

/-! ## Steps lead to the flattened page -/

/-- Steps in one element of a page. -/
theorem steps_append {x y : Element ι} (hSteps : ReflTransGen Unwraps x y)
    (before after : List (Element ι)) :
    ReflTransGen FlattenStep (before ++ x :: after) (before ++ y :: after) :=
  hSteps.lift (fun z => before ++ z :: after) fun first second hStep =>
    ⟨before, first, second, after, rfl, hStep, rfl⟩

/-- Steps in the elements of an element. -/
theorem unwraps_inside {es next : List (Element ι)} (e : Element ι)
    (hSteps : ReflTransGen FlattenStep es next) :
    ReflTransGen Unwraps { e with elements := es } { e with elements := next } := by
  refine hSteps.lift (fun inside => { e with elements := inside }) fun first second hStep => ?_
  obtain ⟨before, x, y, after, rfl, hUnwraps, rfl⟩ := hStep
  exact .inside (e := { e with elements := before ++ x :: after }) rfl hUnwraps

/-- Steps element by element. -/
theorem steps_map {f : Element ι → Element ι} {es : List (Element ι)}
    (hSteps : ∀ e ∈ es, ReflTransGen Unwraps e (f e)) :
    ∀ before, ReflTransGen FlattenStep (before ++ es) (before ++ es.map f) := by
  induction es with
  | nil => exact fun _ => .refl
  | cons e rest ih =>
    intro before
    have hFirst := steps_append (hSteps e List.mem_cons_self) before rest
    have hRest := ih (fun other hMem => hSteps other (List.mem_cons_of_mem e hMem))
      (before ++ [f e])
    rw [List.append_assoc, List.append_assoc] at hRest
    exact hFirst.trans hRest

/-- The redundant wrappers of a column are taken out one after the other. -/
theorem unwraps_column {e : Element ι} (hKind : e.kind = .column) (es : List (Element ι)) :
    ∀ before, ReflTransGen Unwraps { e with elements := before ++ es }
      { e with elements := before ++ es.flatMap unwrap } := by
  induction es with
  | nil => exact fun _ => .refl
  | cons first rest ih =>
    intro before
    have hRest := ih (before ++ unwrap first)
    rw [List.append_assoc before (unwrap first) (rest.flatMap unwrap), ← List.flatMap_cons]
      at hRest
    refine .trans ?_ hRest
    cases hRedundant : isRedundant first with
    | false =>
      rw [unwrap_of_not_redundant hRedundant, List.append_assoc]
      exact .refl
    | true =>
      obtain ⟨-, -, -, column, hElements, -⟩ := exists_column_of_isRedundant hRedundant
      rw [unwrap_of_redundant hRedundant hElements]
      exact .single (.here (e := { e with elements := before ++ first :: rest }) hKind rfl
        hRedundant hElements)

/-- Single steps lead from an element to what it is flattened to. -/
theorem unwraps_flattenElement (e : Element ι) : ReflTransGen Unwraps e (flattenElement e) := by
  induction e using Element.induct with
  | step e ih =>
    have hElements : ReflTransGen FlattenStep e.elements (e.elements.map flattenElement) :=
      steps_map ih []
    have hInside := unwraps_inside e hElements
    rw [with_own_elements] at hInside
    rw [flattenElement_eq, flattenInside]
    by_cases hColumn : e.kind = .column
    · rw [if_pos hColumn]
      have hColumns := unwraps_column hColumn (e.elements.map flattenElement) []
      rw [List.nil_append, List.nil_append] at hColumns
      exact hInside.trans hColumns
    · rw [if_neg hColumn]
      exact hInside

theorem steps_flatten (content : List (Element ι)) :
    ReflTransGen FlattenStep content (flatten content) := by
  rw [flatten, flattenAll_eq_map]
  exact steps_map (fun e _ => unwraps_flattenElement e) []

/-! ## Steps come to an end -/

theorem countAll_append (es others : List (Element ι)) :
    Element.countAll (es ++ others) = Element.countAll es + Element.countAll others := by
  induction es with
  | nil => exact (Nat.zero_add _).symm
  | cons e rest ih =>
    rw [List.cons_append, Element.countAll, Element.countAll, ih, Nat.add_assoc]

theorem count_eq (e : Element ι) : e.count = 1 + Element.countAll e.elements := by
  cases e
  rw [Element.count]

/-- A step takes two elements away: the wrapper and its column. -/
theorem count_of_unwraps {e next : Element ι} (hStep : Unwraps e next) :
    e.count = next.count + 2 := by
  induction hStep with
  | @inside e x y before after hElements _ ih =>
    simp only [count_eq, hElements, countAll_append, Element.countAll]
    simp only [count_eq] at ih
    omega
  | @here e wrapper column before after _ hElements _ hColumn =>
    simp only [count_eq, hElements, hColumn, countAll_append, Element.countAll]
    omega

theorem count_of_step {content next : List (Element ι)} (hStep : FlattenStep content next) :
    Element.countAll content = Element.countAll next + 2 := by
  obtain ⟨before, x, y, after, rfl, hUnwraps, rfl⟩ := hStep
  have hCount := count_of_unwraps hUnwraps
  simp only [countAll_append, Element.countAll]
  omega

/-- There is no endless row of steps. -/
theorem wellFounded_flattenStep :
    WellFounded fun next content : List (Element ι) => FlattenStep content next := by
  refine Subrelation.wf (fun {next content} hStep => ?_)
    (InvImage.wf (fun content : List (Element ι) => Element.countAll content) Nat.lt_wfRel.wf)
  have hCount := count_of_step hStep
  show Element.countAll next < Element.countAll content
  omega

/-! ## Normal forms -/

theorem not_isFlat_of_unwraps {e next : Element ι} (hStep : Unwraps e next) : ¬IsFlat [e] := by
  induction hStep with
  | inside hElements _ ih =>
    intro hFlat
    have hInside := (isFlat_singleton_iff.1 hFlat).2
    rw [hElements] at hInside
    exact ih (isFlat_iff.1 hInside _ (by simp))
  | here hKind hElements hRedundant _ =>
    intro hFlat
    have hKept := (isFlat_singleton_iff.1 hFlat).1 hKind
    rw [hElements] at hKept
    exact absurd hRedundant (by simp [hKept])

/-- The flat pages are those without further steps. -/
theorem isFlat_iff_no_step {content : List (Element ι)} :
    IsFlat content ↔ ∀ next, ¬FlattenStep content next := by
  constructor
  · rintro hFlat next ⟨before, x, y, after, rfl, hUnwraps, -⟩
    exact not_isFlat_of_unwraps hUnwraps (isFlat_iff.1 hFlat x (by simp))
  · intro hNone
    -- The steps to the flattened page are none.
    rcases (steps_flatten content).cases_head with hSame | ⟨next, hStep, -⟩
    · exact hSame ▸ isFlat_flatten content
    · exact absurd hStep (hNone next)

/-- A flattened page has no redundant wrapper in any column, and it is the only
page without further steps that single steps lead to, in whatever order they are
taken; there is always an end to them. So flattening twice is flattening once. -/
theorem flatten_unique_normal_form (content : List (Element ι)) :
    IsFlat (flatten content) ∧
      ReflTransGen FlattenStep content (flatten content) ∧
      (∀ final, ReflTransGen FlattenStep content final → (∀ next, ¬FlattenStep final next) →
        final = flatten content) ∧
      (WellFounded fun next before : List (Element ι) => FlattenStep before next) ∧
      flatten (flatten content) = flatten content := by
  refine ⟨isFlat_flatten content, steps_flatten content, fun final hSteps hNone => ?_,
    wellFounded_flattenStep, flatten_of_isFlat (isFlat_flatten content)⟩
  have hFinal := flatten_of_isFlat (isFlat_iff_no_step.2 hNone)
  exact hFinal.symm.trans (flatten_of_steps hSteps).symm

/-- A section whose column holds a widget and the given elements. -/
def pageAround (elements : List (Element Nat)) : List (Element Nat) :=
  [.ofSection 0 false [] [.ofColumn 1 [] (.ofWidget 2 .html [] :: elements)]]

/-- A redundant wrapper. -/
def wrapperAround (id : Nat) (elements : List (Element Nat)) : Element Nat :=
  .ofSection id true [] [.ofColumn (id + 1) [] elements]

/-- A wrapper in a wrapper is taken out from the outside in: first the outer one. -/
theorem flatten_unique_outside_in :
    ReflTransGen FlattenStep (pageAround [wrapperAround 3 [wrapperAround 5 [.ofWidget 7 .html []]]])
        (pageAround [.ofWidget 7 .html []]) ∧
      pageAround [.ofWidget 7 .html []] =
        flatten (pageAround [wrapperAround 3 [wrapperAround 5 [.ofWidget 7 .html []]]]) := by
  have hStep (id : Nat) (elements : List (Element Nat)) :
      FlattenStep (pageAround [wrapperAround id elements]) (pageAround elements) := by
    have hColumn : Unwraps (.ofColumn 1 [] [.ofWidget 2 .html [], wrapperAround id elements])
        (.ofColumn 1 [] ([.ofWidget 2 .html []] ++ elements ++ [])) :=
      @Unwraps.here Nat _ _ (.ofColumn (id + 1) [] elements) [.ofWidget 2 .html []] [] rfl rfl
        rfl rfl
    rw [List.append_nil] at hColumn
    exact ⟨[], _, _, [], rfl, @Unwraps.inside Nat _ _ _ [] [] rfl hColumn, rfl⟩
  have hSteps := (ReflTransGen.single (hStep 3 [wrapperAround 5 [.ofWidget 7 .html []]])).tail
    (hStep 5 [.ofWidget 7 .html []])
  have hLast : ∀ next, ¬FlattenStep (pageAround [.ofWidget 7 .html []]) next :=
    isFlat_iff_no_step.1 (by decide)
  exact ⟨hSteps, (flatten_unique_normal_form _).2.2.1 _ hSteps hLast⟩

end Pagewright.Page
