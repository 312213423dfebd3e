import Mathlib.Data.List.Basic
import Pagewright.Page.Flatten

/-!
# Element trees in document order

`Element.preorder` lists the elements of a tree as a reader meets them, each
before the elements inside it. What a page consists of is said about this list.

Ids play no part in most of it: `Element.unlabelled` is the tree without them,
and a view that does not look at ids is the same for both.

## Main results

* `Element.induct` — induction over element trees with one motive.
* `Element.preorder_map` — relabelling commutes with document order.
* `flattenElement_eq` — flattening, one level at a time.
* `flattenElement_map` — flattening does not look at labels.
-/

namespace Pagewright.Page

namespace Element

variable {ι κ : Type}

/-! ## Induction -/

/-- What holds of an element as soon as it holds of the elements directly
inside it holds of every element. -/
@[elab_as_elim]
theorem induct {motive : Element ι → Prop}
    (step : ∀ e : Element ι, (∀ inside ∈ e.elements, motive inside) → motive e)
    (e : Element ι) : motive e := by
  refine @Element.rec ι motive (fun es => ∀ inside ∈ es, motive inside)
    (fun id kind widget inner settings elements ih =>
      step ⟨id, kind, widget, inner, settings, elements⟩ ih) ?_ ?_ e
  · exact fun inside hMem => absurd hMem List.not_mem_nil
  · intro first rest ihFirst ihRest inside hMem
    rcases List.mem_cons.1 hMem with rfl | hRest
    · exact ihFirst
    · exact ihRest inside hRest

/-! ## Relabelling, one level at a time -/

theorem mapAll_eq_map (f : ι → κ) (es : List (Element ι)) : mapAll f es = es.map (map f) := by
  induction es with
  | nil => rfl
  | cons e rest ih => rw [mapAll, ih, List.map_cons]

theorem map_eq (f : ι → κ) (e : Element ι) :
    map f e = ⟨f e.id, e.kind, e.widget, e.inner, e.settings, e.elements.map (map f)⟩ := by
  cases e
  rw [map, mapAll_eq_map]

@[simp] theorem map_kind (f : ι → κ) (e : Element ι) : (map f e).kind = e.kind := by
  rw [map_eq]

@[simp] theorem map_widget (f : ι → κ) (e : Element ι) : (map f e).widget = e.widget := by
  rw [map_eq]

@[simp] theorem map_inner (f : ι → κ) (e : Element ι) : (map f e).inner = e.inner := by
  rw [map_eq]

@[simp] theorem map_settings (f : ι → κ) (e : Element ι) : (map f e).settings = e.settings := by
  rw [map_eq]

@[simp] theorem map_elements (f : ι → κ) (e : Element ι) :
    (map f e).elements = e.elements.map (map f) := by
  rw [map_eq]

@[simp] theorem map_isInnerSection (f : ι → κ) (e : Element ι) :
    (map f e).isInnerSection = e.isInnerSection := by
  simp [isInnerSection]

/-- The tree without its labels. -/
def unlabelled (e : Element ι) : Element Unit := map (fun _ => ()) e

theorem unlabelled_eq (e : Element ι) :
    e.unlabelled = ⟨(), e.kind, e.widget, e.inner, e.settings, e.elements.map unlabelled⟩ :=
  map_eq _ e

@[simp] theorem unlabelled_map (f : ι → κ) (e : Element ι) :
    (map f e).unlabelled = e.unlabelled := by
  induction e using induct with
  | step e ih =>
    rw [unlabelled, unlabelled, map_eq, map_eq f, map_eq, List.map_map]
    exact congrArg _ (List.map_congr_left ih)

theorem unlabelled_unit (e : Element Unit) : e.unlabelled = e := by
  induction e using induct with
  | step e ih =>
    have hInside : e.elements.map (map fun _ => ()) = e.elements :=
      (List.map_congr_left ih).trans (List.map_id' e.elements)
    rw [unlabelled, map_eq, hInside]
    cases e
    rfl

theorem map_unlabelled_unit (es : List (Element Unit)) : es.map unlabelled = es :=
  (List.map_congr_left fun e _ => unlabelled_unit e).trans (List.map_id' es)

/-- Handing out ids does not change the tree underneath. -/
theorem unlabelled_assign (e : Element Path) (issued : Issued) :
    (assign e issued).1.unlabelled = e.unlabelled :=
  map_assign () e issued

/-! ## Document order -/

mutual

/-- The elements of a tree, each before those inside it. -/
def preorder : Element ι → List (Element ι)
  | ⟨id, kind, widget, inner, settings, elements⟩ =>
    ⟨id, kind, widget, inner, settings, elements⟩ :: preorderAll elements

/-- The elements of several trees, one tree after the other. -/
def preorderAll : List (Element ι) → List (Element ι)
  | [] => []
  | e :: rest => preorder e ++ preorderAll rest

end

theorem preorderAll_eq (es : List (Element ι)) : preorderAll es = es.flatMap preorder := by
  induction es with
  | nil => rfl
  | cons e rest ih => rw [preorderAll, ih, List.flatMap_cons]

theorem preorder_eq (e : Element ι) : e.preorder = e :: e.elements.flatMap preorder := by
  cases e
  rw [preorder, preorderAll_eq]

/-- An element of a tree is its root or lies inside an element of the root. -/
theorem mem_preorder {e x : Element ι} :
    x ∈ e.preorder ↔ x = e ∨ ∃ inside ∈ e.elements, x ∈ inside.preorder := by
  rw [preorder_eq, List.mem_cons, List.mem_flatMap]

theorem preorder_map (f : ι → κ) (e : Element ι) :
    (map f e).preorder = e.preorder.map (map f) := by
  induction e using induct with
  | step e ih =>
    rw [preorder_eq, preorder_eq, List.map_cons, map_elements, List.flatMap_map,
      List.map_flatMap]
    exact congrArg _ (List.flatMap_congr ih)

end Element

/-! ## Flattening, one level at a time -/

section Flatten

variable {ι : Type}

/-- What flattening leaves of the elements of an element of some kind. -/
def flattenInside (kind : ElementKind) (elements : List (Element ι)) : List (Element ι) :=
  if kind = .column then (elements.map flattenElement).flatMap unwrap
  else elements.map flattenElement

theorem flattenElement_eq (e : Element ι) :
    flattenElement e = { e with elements := flattenInside e.kind e.elements } := by
  cases e
  rw [flattenElement, flattenAll_eq_map]
  rfl

@[simp] theorem flattenElement_kind (e : Element ι) : (flattenElement e).kind = e.kind := by
  rw [flattenElement_eq]

@[simp] theorem flattenElement_widget (e : Element ι) :
    (flattenElement e).widget = e.widget := by
  rw [flattenElement_eq]

@[simp] theorem flattenElement_inner (e : Element ι) : (flattenElement e).inner = e.inner := by
  rw [flattenElement_eq]

@[simp] theorem flattenElement_settings (e : Element ι) :
    (flattenElement e).settings = e.settings := by
  rw [flattenElement_eq]

theorem flattenElement_elements (e : Element ι) :
    (flattenElement e).elements = flattenInside e.kind e.elements := by
  rw [flattenElement_eq]

/-- A redundant wrapper is a plain inner section around one plain column. -/
theorem exists_column_of_isRedundant {e : Element ι} (h : isRedundant e = true) :
    e.kind = .section ∧ e.inner = true ∧ e.settings = [] ∧
      ∃ column, e.elements = [column] ∧ column.kind = .column ∧ column.settings = [] := by
  unfold isRedundant at h
  simp only [Bool.and_eq_true, Element.isInnerSection, beq_iff_eq, List.isEmpty_iff] at h
  obtain ⟨⟨⟨hKind, hInner⟩, hSettings⟩, hColumn⟩ := h
  refine ⟨hKind, hInner, hSettings, ?_⟩
  split at hColumn
  · rename_i column hElements
    simp only [Bool.and_eq_true, beq_iff_eq, List.isEmpty_iff] at hColumn
    exact ⟨column, hElements, hColumn.1.1, hColumn.1.2⟩
  · cases hColumn

@[simp] theorem isRedundant_map {κ : Type} (f : ι → κ) (e : Element ι) :
    isRedundant (Element.map f e) = isRedundant e := by
  unfold isRedundant
  rw [Element.map_isInnerSection, Element.map_settings, Element.map_elements]
  match e.elements with
  | [] => rfl
  | [column] => simp
  | _ :: _ :: _ => rfl

theorem unwrap_map {κ : Type} (f : ι → κ) (e : Element ι) :
    unwrap (Element.map f e) = (unwrap e).map (Element.map f) := by
  unfold unwrap
  rw [isRedundant_map, Element.map_elements]
  split
  · rw [List.flatMap_map, List.map_flatMap]
    exact List.flatMap_congr fun column _ => Element.map_elements f column
  · rfl

/-- Flattening does not look at labels. -/
theorem flattenElement_map {κ : Type} (f : ι → κ) (e : Element ι) :
    flattenElement (Element.map f e) = Element.map f (flattenElement e) := by
  induction e using Element.induct with
  | step e ih =>
    have hInside : (e.elements.map (Element.map f)).map flattenElement =
        (e.elements.map flattenElement).map (Element.map f) := by
      rw [List.map_map, List.map_map]
      exact List.map_congr_left ih
    have hFlat : flattenInside e.kind (e.elements.map (Element.map f)) =
        (flattenInside e.kind e.elements).map (Element.map f) := by
      unfold flattenInside
      split
      · rw [hInside, List.flatMap_map, List.map_flatMap]
        exact List.flatMap_congr fun inside _ => unwrap_map f inside
      · exact hInside
    rw [flattenElement_eq, Element.map_eq f e, hFlat, flattenElement_eq, Element.map_eq]

end Flatten

end Pagewright.Page
