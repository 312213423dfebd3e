import Pagewright.Proofs.Page.Backdrop
import Pagewright.Proofs.Page.Export

/-!
# Where the widgets of a page stand

A *placement* is a widget of a page together with the backdrops of the elements
around it, outermost first; wrappers without a backdrop do not count. The passes
over a page are judged by it. Flattening keeps every placement, because it only
removes wrappers without settings. Splitting removes a section without settings
and its column, but does not look at the settings of that column: the backdrop
of the column is lost, and nothing else.

## Main results

* `Element.map_shown_placements` — placements list the widgets in document order.
* `Element.placements_flatten` — flattening keeps every placement.
* `placements_splitShape` — splitting loses `splitLoss` and nothing else.
-/

namespace Pagewright.Page

open Layout

/-! ## Placements on a page -/

/-- A widget, and the backdrops of the elements around it, outermost first. -/
structure Placement where
  shown : Option (WidgetKind × Settings)
  backdrops : List Settings

/-- A placement seen from further out. -/
def Placement.within (outer : List Settings) (p : Placement) : Placement :=
  { p with backdrops := outer ++ p.backdrops }

/-- Some settings, unless they are empty. -/
def nonEmpty (settings : Settings) : List Settings :=
  if settings.isEmpty then [] else [settings]

section Element

variable {ι κ : Type}

/-- What an element shows itself. -/
def Element.shown (e : Element ι) : Option (WidgetKind × Settings) :=
  e.widget.map fun widget => (widget, e.settings)

mutual

/-- The placements of the widgets of a tree in document order. -/
def Element.placements : Element ι → List Placement
  | ⟨_, kind, widget, _, settings, elements⟩ =>
    (if kind = .widget then [⟨widget.map fun widget => (widget, settings), []⟩] else []) ++
      (Element.allPlacements elements).map (·.within (nonEmpty (backdrop settings)))

/-- The placements of the widgets of several trees. -/
def Element.allPlacements : List (Element ι) → List Placement
  | [] => []
  | e :: rest => e.placements ++ Element.allPlacements rest

end

/-- The widgets of a page in document order. -/
def pageWidgets (content : List (Element ι)) : List (Option (WidgetKind × Settings)) :=
  ((Element.preorderAll content).filter fun e => e.kind = .widget).map Element.shown

theorem Element.allPlacements_eq (es : List (Element ι)) :
    Element.allPlacements es = es.flatMap Element.placements := by
  induction es with
  | nil => rfl
  | cons e rest ih => rw [Element.allPlacements, ih, List.flatMap_cons]

theorem Element.placements_eq (e : Element ι) :
    e.placements = (if e.kind = .widget then [⟨e.shown, []⟩] else []) ++
      (e.elements.flatMap Element.placements).map (·.within (nonEmpty (backdrop e.settings))) := by
  cases e
  rw [Element.placements, Element.allPlacements_eq]
  rfl

/-- A wrapper places what is inside it in front of its backdrop. -/
theorem Element.placements_wrapper {e : Element ι} (hKind : e.kind ≠ .widget) :
    e.placements =
      (e.elements.flatMap Element.placements).map (·.within (nonEmpty (backdrop e.settings))) := by
  rw [Element.placements_eq, if_neg hKind, List.nil_append]

@[simp] theorem map_within_nil (ps : List Placement) : ps.map (·.within []) = ps :=
  List.map_id ps

theorem within_injective (outer : List Settings) :
    Function.Injective (Placement.within outer) := by
  intro p q h
  cases p with
  | mk shown backdrops =>
    cases q with
    | mk shown' backdrops' =>
      simpa [Placement.within] using h

/-- A wrapper without a backdrop adds nothing. -/
theorem Element.placements_plain {e : Element ι} (hKind : e.kind ≠ .widget)
    (hSettings : e.settings = []) :
    e.placements = e.elements.flatMap Element.placements := by
  rw [Element.placements_wrapper hKind, hSettings]
  exact map_within_nil _

/-- Labels play no part in placements. -/
theorem Element.placements_map (f : ι → κ) (e : Element ι) :
    (Element.map f e).placements = e.placements := by
  induction e using Element.induct with
  | step e ih =>
    have hInside : (e.elements.map (Element.map f)).flatMap Element.placements =
        e.elements.flatMap Element.placements := by
      rw [List.flatMap_map]
      exact List.flatMap_congr ih
    rw [Element.placements_eq, Element.map_kind, Element.map_elements, Element.map_settings,
      hInside, Element.placements_eq e]
    simp [Element.shown]

/-- Placements list the widgets in document order. -/
theorem Element.map_shown_placements (e : Element ι) :
    e.placements.map Placement.shown =
      (e.preorder.filter fun x => x.kind = .widget).map Element.shown := by
  induction e using Element.induct with
  | step e ih =>
    have hInside : (e.elements.flatMap Element.placements).map Placement.shown =
        ((e.elements.flatMap Element.preorder).filter fun x => x.kind = .widget).map
          Element.shown := by
      rw [List.map_flatMap, List.filter_flatMap, List.map_flatMap]
      exact List.flatMap_congr ih
    rw [Element.placements_eq, Element.preorder_eq, List.map_append, List.map_map,
      List.filter_cons]
    have hShown : Placement.shown ∘ (·.within (nonEmpty (backdrop e.settings))) =
        Placement.shown := rfl
    rw [hShown, hInside]
    by_cases hKind : e.kind = .widget <;> simp [hKind]

theorem pageWidgets_eq (es : List (Element ι)) :
    pageWidgets es = (Element.allPlacements es).map Placement.shown := by
  rw [pageWidgets, Element.preorderAll_eq, Element.allPlacements_eq, List.filter_flatMap,
    List.map_flatMap, List.map_flatMap]
  exact List.flatMap_congr fun e _ => (Element.map_shown_placements e).symm

/-- Inner flags play no part in placements. -/
theorem Element.placements_outer (e : Element ι) :
    ({ e with inner := false } : Element ι).placements = e.placements := by
  rw [Element.placements_eq, Element.placements_eq e]
  rfl

/-- A section and a column without settings only hold what is inside. -/
theorem Element.placements_holder {outer column : ι} (elements : List (Element ι)) :
    (Element.ofSection outer false [] [Element.ofColumn column [] elements]).placements =
      elements.flatMap Element.placements := by
  rw [Element.placements_plain (by simp [Element.ofSection]) rfl, Element.ofSection,
    List.flatMap_singleton, Element.placements_plain (by simp [Element.ofColumn]) rfl]
  rfl

/-! ## Passes -/

theorem placements_unwrap (e : Element ι) :
    (unwrap e).flatMap Element.placements = e.placements := by
  unfold unwrap
  cases hRedundant : isRedundant e with
  | false => simp
  | true =>
    obtain ⟨hKind, -, hSettings, column, hElements, hColumn, hPlain⟩ :=
      exists_column_of_isRedundant hRedundant
    have hOuter : e.placements = column.placements := by
      rw [Element.placements_plain (by simp [hKind]) hSettings, hElements,
        List.flatMap_singleton]
    rw [hOuter, Element.placements_plain (by simp [hColumn]) hPlain, if_pos rfl, hElements,
      List.flatMap_singleton]

/-- Flattening keeps every placement: what it removes has no settings. -/
theorem Element.placements_flatten (e : Element ι) :
    (flattenElement e).placements = e.placements := by
  induction e using Element.induct with
  | step e ih =>
    have hInside : (e.elements.map flattenElement).flatMap Element.placements =
        e.elements.flatMap Element.placements := by
      rw [List.flatMap_map]
      exact List.flatMap_congr ih
    have hFlat : (flattenInside e.kind e.elements).flatMap Element.placements =
        e.elements.flatMap Element.placements := by
      unfold flattenInside
      split
      · rw [List.flatMap_assoc, List.flatMap_congr fun inside _ => placements_unwrap inside,
          hInside]
      · exact hInside
    rw [Element.placements_eq, flattenElement_kind, flattenElement_settings,
      flattenElement_elements, hFlat, Element.placements_eq e]
    simp [Element.shown]

/-! A split takes one column apart; its backdrop is what can get lost. -/

/-- The backdrop of the column that splitting takes apart. -/
def splitLoss (e : Element ι) : Settings :=
  match soleColumn? e with
  | some elements =>
    if (blocks elements).length ≤ 1 then []
    else e.elements.flatMap fun column => backdrop column.settings
  | none => []

/-- What a split leaves stands in front of everything that was there before but
the backdrop of the column taken apart. -/
theorem placements_splitShape (e : Element Unit) :
    e.placements =
      ((splitShape e).flatMap Element.placements).map (·.within (nonEmpty (splitLoss e))) := by
  unfold splitShape splitLoss
  cases hSole : soleColumn? e with
  | none => simp [nonEmpty, Element.unlabelled_unit]
  | some elements =>
    obtain ⟨hKind, -, hSettings, column, hElements, hColumn, rfl⟩ :=
      soleColumn?_eq_some_iff.1 hSole
    by_cases hBlocks : (blocks column.elements).length ≤ 1
    · simp [hBlocks, nonEmpty, Element.unlabelled_unit]
    · have hSections : ((blocks column.elements).map Block.toSection).flatMap
          Element.placements = column.elements.flatMap Element.placements := by
        rw [flatMap_sections Element.placements_outer Element.placements_holder,
          Element.map_unlabelled_unit]
      simp only [if_neg hBlocks]
      rw [hSections, hElements, List.flatMap_singleton, Element.placements_plain
        (by simp [hKind]) hSettings, hElements, List.flatMap_singleton,
        Element.placements_wrapper (by simp [hColumn])]

end Element

end Pagewright.Page
