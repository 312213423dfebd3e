import Pagewright.Proofs.Page.Flatten

/-!
# What flattening leaves out

A *sighting* is an element of a page together with the elements around it. What
a reader sees of it is the element itself and the settings that it stands in.
Flattening leaves out redundant wrappers that stand directly in a column, each
with its only column; both are without settings, so that nobody sees a
difference. Everything else is seen as before and in the same order.

The induction is over the elements of a page. What stands for an element after
flattening is one element where it is kept and the elements of a column where
it is left out, and in both cases it stands in the same settings as before.

## Main results

* `flatMap_remains` — flattening an element, told from what remains of those inside it.
* `views_remains` — the sightings that are kept are those of what remains.
* `sightings_flatten` — flattening leaves out redundant wrappers and nothing else.
-/

namespace Pagewright.Page

variable {ι : Type}

/-! ## Sightings -/

/-- An element of a page with the elements around it, the closest first. -/
structure Sighting (ι : Type) where
  element : Element ι
  around : List (Element ι)

mutual

/-- The elements of a tree in document order, each with those around it. -/
def Element.sightings (around : List (Element ι)) : Element ι → List (Sighting ι)
  | ⟨id, kind, widget, inner, settings, elements⟩ =>
    let e : Element ι := ⟨id, kind, widget, inner, settings, elements⟩
    ⟨e, around⟩ :: Element.sightingsAll (e :: around) elements

/-- The elements of several trees, one tree after the other. -/
def Element.sightingsAll (around : List (Element ι)) : List (Element ι) → List (Sighting ι)
  | [] => []
  | e :: rest => Element.sightings around e ++ Element.sightingsAll around rest

end

/-- An element without the elements inside it. -/
structure Shell (ι : Type) where
  id : ι
  kind : ElementKind
  widget : Option WidgetKind
  inner : Bool
  settings : Settings
  deriving BEq, Repr

/-- An element as it is seen on its own. -/
def Element.shell (e : Element ι) : Shell ι := ⟨e.id, e.kind, e.widget, e.inner, e.settings⟩

/-- The settings of the elements around, the outermost first, where there are any. -/
def settingsAround (around : List (Element ι)) : List Settings :=
  (around.reverse.map (·.settings)).filter fun settings => !settings.isEmpty

namespace Sighting

/-- The sighting of the element that is the closest one around. -/
def outer? (s : Sighting ι) : Option (Sighting ι) :=
  match s.around with
  | [] => none
  | e :: rest => some ⟨e, rest⟩

/-- Whether an element is a redundant wrapper directly in a column. -/
def isTakenOut (s : Sighting ι) : Bool :=
  isRedundant s.element && s.around.head?.any (·.kind == .column)

/-- Whether an element is the column of such a wrapper. -/
def isOfTakenOut (s : Sighting ι) : Bool := s.outer?.any isTakenOut

/-- Whether flattening leaves an element out. -/
def isLeftOut (s : Sighting ι) : Bool := s.isTakenOut || s.isOfTakenOut

/-- What a reader sees of an element: itself, and the settings that it stands in. -/
def view (s : Sighting ι) : Shell ι × List Settings := (s.element.shell, settingsAround s.around)

/-- What stands for an element after flattening. -/
def remains (s : Sighting ι) : List (Element ι) :=
  if s.isTakenOut then unwrap (flattenElement s.element)
  else if s.isOfTakenOut then (flattenElement s.element).elements
  else [flattenElement s.element]

end Sighting

namespace Element

theorem sightingsAll_eq (around : List (Element ι)) (es : List (Element ι)) :
    sightingsAll around es = es.flatMap (sightings around) := by
  induction es with
  | nil => rfl
  | cons e rest ih => rw [sightingsAll, ih, List.flatMap_cons]

theorem sightings_eq (around : List (Element ι)) (e : Element ι) :
    sightings around e = ⟨e, around⟩ :: e.elements.flatMap (sightings (e :: around)) := by
  cases e
  rw [sightings, sightingsAll_eq]

/-- Sightings list the elements of a tree in document order. -/
theorem map_element_sightings (e : Element ι) :
    ∀ around, (sightings around e).map (·.element) = e.preorder := by
  induction e using induct with
  | step e ih =>
    intro around
    rw [sightings_eq, preorder_eq, List.map_cons, List.map_flatMap]
    exact congrArg _ (List.flatMap_congr fun inside hMem => ih inside hMem (e :: around))

theorem map_element_sightingsAll (es : List (Element ι)) (around : List (Element ι)) :
    (sightingsAll around es).map (·.element) = preorderAll es := by
  rw [sightingsAll_eq, preorderAll_eq, List.map_flatMap]
  exact List.flatMap_congr fun e _ => map_element_sightings e around

theorem length_preorder (e : Element ι) : e.preorder.length = e.count := by
  have hAll (es : List (Element ι)) (hEach : ∀ e ∈ es, e.preorder.length = e.count) :
      (es.flatMap preorder).length = countAll es := by
    induction es with
    | nil => rfl
    | cons e rest ih =>
      rw [List.flatMap_cons, List.length_append, hEach e List.mem_cons_self,
        ih fun other hMem => hEach other (List.mem_cons_of_mem e hMem), countAll]
  induction e using induct with
  | step e ih =>
    rw [preorder_eq, List.length_cons, hAll e.elements ih, count_eq, Nat.add_comm]

theorem length_sightingsAll (es : List (Element ι)) (around : List (Element ι)) :
    (sightingsAll around es).length = countAll es := by
  rw [← List.length_map (·.element), map_element_sightingsAll]
  induction es with
  | nil => rfl
  | cons e rest ih => rw [preorderAll, List.length_append, length_preorder, ih, countAll]

end Element

/-! ## What is left out -/

theorem settingsAround_cons (e : Element ι) (around : List (Element ι)) :
    settingsAround (e :: around) =
      settingsAround around ++ [e.settings].filter fun settings => !settings.isEmpty := by
  rw [settingsAround, List.reverse_cons, List.map_append, List.filter_append]
  rfl

theorem settingsAround_cons_plain {e : Element ι} (hPlain : e.settings = [])
    (around : List (Element ι)) : settingsAround (e :: around) = settingsAround around := by
  rw [settingsAround_cons, hPlain]
  exact List.append_nil _

namespace Sighting

/-- A sighting of an element in the place where it stands. -/
def Placed (s : Sighting ι) : Prop := ∀ outer ∈ s.around.head?, s.element ∈ outer.elements

theorem placed_inside {e inside : Element ι} (hMem : inside ∈ e.elements)
    (around : List (Element ι)) : Placed ⟨inside, e :: around⟩ := by
  intro outer hOuter
  rw [← Option.some.inj hOuter]
  exact hMem

/-- What is left out has no settings, and only one of the two reasons for it applies. -/
theorem plain_of_isTakenOut {s : Sighting ι} (hTaken : s.isTakenOut = true) :
    s.element.settings = [] ∧ s.element.kind = .section := by
  obtain ⟨hRedundant, -⟩ := Bool.and_eq_true_iff.1 hTaken
  obtain ⟨hKind, -, hSettings, -⟩ := exists_column_of_isRedundant hRedundant
  exact ⟨hSettings, hKind⟩

theorem plain_of_isOfTakenOut {s : Sighting ι} (hPlaced : s.Placed)
    (hColumn : s.isOfTakenOut = true) : s.element.settings = [] ∧ s.element.kind = .column := by
  obtain ⟨e, around⟩ := s
  cases around with
  | nil => cases hColumn
  | cons wrapper rest =>
    obtain ⟨hRedundant, -⟩ := Bool.and_eq_true_iff.1 hColumn
    obtain ⟨-, -, -, column, hElements, hKind, hSettings⟩ :=
      exists_column_of_isRedundant hRedundant
    have hMem : e ∈ wrapper.elements := hPlaced wrapper rfl
    rw [hElements, List.mem_singleton] at hMem
    exact hMem ▸ ⟨hSettings, hKind⟩

theorem plain_of_isLeftOut {s : Sighting ι} (hPlaced : s.Placed) (hLeft : s.isLeftOut = true) :
    s.element.settings = [] := by
  rcases Bool.or_eq_true_iff.1 hLeft with hTaken | hColumn
  · exact (plain_of_isTakenOut hTaken).1
  · exact (plain_of_isOfTakenOut hPlaced hColumn).1

/-! ## What remains -/

/-- What remains of the elements inside an element stands inside the flattened
element, or for it where it is taken out. -/
theorem flatMap_remains (e : Element ι) (around : List (Element ι)) :
    (e.elements.flatMap fun inside => remains ⟨inside, e :: around⟩) =
      if isTakenOut ⟨e, around⟩ then unwrap (flattenElement e)
      else (flattenElement e).elements := by
  cases hTaken : isTakenOut ⟨e, around⟩ with
  | true =>
    obtain ⟨hRedundant, -⟩ := Bool.and_eq_true_iff.1 hTaken
    obtain ⟨-, -, -, column, hElements, hKind, -⟩ := exists_column_of_isRedundant hRedundant
    have hKept : isTakenOut ⟨column, e :: around⟩ = false := by
      rw [isTakenOut, isRedundant_of_column hKind, Bool.false_and]
    have hColumn : isOfTakenOut ⟨column, e :: around⟩ = true := hTaken
    rw [hElements, List.flatMap_singleton, remains, hKept, hColumn, if_pos rfl,
      unwrap_flattenElement hRedundant hElements]
    rfl
  | false =>
    have hColumn (inside : Element ι) : isOfTakenOut ⟨inside, e :: around⟩ = false := hTaken
    rw [if_neg Bool.false_ne_true, flattenElement_elements, flattenInside]
    by_cases hKind : e.kind = .column
    · -- What is not taken out is not redundant, and unwrapping leaves it as it is.
      rw [if_pos hKind, List.flatMap_map]
      refine List.flatMap_congr fun inside _ => ?_
      have hSame : isTakenOut ⟨inside, e :: around⟩ = isRedundant (flattenElement inside) := by
        simp [isTakenOut, hKind, isRedundant_flattenElement]
      rw [remains, hColumn, hSame]
      cases hRedundant : isRedundant (flattenElement inside) with
      | true => rfl
      | false => exact (unwrap_of_not_redundant hRedundant).symm
    · rw [if_neg hKind, List.map_eq_flatMap]
      refine List.flatMap_congr fun inside _ => ?_
      have hKept : isTakenOut ⟨inside, e :: around⟩ = false := by simp [isTakenOut, hKind]
      rw [remains, hColumn, hKept]
      rfl

/-- The sightings that are kept of an element are those of what remains of it,
wherever that stands in the same settings. -/
theorem views_remains (e : Element ι) : ∀ around outside : List (Element ι),
    Placed ⟨e, around⟩ → settingsAround around = settingsAround outside →
      ((e.sightings around).filter fun s => !s.isLeftOut).map view =
        (remains ⟨e, around⟩).flatMap fun x => (x.sightings outside).map view := by
  induction e using Element.induct with
  | step e ih =>
    intro around outside hPlaced hSettings
    -- The elements inside, where what remains of them stands in `closer`.
    have hInside (closer : List (Element ι))
        (hCloser : settingsAround (e :: around) = settingsAround closer) :
        ((e.elements.flatMap (Element.sightings (e :: around))).filter fun s =>
            !s.isLeftOut).map view =
          (if isTakenOut ⟨e, around⟩ then unwrap (flattenElement e)
            else (flattenElement e).elements).flatMap fun x => (x.sightings closer).map view := by
      rw [← flatMap_remains, List.filter_flatMap, List.map_flatMap, List.flatMap_assoc]
      exact List.flatMap_congr fun inside hMem =>
        ih inside hMem (e :: around) closer (placed_inside hMem around) hCloser
    rw [Element.sightings_eq, List.filter_cons]
    cases hLeft : isLeftOut ⟨e, around⟩ with
    | true =>
      have hSame : settingsAround (e :: around) = settingsAround outside :=
        (settingsAround_cons_plain (plain_of_isLeftOut hPlaced hLeft) around).trans hSettings
      have hRemains : remains ⟨e, around⟩ = if isTakenOut ⟨e, around⟩ then
          unwrap (flattenElement e) else (flattenElement e).elements := by
        unfold isLeftOut at hLeft
        unfold remains
        split
        · rfl
        · rename_i hKept
          rw [Bool.eq_false_iff.2 hKept, Bool.false_or] at hLeft
          rw [if_pos hLeft]
      rw [hRemains, ← hInside outside hSame]
      rfl
    | false =>
      obtain ⟨hKept, hColumn⟩ := Bool.or_eq_false_iff.1 hLeft
      have hCloser :
          settingsAround (e :: around) = settingsAround (flattenElement e :: outside) := by
        rw [settingsAround_cons, settingsAround_cons, hSettings, flattenElement_settings]
      have hShell : view ⟨e, around⟩ = view ⟨flattenElement e, outside⟩ := by
        rw [view, view, hSettings, flattenElement_eq]
        rfl
      have hRest := hInside (flattenElement e :: outside) hCloser
      rw [hKept, if_neg Bool.false_ne_true] at hRest
      rw [remains, hKept, hColumn, if_neg Bool.false_ne_true, if_neg Bool.false_ne_true,
        List.flatMap_singleton, Element.sightings_eq, List.map_cons, List.map_flatMap, ← hRest,
        ← hShell]
      rfl

/-! ## How many are left out -/

private theorem countP_flatMap_double {α β : Type} {p q : β → Bool} {f : α → List β}
    {xs : List α} (h : ∀ x ∈ xs, (f x).countP p = 2 * (f x).countP q) :
    (xs.flatMap f).countP p = 2 * (xs.flatMap f).countP q := by
  induction xs with
  | nil => rfl
  | cons x rest ih =>
    have hFirst := h x List.mem_cons_self
    have hRest := ih fun y hy => h y (List.mem_cons_of_mem x hy)
    rw [List.flatMap_cons, List.countP_append, List.countP_append]
    omega

/-- With every wrapper that is taken out one column is left out as well. -/
theorem countP_isLeftOut (e : Element ι) : ∀ around, Placed ⟨e, around⟩ →
    (e.sightings around).countP isLeftOut =
      2 * (e.sightings around).countP isTakenOut +
        if isOfTakenOut ⟨e, around⟩ then 1 else 0 := by
  induction e using Element.induct with
  | step e ih =>
    intro around hPlaced
    have hInside : (e.elements.flatMap (Element.sightings (e :: around))).countP isLeftOut =
        2 * (e.elements.flatMap (Element.sightings (e :: around))).countP isTakenOut +
          if isTakenOut ⟨e, around⟩ then 1 else 0 := by
      have hEach (inside : Element ι) (hMem : inside ∈ e.elements) :=
        ih inside hMem (e :: around) (placed_inside hMem around)
      have hSame (inside : Element ι) :
          isOfTakenOut ⟨inside, e :: around⟩ = isTakenOut ⟨e, around⟩ := rfl
      simp only [hSame] at hEach
      cases hTaken : isTakenOut ⟨e, around⟩ with
      | true =>
        obtain ⟨hRedundant, -⟩ := Bool.and_eq_true_iff.1 hTaken
        obtain ⟨-, -, -, column, hElements, -⟩ := exists_column_of_isRedundant hRedundant
        rw [hElements, List.flatMap_singleton]
        simpa only [hTaken] using hEach column (hElements ▸ List.mem_singleton_self column)
      | false =>
        simp only [hTaken] at hEach
        exact countP_flatMap_double hEach
    rw [Element.sightings_eq, List.countP_cons, List.countP_cons, hInside, isLeftOut]
    cases hTaken : isTakenOut ⟨e, around⟩ with
    | true =>
      -- A wrapper is a section, and so never the column of another wrapper.
      have hColumn : isOfTakenOut ⟨e, around⟩ = false := by
        refine Bool.eq_false_iff.2 fun hColumn => ?_
        have hKind := (plain_of_isOfTakenOut hPlaced hColumn).2
        rw [(plain_of_isTakenOut hTaken).2] at hKind
        cases hKind
      rw [hColumn]
      simp only [Bool.or_false, if_true, Bool.false_eq_true, if_false]
      omega
    | false =>
      simp only [Bool.false_or, Bool.false_eq_true, if_false, Nat.add_zero]

/-! At the top of a page nothing is around. -/

theorem remains_top (e : Element ι) : remains ⟨e, []⟩ = [flattenElement e] := by
  have hKept : isTakenOut ⟨e, []⟩ = false := Bool.and_false _
  rw [remains, hKept]
  rfl

theorem placed_top (e : Element ι) : Placed ⟨e, []⟩ := nofun

end Sighting

/-! ## Pages -/

/-- Flattening leaves out the redundant wrappers directly in columns, each with
its only column. All other elements are seen as before, in the same order and in
the same settings; as many elements as before stand at the top, and every
wrapper that is left out takes two elements away. -/
theorem sightings_flatten (content : List (Element ι)) :
    (Element.preorderAll (flatten content)).map Element.shell =
        ((Element.sightingsAll [] content).filter fun s => !s.isLeftOut).map (·.element.shell) ∧
      (Element.sightingsAll [] (flatten content)).map Sighting.view =
        ((Element.sightingsAll [] content).filter fun s => !s.isLeftOut).map Sighting.view ∧
      (Element.sightingsAll [] content).map (·.element) = Element.preorderAll content ∧
      (flatten content).length = content.length ∧
      Element.countAll content = Element.countAll (flatten content) +
        2 * (Element.sightingsAll [] content).countP Sighting.isTakenOut := by
  have hViews : (Element.sightingsAll [] (flatten content)).map Sighting.view =
      ((Element.sightingsAll [] content).filter fun s => !s.isLeftOut).map Sighting.view := by
    rw [Element.sightingsAll_eq, Element.sightingsAll_eq, flatten, flattenAll_eq_map,
      List.flatMap_map, List.map_flatMap, List.filter_flatMap, List.map_flatMap]
    refine List.flatMap_congr fun e _ => ?_
    rw [Sighting.views_remains e [] [] (Sighting.placed_top e) rfl, Sighting.remains_top,
      List.flatMap_singleton]
  have hLeft : (Element.sightingsAll [] content).countP Sighting.isLeftOut =
      2 * (Element.sightingsAll [] content).countP Sighting.isTakenOut := by
    rw [Element.sightingsAll_eq]
    exact Sighting.countP_flatMap_double fun e _ =>
      Sighting.countP_isLeftOut e [] (Sighting.placed_top e)
  refine ⟨?_, hViews, Element.map_element_sightingsAll content [], ?_, ?_⟩
  · have hShells := congrArg (List.map Prod.fst) hViews
    rw [List.map_map, List.map_map] at hShells
    rw [← Element.map_element_sightingsAll (flatten content) [], List.map_map]
    exact hShells
  · rw [flatten, flattenAll_eq_map, List.length_map]
  · have hKept := congrArg List.length hViews
    rw [List.length_map, List.length_map, Element.length_sightingsAll,
      ← List.countP_eq_length_filter] at hKept
    have hAll := List.length_eq_countP_add_countP Sighting.isLeftOut
      (l := Element.sightingsAll [] content)
    rw [Element.length_sightingsAll] at hAll
    simp only [Bool.not_eq_true, Bool.decide_eq_false] at hAll
    omega

end Pagewright.Page
