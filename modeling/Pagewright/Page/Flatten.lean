import Pagewright.Page.Element

/-!
# Removing redundant wrappers

Every nested block of a layout becomes an inner section with one column. Where
neither carries settings the pair adds nothing but depth, and the column that
holds it takes the inner column's elements in its place. Flattening works from
the inside out.
-/

namespace Pagewright.Page

variable {ι : Type}

/-- Whether an element is an inner section whose only job is to hold one plain column. -/
def isRedundant (e : Element ι) : Bool :=
  e.isInnerSection && e.settings.isEmpty &&
    match e.elements with
    | [column] => column.kind == .column && column.settings.isEmpty && !column.inner
    | _ => false

/-- What stands in a column for one of its elements. -/
def unwrap (e : Element ι) : List (Element ι) :=
  if isRedundant e then e.elements.flatMap (·.elements) else [e]

mutual

/-- An element without redundant wrappers inside. -/
def flattenElement : Element ι → Element ι
  | ⟨id, kind, widget, inner, settings, elements⟩ =>
    let flat := flattenAll elements
    ⟨id, kind, widget, inner, settings, if kind = .column then flat.flatMap unwrap else flat⟩

/-- Elements without redundant wrappers inside. -/
def flattenAll : List (Element ι) → List (Element ι)
  | [] => []
  | e :: rest => flattenElement e :: flattenAll rest

end

/-- A page without redundant wrappers. -/
def flatten (content : List (Element ι)) : List (Element ι) := flattenAll content

theorem flattenAll_eq_map (es : List (Element ι)) : flattenAll es = es.map flattenElement := by
  induction es with
  | nil => rfl
  | cons e rest ih => rw [flattenAll, List.map_cons, ih]

end Pagewright.Page
