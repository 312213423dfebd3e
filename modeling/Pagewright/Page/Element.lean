import Pagewright.Json.Value
import Pagewright.Page.Ids

/-!
# Page-builder elements

A page is a list of nested elements: sections of columns, containers, and
widgets at the leaves. While a page is being built its elements are labelled
with the structural path that their id will be made of; `Element.assign` walks
a tree from the outside in and trades every path for an id.

## Main results

* `Element.map_assign` — handing out ids changes nothing but the labels.
-/

namespace Pagewright.Page

/-- What an element is. -/
inductive ElementKind where
  | section
  | column
  | container
  | widget
  deriving DecidableEq, Repr, Inhabited

/-- What a widget shows. -/
inductive WidgetKind where
  | heading
  | textEditor
  | image
  | button
  | html
  deriving DecidableEq, Repr, Inhabited

/-- Free-form settings in ascending key order. -/
abbrev Settings := Json.Fields

/-- An element with a label of some type. -/
structure Element (ι : Type) where
  id : ι
  kind : ElementKind
  widget : Option WidgetKind
  inner : Bool
  settings : Settings
  elements : List (Element ι)
  deriving BEq, Repr, Inhabited

namespace Element

variable {ι κ : Type}

/-- A section. -/
def ofSection (id : ι) (inner : Bool) (settings : Settings) (elements : List (Element ι)) :
    Element ι :=
  ⟨id, .section, none, inner, settings, elements⟩

/-- A column, which is never an inner element. -/
def ofColumn (id : ι) (settings : Settings) (elements : List (Element ι)) : Element ι :=
  ⟨id, .column, none, false, settings, elements⟩

/-- A container. -/
def ofContainer (id : ι) (inner : Bool) (settings : Settings) (elements : List (Element ι)) :
    Element ι :=
  ⟨id, .container, none, inner, settings, elements⟩

/-- A widget. -/
def ofWidget (id : ι) (widget : WidgetKind) (settings : Settings) : Element ι :=
  ⟨id, .widget, some widget, false, settings, []⟩

/-- Whether an element is a section within a column. -/
def isInnerSection (e : Element ι) : Bool := e.kind == .section && e.inner

mutual

/-- The number of elements of a tree. -/
def count : Element ι → Nat
  | ⟨_, _, _, _, _, elements⟩ => 1 + countAll elements

/-- The number of elements of several trees. -/
def countAll : List (Element ι) → Nat
  | [] => 0
  | e :: rest => count e + countAll rest

end

/-! ## Labels -/

mutual

/-- The tree with other labels. -/
def map (f : ι → κ) : Element ι → Element κ
  | ⟨id, kind, widget, inner, settings, elements⟩ =>
    ⟨f id, kind, widget, inner, settings, mapAll f elements⟩

/-- The trees with other labels. -/
def mapAll (f : ι → κ) : List (Element ι) → List (Element κ)
  | [] => []
  | e :: rest => map f e :: mapAll f rest

end

mutual

/-- The labels of a tree from the outside in. -/
def labels : Element ι → List ι
  | ⟨id, _, _, _, _, elements⟩ => id :: labelsAll elements

/-- The labels of several trees. -/
def labelsAll : List (Element ι) → List ι
  | [] => []
  | e :: rest => labels e ++ labelsAll rest

end

end Element

/-! ## Paths -/

/-- One step down in the structure of a layout. -/
inductive PathStep where
  /-- The child at a position. -/
  | child (index : Nat)
  /-- The list of children of a block. -/
  | elements
  /-- The column that stands for a position of a row. -/
  | column (index : Nat)
  /-- The container that stands for a position of a row. -/
  | container (index : Nat)
  /-- The nodes at a position of a row. -/
  | cell (index : Nat)
  deriving DecidableEq, Repr

/-- A structural path. -/
inductive Path where
  | root (name : String)
  | under (parent : Path) (step : PathStep)
  deriving DecidableEq, Repr

/-- The spelling of a step. -/
def PathStep.text : PathStep → String
  | child index => toString index
  | elements => "elements"
  | column index => "column." ++ toString index
  | container index => "container." ++ toString index
  | cell index => "col." ++ toString index

/-- The spelling of a path, its steps after points. -/
def Path.text : Path → String
  | root name => name
  | under parent step => parent.text ++ "." ++ step.text

/-! ## From paths to ids -/

namespace Element

mutual

/-- The tree with an id for every path, handed out from the outside in. -/
def assign : Element Path → Issued → Element String × Issued
  | ⟨path, kind, widget, inner, settings, elements⟩, issued =>
    let own := issued.allocate path.text
    let below := assignAll elements own.2
    (⟨own.1, kind, widget, inner, settings, below.1⟩, below.2)

/-- The trees with an id for every path, one tree after the other. -/
def assignAll : List (Element Path) → Issued → List (Element String) × Issued
  | [], issued => ([], issued)
  | e :: rest, issued =>
    let first := assign e issued
    let others := assignAll rest first.2
    (first.1 :: others.1, others.2)

end

mutual

/-- Apart from its labels a tree stays as it is. -/
theorem map_assign {κ : Type} (label : κ) :
    ∀ (e : Element Path) (issued : Issued),
      map (fun _ => label) (assign e issued).1 = map (fun _ => label) e
  | ⟨path, _, _, _, _, elements⟩, issued => by
    simp only [assign, map]
    rw [mapAll_assignAll label elements]

/-- Apart from their labels trees stay as they are. -/
theorem mapAll_assignAll {κ : Type} (label : κ) :
    ∀ (es : List (Element Path)) (issued : Issued),
      mapAll (fun _ => label) (assignAll es issued).1 = mapAll (fun _ => label) es
  | [], _ => rfl
  | e :: rest, issued => by
    simp only [assignAll, mapAll]
    rw [map_assign label e, mapAll_assignAll label rest]

end

end Element

end Pagewright.Page
