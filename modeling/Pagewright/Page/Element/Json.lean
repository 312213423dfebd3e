import Pagewright.Page.Element
import Pagewright.Json.Shape

/-!
# The JSON form of page-builder elements

An element is an object with its id, its kind, a widget kind for widgets, the
inner flag, its settings and its elements, in this order. A page document puts
a title and a version in front of a list of elements.
-/

namespace Pagewright.Page

open Json

/-! ## Names -/

/-- The name of an element kind. -/
def ElementKind.name : ElementKind → String
  | .section => "section"
  | .column => "column"
  | .container => "container"
  | .widget => "widget"

/-- All element kinds by name. -/
def ElementKind.variants : List (String × ElementKind) :=
  [.section, .column, .container, .widget].map fun kind => (kind.name, kind)

/-- The name of a widget kind. -/
def WidgetKind.name : WidgetKind → String
  | .heading => "heading"
  | .textEditor => "text-editor"
  | .image => "image"
  | .button => "button"
  | .html => "html"

/-- All widget kinds by name. -/
def WidgetKind.variants : List (String × WidgetKind) :=
  [.heading, .textEditor, .image, .button, .html].map fun kind => (kind.name, kind)

/-! ## Writing -/

/-- The widget kind of an element, where it has one. -/
def widgetField : Option WidgetKind → Fields
  | some widget => [("widgetType", .str widget.name)]
  | none => []

mutual

/-- The JSON form of an element. -/
def Element.toJson : Element String → Json
  | ⟨id, kind, widget, inner, settings, elements⟩ =>
    .obj ([("id", .str id), ("elType", .str kind.name)] ++ widgetField widget ++
      [("isInner", .bool inner), ("settings", .obj settings),
       ("elements", .arr (Element.listToJson elements))])

/-- The JSON forms of elements. -/
def Element.listToJson : List (Element String) → List Json
  | [] => []
  | e :: rest => e.toJson :: Element.listToJson rest

end

/-! ## Reading -/

/-- A field that has to be there. -/
def requiredField {α : Type} (name : String) : Option α → Except ShapeError α
  | some value => .ok value
  | none => .error (.missingField name)

/-- A field that may be missing; whether it has to be there is checked last. -/
def presentField {α : Type} (fields : Fields) (key : String) (read : Reader α) :
    Except ShapeError (Option α) :=
  field fields key (fun value => (read value).map some) none

/-- The number of fields of an element. -/
def elementArity : Nat := 6

/-- An entry that a record given as an array has to have. -/
def requiredEntry {α : Type} (record : String) (items : List Json) (index : Nat)
    (read : Reader α) : Except ShapeError α :=
  match items[index]? with
  | some value => read value
  | none => .error (.wrongLength index record)

/-- An entry that an element has to have. -/
def elementEntry {α : Type} (items : List Json) (index : Nat) (read : Reader α) :
    Except ShapeError α :=
  requiredEntry "struct Element with 6 elements" items index read

mutual

/-- An element. -/
def readElement : Json → Except ShapeError (Element String)
  | .obj fields => do
    let kind ← presentField fields "elType" (readVariant .alone ElementKind.variants)
    let elements ← readElementsField fields
    let id ← presentField fields "id" readText
    let inner ← presentField fields "isInner" readBool
    let settings ← field fields "settings" readMap []
    let widget ← field fields "widgetType"
      (readOption (readVariant .alone WidgetKind.variants)) none
    let id ← requiredField "id" id
    let kind ← requiredField "elType" kind
    let inner ← requiredField "isInner" inner
    .ok ⟨id, kind, widget, inner, settings, elements⟩
  | .arr items => do
    let id ← elementEntry items 0 readText
    let kind ← elementEntry items 1 (readVariant .alone ElementKind.variants)
    let widget ← entry items 2 (readOption (readVariant .alone WidgetKind.variants)) none
    let inner ← elementEntry items 3 readBool
    let settings ← entry items 4 readMap []
    let elements ← readSixthItem items
    checkLength .alone elementArity items
    .ok ⟨id, kind, widget, inner, settings, elements⟩
  | other => .error (.wrongType other "struct Element")

/-- The `elements` field. -/
def readElementsField : Fields → Except ShapeError (List (Element String))
  | [] => .ok []
  | (key, value) :: rest =>
    if key = "elements" then readElements value else readElementsField rest

/-- An array of elements. -/
def readElements : Json → Except ShapeError (List (Element String))
  | .arr items => readElementItems items
  | other => .error (.wrongType other "a sequence")

/-- Elements one after the other. -/
def readElementItems : List Json → Except ShapeError (List (Element String))
  | [] => .ok []
  | item :: rest => do
    let e ← readElement item
    let es ← readElementItems rest
    .ok (e :: es)

/-- The elements of an element given as an array. -/
def readSixthItem : List Json → Except ShapeError (List (Element String))
  | _ :: _ :: _ :: _ :: _ :: elements :: _ => readElements elements
  | _ => .ok []

end

/-! ## Documents -/

/-- A complete page. -/
structure Document where
  title : String
  kind : String := "page"
  version : String := "0.4"
  pageSettings : Settings := []
  content : List (Element String)
  deriving BEq, Repr, Inhabited

/-- The JSON form of a page. -/
def Document.toJson (d : Document) : Json :=
  .obj [("title", .str d.title), ("type", .str d.kind), ("version", .str d.version),
    ("page_settings", .obj d.pageSettings),
    ("content", .arr (Element.listToJson d.content))]

/-- A page from the fields of an object. -/
def Document.ofFields (fields : Fields) : Except ShapeError Document := do
  let content ← field fields "content" readElements []
  let pageSettings ← field fields "page_settings" readMap []
  let title ← presentField fields "title" readText
  let kind ← presentField fields "type" readText
  let version ← presentField fields "version" readText
  let title ← requiredField "title" title
  let kind ← requiredField "type" kind
  let version ← requiredField "version" version
  .ok { title, kind, version, pageSettings, content }

/-- An entry that a page has to have. -/
def documentEntry {α : Type} (items : List Json) (index : Nat) (read : Reader α) :
    Except ShapeError α :=
  requiredEntry "struct PageDocument with 5 elements" items index read

/-- A page from the entries of an array. -/
def Document.ofItems (items : List Json) : Except ShapeError Document := do
  let title ← documentEntry items 0 readText
  let kind ← documentEntry items 1 readText
  let version ← documentEntry items 2 readText
  let pageSettings ← entry items 3 readMap []
  let content ← entry items 4 readElements []
  .ok { title, kind, version, pageSettings, content }

/-- A page. -/
def readDocument : Reader Document :=
  readRecord "PageDocument" .alone 5 Document.ofFields Document.ofItems

end Pagewright.Page
