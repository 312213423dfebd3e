import Pagewright.Page.Settings
import Pagewright.Text.Blank
import Pagewright.Text.Characters

/-!
# Page-builder dialects

The dialects differ in how they wrap. The two classic ones nest sections,
columns and widgets; `classicSimple` also promotes inner sections to the top
level afterwards. The container dialect nests containers only. A dialect says
which elements stand for a block, a row and a column, and at which paths the
nodes inside them live.
-/

namespace Pagewright.Page

/-- A page-builder dialect. -/
inductive Dialect where
  | classic
  | classicSimple
  | container
  deriving DecidableEq, Repr, Inhabited

namespace Dialect

/-- The name of a dialect. -/
def name : Dialect → String
  | classic => "classic"
  | classicSimple => "classic_simple"
  | container => "container"

/-- The dialect of a name in any letter case; an unknown name means classic. -/
def ofName (name : String) : Dialect :=
  match Text.lower (Text.trimmed name) with
  | "classic_simple" => classicSimple
  | "container" => container
  | _ => classic

theorem ofName_name (d : Dialect) : ofName d.name = d := by
  cases d <;> decide +kernel

/-- The kind of the elements at the top of a page. -/
def topLevel : Dialect → ElementKind
  | container => .container
  | _ => .section

/-! ## Blocks -/

/-- Where the children of a block live. -/
def blockPath (d : Dialect) (path : Path) : Path :=
  match d with
  | container => path.under .elements
  | _ => (path.under (.column 0)).under .elements

/-- How deep the children of a block lie. -/
def blockDepth (d : Dialect) (depth : Nat) : Nat :=
  match d with
  | container => depth + 1
  | _ => depth + 2

/-- The element of a block around the elements of its children. -/
def wrapBlock (d : Dialect) (path : Path) (depth : Nat) (style : Option Layout.Style)
    (elements : List (Element Path)) : Element Path :=
  match d with
  | container =>
    Element.ofContainer path (0 < depth) (containerSettings style false) elements
  | _ =>
    Element.ofSection path (0 < depth) (wrapperSettings style)
      [Element.ofColumn (path.under (.column 0)) [] elements]

/-! ## Rows -/

/-- Where the nodes of a column live. -/
def cellPath (path : Path) (index : Nat) : Path := path.under (.cell index)

/-- The width setting of a container. -/
def widthSetting (share : Nat) : Json :=
  .obj [("size", .int share), ("sizes", .arr []), ("unit", .str "%")]

/-- The element of a column, with its share of the row where there is one. -/
def wrapColumn (d : Dialect) (path : Path) (index : Nat) (style : Option Layout.Style)
    (share : Option Nat) (elements : List (Element Path)) : Element Path :=
  match d with
  | container =>
    let settings := containerSettings style false
    let settings := match share with
      | some share => Json.insert "width" (widthSetting share) settings
      | none => settings
    Element.ofContainer (path.under (.container index)) true settings elements
  | _ =>
    let settings := wrapperSettings style
    let settings := match share with
      | some share => Json.insert "_column_size" (.str (toString share)) settings
      | none => settings
    Element.ofColumn (path.under (.column index)) settings elements

/-- The element of a row around the elements of its columns. -/
def wrapRow (d : Dialect) (path : Path) (depth : Nat) (style : Option Layout.Style)
    (elements : List (Element Path)) : Element Path :=
  match d with
  | container =>
    Element.ofContainer path (0 < depth) (containerSettings style true) elements
  | _ => Element.ofSection path (0 < depth) (wrapperSettings style) elements

/-- A row that stands for the section around it as well. -/
def inheritRow (style : Option Layout.Style) (row : Element Path) : Element Path :=
  { row with settings := inheritSettings (wrapperSettings style) row.settings }

end Dialect

end Pagewright.Page
