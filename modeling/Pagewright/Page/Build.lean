import Pagewright.Page.Dialect
import Pagewright.Page.Shares
import Pagewright.Page.Widget

/-!
# From layouts to elements

`build` maps the nodes of a layout that have content to elements labelled with
their structural paths. Blocks and rows are wrapped as the dialect says; in
the classic dialects a section whose only child is a row is that row. The
columns of a row that have content share its width.
-/

namespace Pagewright.Page

open Layout

/-- The widget of a leaf that has content. -/
def buildLeaf (path : Path) (node : Node) : Option (Element Path) :=
  if node.hasContent then
    (leafWidget node).map fun (widget, settings) => Element.ofWidget path widget settings
  else none

/-- The shares of the columns that have content. -/
def rowShares (columns : List Column) : Option (List Nat) :=
  columnShares ((columns.filter Column.hasContent).map fun column =>
    SizeHint.ofStyle column.style)

mutual

/-- The element of a node, if the node has content. -/
def build (d : Dialect) (path : Path) (depth : Nat) : Node → Option (Element Path)
  | .section style [.columns rowStyle columns] =>
    if Column.anyContent columns then
      match d with
      | .container =>
        some (d.wrapBlock path depth style (buildNodes d (d.blockPath path)
          (d.blockDepth depth) 0 [.columns rowStyle columns]))
      | _ =>
        some (Dialect.inheritRow style (d.wrapRow path depth rowStyle
          (buildColumns d path (depth + 2) (rowShares columns) 0 0 columns)))
    else none
  | .section style children | .container style children =>
    if Node.anyContent children then
      some (d.wrapBlock path depth style
        (buildNodes d (d.blockPath path) (d.blockDepth depth) 0 children))
    else none
  | .columns style columns =>
    if Column.anyContent columns then
      some (d.wrapRow path depth style
        (buildColumns d path (depth + 2) (rowShares columns) 0 0 columns))
    else none
  | leaf => buildLeaf path leaf

/-- The elements of the nodes of a list, from a position on. -/
def buildNodes (d : Dialect) (path : Path) (depth : Nat) (index : Nat) :
    List Node → List (Element Path)
  | [] => []
  | node :: rest =>
    (build d (path.under (.child index)) depth node).toList
      ++ buildNodes d path depth (index + 1) rest

/--
The elements of the columns that have content. Paths count all columns, and
shares only those with content.
-/
def buildColumns (d : Dialect) (path : Path) (depth : Nat) (shares : Option (List Nat))
    (kept index : Nat) : List Column → List (Element Path)
  | [] => []
  | .mk style children :: rest =>
    if Node.anyContent children then
      d.wrapColumn path index style (shares.bind (·[kept]?))
          (buildNodes d (Dialect.cellPath path index) depth 0 children)
        :: buildColumns d path depth shares (kept + 1) (index + 1) rest
    else buildColumns d path depth shares kept (index + 1) rest

end

end Pagewright.Page
