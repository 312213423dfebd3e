import Pagewright.Page.Build
import Pagewright.Page.Element.Json
import Pagewright.Page.Flatten
import Pagewright.Page.Split

/-!
# Page-builder export

An export builds the elements of a layout, hands out their ids, wraps a root
that is no block of the dialect, and applies the dialect's passes: splitting
for `classicSimple`, and flattening for both classic dialects.
-/

namespace Pagewright.Page

/-- The path of the root of a layout. -/
def rootPath : Path := .root "root"

/-- The path of the block around a root that is a leaf. -/
def wrapPath (d : Dialect) (index : Nat) : Path :=
  match d with
  | .container => (Path.root "root.wrap.container").under (.child index)
  | _ => (Path.root "root.wrap.section").under (.child index)

/-- A block around a leaf at the top level. -/
def wrapLeaf (d : Dialect) (index : Nat) (e : Element String) (issued : Issued) :
    Element String × Issued :=
  let outer := issued.allocate (wrapPath d index).text
  match d with
  | .container => (Element.ofContainer outer.1 false [] [e], outer.2)
  | _ =>
    let column := outer.2.allocate ((wrapPath d index).under (.column 0)).text
    (Element.ofSection outer.1 false [] [Element.ofColumn column.1 [] [e]], column.2)

/-- The elements of a root as blocks of the dialect, from an index on. -/
def normalize (d : Dialect) : Nat → List (Element String) → Issued →
    List (Element String) × Issued
  | _, [], issued => ([], issued)
  | index, e :: rest, issued =>
    let first := if e.kind = d.topLevel then (e, issued) else wrapLeaf d index e issued
    let others := normalize d (index + 1) rest first.2
    (first.1 :: others.1, others.2)

/-- The passes of a dialect over the blocks of a page. -/
def applyPasses (d : Dialect) (content : List (Element String)) (issued : Issued) :
    List (Element String) :=
  match d with
  | .classic => flatten content
  | .classicSimple => flatten (split content issued).1
  | .container => content

/-- The content of a page that shows a layout. -/
def content (d : Dialect) (layout : Layout.Node) : List (Element String) :=
  let mapped := Element.assignAll (build d rootPath 0 layout).toList {}
  let blocks := normalize d 0 mapped.1 mapped.2
  applyPasses d blocks.1 blocks.2

/-- The title of a page that is not given one. -/
def defaultTitle : String := "Template Title"

/-- The page of a layout; without a layout it is empty. -/
def exportLayout (layout : Option Layout.Node) (title : String) (d : Dialect) : Document where
  title := title
  content := match layout with
    | some root => content d root
    | none => []

end Pagewright.Page
