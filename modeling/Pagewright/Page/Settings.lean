import Pagewright.Layout.Style
import Pagewright.Number.Rounding
import Pagewright.Page.Element

/-!
# Settings of wrappers

Sections, columns and containers carry the background and padding of the
layout node they stand for. A background needs a color that is not empty; a
padding is written in whole pixels as text, and is linked when all four edges
are the same.
-/

namespace Pagewright.Page

/-- An edge in whole pixels. -/
def edgeText (edge : Float) : String := toString (Number.pixels edge)

/-- The padding setting. -/
def paddingSetting (p : Layout.Padding) : Json :=
  let top := edgeText p.top
  let right := edgeText p.right
  let bottom := edgeText p.bottom
  let left := edgeText p.left
  .obj [("bottom", .str bottom),
    ("isLinked", .bool (right == top && bottom == top && left == top)),
    ("left", .str left), ("right", .str right), ("top", .str top), ("unit", .str "px")]

/-- The background settings of a color. -/
def backgroundSettings (color : Option String) : Settings :=
  match color with
  | some color =>
    if color = "" then []
    else [("background_background", .str "classic"), ("background_color", .str color)]
  | none => []

/-- The settings of a wrapper with a style. -/
def wrapperSettings : Option Layout.Style → Settings
  | none => []
  | some style =>
    backgroundSettings style.backgroundColor ++
      match style.padding with
      | some padding => [("padding", paddingSetting padding)]
      | none => []

/--
The settings of a container: those of a wrapper, and the direction of its
children. A row always has one, any other container only its own.
-/
def containerSettings (style : Option Layout.Style) (isRow : Bool) : Settings :=
  let direction := if isRow then some Layout.Direction.row else style.bind (·.direction)
  match direction with
  | some direction =>
    Json.insert "flex_direction" (.str direction.name) (wrapperSettings style)
  | none => wrapperSettings style

/-- Adds the settings of `outer` that `inner` does not set. -/
def inheritSettings (outer inner : Settings) : Settings :=
  outer.foldl (fun settings entry => Json.insertNew entry.1 entry.2 settings) inner

end Pagewright.Page
