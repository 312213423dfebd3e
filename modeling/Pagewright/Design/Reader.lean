import Pagewright.Design.Node
import Pagewright.Json.Value
import Pagewright.Text.Blank
import Pagewright.Text.Characters

/-!
# Reading design trees

The documents of visual tools are loosely shaped: fields go missing, numbers
arrive as text, lists hold stray values. `readNode` takes what is usable and
leaves the rest out, so it answers for every JSON value. Numbers that are not
finite count as missing.

## Main results

* `finite_of_number?` — every number that is read is finite.
-/

namespace Pagewright.Design

open Json

/-! ## Scalars -/

/-- A number, or a text that spells one. -/
def number? (value : Json) : Option Float :=
  let read := match value with
    | .str s => Number.parse? (Text.trim s.toList)
    | other => asNumber? other
  read.filter Float.isFinite

theorem finite_of_number? {value : Json} {x : Float} (h : number? value = some x) :
    x.isFinite = true :=
  (Option.filter_eq_some_iff.1 h).2

/-- The text of a key. -/
def textAt (fields : Fields) (key : String) : Option String :=
  (lookup key fields).bind asText?

/-- The number of a key. -/
def numberAt (fields : Fields) (key : String) : Option Float :=
  (lookup key fields).bind number?

/-- The number of a key, zero where there is none. -/
def numberOr (fallback : Float) (fields : Fields) (key : String) : Float :=
  (numberAt fields key).getD fallback

/-- The object of a key. -/
def objectAt (fields : Fields) (key : String) : Option Fields :=
  (lookup key fields).bind asFields?

/-- The objects in the array of a key. -/
def objectsAt (fields : Fields) (key : String) : List Fields :=
  (((lookup key fields).bind asItems?).getD []).filterMap asFields?

/-- A tag without the blanks around it, in upper case, unless it is empty. -/
def tagAt (fields : Fields) (key : String) : Option String :=
  ((textAt fields key).map fun s => Text.upper (Text.trimmed s)).filter (· != "")

/-- A text that is not empty. -/
def nonEmptyAt (fields : Fields) (key : String) : Option String :=
  (textAt fields key).filter (· != "")

/-! ## Parts of a node -/

/-- The type of a tag in any letter case, blanks around it left out. -/
def NodeType.ofTag (tag : String) : NodeType :=
  match Text.upper (Text.trimmed tag) with
  | "FRAME" => .frame
  | "COMPONENT" => .component
  | "INSTANCE" => .instance_
  | "GROUP" => .group
  | "TEXT" => .text
  | "RECTANGLE" => .rectangle
  | "VECTOR" => .vector
  | "ELLIPSE" => .ellipse
  | "POLYGON" => .polygon
  | "STAR" => .star
  | "LINE" => .line
  | "BOOLEAN_OPERATION" => .booleanOperation
  | tag => .other tag

/-- The axis of a tag in any letter case. -/
def LayoutMode.ofTag (tag : String) : LayoutMode :=
  match Text.upper tag with
  | "HORIZONTAL" => .horizontal
  | "VERTICAL" => .vertical
  | _ => .free

/-- The sizing of a tag in any letter case, blanks around it left out. -/
def Sizing.ofTag? (tag : String) : Option Sizing :=
  match Text.upper (Text.trimmed tag) with
  | "FIXED" => some .fixed
  | "FILL" => some .fill
  | "HUG" => some .hug
  | _ => none

/-- The kind of a paint tag in any letter case. -/
def PaintKind.ofTag (tag : String) : PaintKind :=
  match Text.upper tag with
  | "SOLID" => .solid
  | "IMAGE" => .image
  | tag => .other tag

/-- A box; missing coordinates are zero. -/
def readBox (fields : Fields) : Box where
  x := numberOr 0.0 fields "x"
  y := numberOr 0.0 fields "y"
  width := numberOr 0.0 fields "width"
  height := numberOr 0.0 fields "height"

/-- A color; it is opaque where it does not say otherwise. -/
def readColor (fields : Fields) : Rgba where
  r := numberOr 0.0 fields "r"
  g := numberOr 0.0 fields "g"
  b := numberOr 0.0 fields "b"
  a := numberOr 1.0 fields "a"

/-- Whether a paint or effect is shown. -/
def readVisible (fields : Fields) : Bool :=
  ((lookup "visible" fields).bind asBool?).getD true

/-- A paint. -/
def readPaint (fields : Fields) : Paint where
  kind := PaintKind.ofTag ((textAt fields "type").getD "")
  visible := readVisible fields
  opacity := numberAt fields "opacity"
  color := (objectAt fields "color").map readColor

/-- An effect. -/
def readEffect (fields : Fields) : Effect where
  isDropShadow := tagAt fields "type" == some "DROP_SHADOW"
  visible := readVisible fields
  color := (objectAt fields "color").map readColor
  offsetX := ((objectAt fields "offset").bind (numberAt · "x")).getD 0.0
  offsetY := ((objectAt fields "offset").bind (numberAt · "y")).getD 0.0
  radius := numberOr 0.0 fields "radius"
  spread := numberOr 0.0 fields "spread"

/-- A typography. -/
def readTypeStyle (fields : Fields) : TypeStyle where
  fontFamily := nonEmptyAt fields "fontFamily"
  fontSize := numberAt fields "fontSize"
  fontWeight := numberAt fields "fontWeight"
  letterSpacing := numberAt fields "letterSpacing"
  lineHeightPx := numberAt fields "lineHeightPx"
  textAlignHorizontal := nonEmptyAt fields "textAlignHorizontal"
  textCase := nonEmptyAt fields "textCase"

/-- Four corner radii. -/
def readCornerRadii (fields : Fields) : Option CornerRadii :=
  match (lookup "rectangleCornerRadii" fields).bind asItems? with
  | some [a, b, c, d] =>
    let radius (value : Json) : Float := (number? value).getD 0.0
    some ⟨radius a, radius b, radius c, radius d⟩
  | _ => none

/-- The font sizes of the overrides of a text, in the order of their keys. -/
def readOverrideSizes (fields : Fields) : List Float :=
  (((objectAt fields "styleOverrideTable").getD []).filterMap fun entry =>
    (asFields? entry.2).bind (numberAt · "fontSize"))

/-! ## Nodes -/

/-- A node with given children. -/
def nodeOf (fields : Fields) (children : List Node) : Node where
  id := (textAt fields "id").getD ""
  name := (textAt fields "name").getD ""
  type := NodeType.ofTag ((textAt fields "type").getD "")
  characters := textAt fields "characters"
  bounds := (objectAt fields "absoluteBoundingBox").map readBox
  layoutMode := LayoutMode.ofTag ((textAt fields "layoutMode").getD "")
  itemSpacing := numberAt fields "itemSpacing"
  padding :=
    { top := numberAt fields "paddingTop"
      right := numberAt fields "paddingRight"
      bottom := numberAt fields "paddingBottom"
      left := numberAt fields "paddingLeft" }
  primaryAxisAlign := tagAt fields "primaryAxisAlignItems"
  counterAxisAlign := tagAt fields "counterAxisAlignItems"
  layoutAlign := tagAt fields "layoutAlign"
  layoutGrow := numberAt fields "layoutGrow"
  sizingHorizontal := (textAt fields "layoutSizingHorizontal").bind Sizing.ofTag?
  sizingVertical := (textAt fields "layoutSizingVertical").bind Sizing.ofTag?
  fills := (objectsAt fields "fills").map readPaint
  strokes := (objectsAt fields "strokes").map readPaint
  strokeWeight := numberAt fields "strokeWeight"
  cornerRadius := numberAt fields "cornerRadius"
  cornerRadii := readCornerRadii fields
  effects := (objectsAt fields "effects").map readEffect
  typeStyle := (objectAt fields "style").map readTypeStyle
  overrideFontSizes := readOverrideSizes fields
  children := children

mutual

/-- The node of any value; one that is no object is an empty node. -/
def readNode : Json → Node
  | .obj fields => nodeOf fields (readChildrenField fields)
  | _ => nodeOf [] []

/-- The children among the fields of a node. -/
def readChildrenField : Fields → List Node
  | [] => []
  | (key, value) :: rest =>
    if key = "children" then readChildren value else readChildrenField rest

/-- The children in an array. -/
def readChildren : Json → List Node
  | .arr items => readItems items
  | _ => []

/-- The nodes among values. -/
def readItems : List Json → List Node
  | [] => []
  | .obj fields :: rest => readNode (.obj fields) :: readItems rest
  | _ :: rest => readItems rest

end

/-! ## Derived views -/

namespace Node

/-- The box of a node, empty where there is none. -/
def box (node : Node) : Box := node.bounds.getD {}

/-- Whether a node is a text. -/
def isText (node : Node) : Bool := node.type == .text

/-- The text of a node without the blanks around it. -/
def text (node : Node) : String := (node.characters.map Text.trimmed).getD ""

end Node

end Pagewright.Design
