/-!
# Design trees

A design is the tree of drawn nodes that a visual tool hands out: frames and
groups around texts and shapes, each with its box on the page, its automatic
layout and its paints. Nothing here is required: a field that was missing or
unreadable is absent.
-/

namespace Pagewright.Design

/-- What a node is. -/
inductive NodeType where
  | frame
  | component
  | instance_
  | group
  | text
  | rectangle
  | vector
  | ellipse
  | polygon
  | star
  | line
  | booleanOperation
  | other (tag : String)
  deriving DecidableEq, Repr, Inhabited

namespace NodeType

/-- Nodes that can act as cards, buttons or inputs. -/
def isFrameLike : NodeType → Bool
  | frame | component | instance_ | group => true
  | _ => false

/-- Shapes that read as an icon next to a label. -/
def isIconLike : NodeType → Bool
  | vector | booleanOperation | star | ellipse | line | polygon => true
  | _ => false

/-- Shapes that may be painted with an image. -/
def isShape : NodeType → Bool
  | rectangle => true
  | type => type.isIconLike

end NodeType

/-- The axis of an automatic layout. -/
inductive LayoutMode where
  | free
  | horizontal
  | vertical
  deriving DecidableEq, Repr, Inhabited

/-- How a child takes its size along an axis. -/
inductive Sizing where
  | fixed
  | fill
  | hug
  deriving DecidableEq, Repr, Inhabited

/-- The box of a node on the page. -/
structure Box where
  x : Float := 0.0
  y : Float := 0.0
  width : Float := 0.0
  height : Float := 0.0
  deriving DecidableEq, Repr, Inhabited

namespace Box

/-- The horizontal center. -/
def centerX (box : Box) : Float := box.x + box.width / 2.0

/-- The vertical center. -/
def centerY (box : Box) : Float := box.y + box.height / 2.0

end Box

/-- A color with channels between zero and one. -/
structure Rgba where
  r : Float
  g : Float
  b : Float
  a : Float
  deriving DecidableEq, Repr, Inhabited

/-- What a paint is. -/
inductive PaintKind where
  | solid
  | image
  | other (tag : String)
  deriving DecidableEq, Repr, Inhabited

/-- A fill or a stroke. -/
structure Paint where
  kind : PaintKind
  visible : Bool
  opacity : Option Float
  color : Option Rgba
  deriving DecidableEq, Repr, Inhabited

/-- An effect, of which drop shadows count. -/
structure Effect where
  isDropShadow : Bool
  visible : Bool
  color : Option Rgba
  offsetX : Float
  offsetY : Float
  radius : Float
  spread : Float
  deriving DecidableEq, Repr, Inhabited

/-- The typography of a text. -/
structure TypeStyle where
  fontFamily : Option String := none
  fontSize : Option Float := none
  fontWeight : Option Float := none
  letterSpacing : Option Float := none
  lineHeightPx : Option Float := none
  textAlignHorizontal : Option String := none
  textCase : Option String := none
  deriving DecidableEq, Repr, Inhabited

/-- The inner distances of a node, as far as they are given. -/
structure EdgePadding where
  top : Option Float := none
  right : Option Float := none
  bottom : Option Float := none
  left : Option Float := none
  deriving DecidableEq, Repr, Inhabited

/-- Whether some edge is given and not zero. -/
def EdgePadding.isNonzero (p : EdgePadding) : Bool :=
  [p.top, p.right, p.bottom, p.left].any fun edge => edge.any (· != 0.0)

/-- Radii of the four corners, clockwise from the upper left. -/
structure CornerRadii where
  topLeft : Float
  topRight : Float
  bottomRight : Float
  bottomLeft : Float
  deriving DecidableEq, Repr, Inhabited

/-- A node of a design. -/
structure Node where
  id : String
  name : String
  type : NodeType
  characters : Option String
  bounds : Option Box
  layoutMode : LayoutMode
  itemSpacing : Option Float
  padding : EdgePadding
  primaryAxisAlign : Option String
  counterAxisAlign : Option String
  layoutAlign : Option String
  layoutGrow : Option Float
  sizingHorizontal : Option Sizing
  sizingVertical : Option Sizing
  fills : List Paint
  strokes : List Paint
  strokeWeight : Option Float
  cornerRadius : Option Float
  cornerRadii : Option CornerRadii
  effects : List Effect
  typeStyle : Option TypeStyle
  overrideFontSizes : List Float
  children : List Node
  deriving Repr, Inhabited

end Pagewright.Design
