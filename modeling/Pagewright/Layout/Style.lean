import Pagewright.Text.Blank
import Pagewright.Text.Characters

/-!
# Styles

A style is a record of optional hints: arrangement, sizing, looks and
typography. An unset field says nothing, and `overlay` lays one style over
another field by field.

## Main results

* `Style.overlay_assoc`, `Style.empty_overlay`, `Style.overlay_empty`,
  `Style.overlay_self` — styles under `overlay` form an idempotent monoid.
-/

namespace Pagewright.Layout

/-- The axis along which children are placed. -/
inductive Direction where
  | row
  | column
  deriving DecidableEq, Repr, Inhabited

/-- The name of a direction. -/
def Direction.name : Direction → String
  | .row => "row"
  | .column => "column"

/-- How children are placed along an axis. -/
inductive Align where
  | min
  | center
  | max
  | spaceBetween
  | spaceAround
  | spaceEvenly
  | baseline
  | stretch
  deriving DecidableEq, Repr, Inhabited

namespace Align

/-- The name of an alignment. -/
def name : Align → String
  | .min => "MIN"
  | .center => "CENTER"
  | .max => "MAX"
  | .spaceBetween => "SPACE_BETWEEN"
  | .spaceAround => "SPACE_AROUND"
  | .spaceEvenly => "SPACE_EVENLY"
  | .baseline => "BASELINE"
  | .stretch => "STRETCH"

/-- All alignments. -/
def all : List Align :=
  [.min, .center, .max, .spaceBetween, .spaceAround, .spaceEvenly, .baseline, .stretch]

/-- The alignment with exactly this name. -/
def ofName? (name : String) : Option Align := all.find? (·.name = name)

/-- The alignment of a name in any case, blanks around it left out. -/
def parse? (text : String) : Option Align := ofName? (Text.upper (Text.trimmed text))

/-- Alignments that spread the free space between the children. -/
def isDistributing : Align → Bool
  | .spaceBetween | .spaceAround | .spaceEvenly => true
  | _ => false

end Align

/-- Inner distances of the four edges. -/
structure Padding where
  top : Float := 0.0
  right : Float := 0.0
  bottom : Float := 0.0
  left : Float := 0.0
  deriving DecidableEq, Repr, Inhabited

/-- Whether no edge has any distance. -/
def Padding.isZero (p : Padding) : Bool :=
  p.top == 0.0 && p.right == 0.0 && p.bottom == 0.0 && p.left == 0.0

/-- Optional hints on how a node is placed, sized and shown. -/
structure Style where
  direction : Option Direction := none
  gap : Option Float := none
  padding : Option Padding := none
  justify : Option Align := none
  align : Option Align := none
  alignSelf : Option Align := none
  flexGrow : Option Float := none
  flexShrink : Option Float := none
  flexBasis : Option Float := none
  flexBasisAuto : Option Bool := none
  widthPx : Option Float := none
  widthPercent : Option Float := none
  minHeightPx : Option Float := none
  backgroundColor : Option String := none
  border : Option String := none
  borderRadius : Option String := none
  boxShadow : Option String := none
  fontFamily : Option String := none
  fontSize : Option Float := none
  fontWeight : Option UInt32 := none
  letterSpacing : Option Float := none
  lineHeightPx : Option Float := none
  textAlign : Option String := none
  textTransform : Option String := none
  color : Option String := none
  deriving DecidableEq, Repr, Inhabited

namespace Style

/-- The style that says nothing. -/
def empty : Style := {}

/-- Whether a style says nothing. -/
def isEmpty (s : Style) : Bool := s = empty

/-- The style, unless it says nothing. -/
def toOption (s : Style) : Option Style := if s.isEmpty then none else some s

/-! ## Laying styles over each other -/

/-- A set value hides the one below it. -/
def layer {α : Type} (top below : Option α) : Option α := top <|> below

/-- Every field of `top` where it is set, and of `below` elsewhere. -/
def overlay (below top : Style) : Style where
  direction := layer top.direction below.direction
  gap := layer top.gap below.gap
  padding := layer top.padding below.padding
  justify := layer top.justify below.justify
  align := layer top.align below.align
  alignSelf := layer top.alignSelf below.alignSelf
  flexGrow := layer top.flexGrow below.flexGrow
  flexShrink := layer top.flexShrink below.flexShrink
  flexBasis := layer top.flexBasis below.flexBasis
  flexBasisAuto := layer top.flexBasisAuto below.flexBasisAuto
  widthPx := layer top.widthPx below.widthPx
  widthPercent := layer top.widthPercent below.widthPercent
  minHeightPx := layer top.minHeightPx below.minHeightPx
  backgroundColor := layer top.backgroundColor below.backgroundColor
  border := layer top.border below.border
  borderRadius := layer top.borderRadius below.borderRadius
  boxShadow := layer top.boxShadow below.boxShadow
  fontFamily := layer top.fontFamily below.fontFamily
  fontSize := layer top.fontSize below.fontSize
  fontWeight := layer top.fontWeight below.fontWeight
  letterSpacing := layer top.letterSpacing below.letterSpacing
  lineHeightPx := layer top.lineHeightPx below.lineHeightPx
  textAlign := layer top.textAlign below.textAlign
  textTransform := layer top.textTransform below.textTransform
  color := layer top.color below.color

theorem layer_assoc {α : Type} (a b c : Option α) :
    layer c (layer b a) = layer (layer c b) a := by
  cases c <;> rfl

theorem layer_none {α : Type} (a : Option α) : layer a none = a := by cases a <;> rfl

theorem none_layer {α : Type} (a : Option α) : layer none a = a := rfl

theorem layer_self {α : Type} (a : Option α) : layer a a = a := by cases a <;> rfl

theorem overlay_assoc (a b c : Style) : (a.overlay b).overlay c = a.overlay (b.overlay c) := by
  simp only [overlay, layer_assoc]

theorem empty_overlay (a : Style) : empty.overlay a = a := by
  simp only [overlay, empty, layer_none]

theorem overlay_empty (a : Style) : a.overlay empty = a := by
  simp only [overlay, empty, none_layer]

theorem overlay_self (a : Style) : a.overlay a = a := by
  simp only [overlay, layer_self]

/-! ## What a style holds -/

/-- Whether a style sets a background, border, radius or shadow. -/
def hasVisual (s : Style) : Bool :=
  s.backgroundColor.isSome || s.border.isSome || s.borderRadius.isSome || s.boxShadow.isSome

/-- Whether a style sets a font, its size or weight, or a text color. -/
def hasTypography (s : Style) : Bool :=
  s.fontFamily.isSome || s.fontSize.isSome || s.fontWeight.isSome || s.color.isSome

end Style

end Pagewright.Layout
