import Pagewright.Design.Reader
import Pagewright.Layout.Style
import Pagewright.Number.Form
import Pagewright.Number.Rounding

/-!
# From drawn nodes to styles

The paints, strokes, effects, typography and automatic layout of a drawn node
become fields of a layout style. What is absent or hidden gives no field.
-/

namespace Pagewright.Design

open Layout (Align Direction Padding Style)

/-! ## Paints -/

/-- A channel between zero and one as a number up to 255. -/
def channelText (value : Float) : String :=
  toString (Number.pixels (Number.clampTo 0.0 1.0 value * 255.0))

/-- A color as a declaration value, its opacity with at most three places. -/
def colorCss (color : Rgba) (opacity : Float) : String :=
  "rgba(" ++ channelText color.r ++ "," ++ channelText color.g ++ "," ++ channelText color.b
    ++ "," ++ Number.threePlaces (Number.clampTo 0.0 1.0 (opacity * color.a)) ++ ")"

/-- The first visible solid paint that has a color. -/
def solidPaintCss (paints : List Paint) : Option String :=
  (paints.filter fun paint => paint.visible && paint.kind == .solid).findSome? fun paint =>
    paint.color.map fun color => colorCss color (paint.opacity.getD 1.0)

/-- A distance in whole pixels. -/
def pixelText (x : Float) : String := toString (Number.pixels x) ++ "px"

/-- The border: a stroke of some weight with a solid color. -/
def borderCss (node : Node) : Option String := do
  let weight ← node.strokeWeight.filter fun weight => 0.0 < weight
  let color ← solidPaintCss node.strokes
  some (pixelText weight ++ " solid " ++ color)

/-- One radius for all corners. -/
def uniformRadiusCss (node : Node) : Option String :=
  (node.cornerRadius.filter fun radius => 0 < Number.pixels radius).map pixelText

/-- A radius for each corner, unless all of them vanish. -/
def cornerRadiusCss (radii : CornerRadii) : Option String :=
  let corners := [radii.topLeft, radii.topRight, radii.bottomRight, radii.bottomLeft]
  if corners.any fun radius => 0 < Number.pixels radius then
    some (String.intercalate " " (corners.map pixelText))
  else none

/-- The radius of the corners, one for all where there is one. -/
def radiusCss (node : Node) : Option String :=
  uniformRadiusCss node <|> node.cornerRadii.bind cornerRadiusCss

/-- The first visible drop shadow that has a color. -/
def shadowCss (node : Node) : Option String :=
  (node.effects.filter fun effect => effect.visible && effect.isDropShadow).findSome?
    fun effect => effect.color.map fun color =>
      String.intercalate " "
        ([effect.offsetX, effect.offsetY, effect.radius, effect.spread].map pixelText
          ++ [colorCss color 1.0])

/-- Background, border, radius and shadow of a node. -/
def visualStyle (node : Node) : Style where
  backgroundColor := solidPaintCss node.fills
  border := borderCss node
  borderRadius := radiusCss node
  boxShadow := shadowCss node

/-! ## Typography -/

/-- The first override of the font size that is positive. -/
def overrideFontSize? (node : Node) : Option Float :=
  node.overrideFontSizes.find? fun size => 0.0 < size

/-- The font size of a text: its own, else the first override, else zero. -/
def textFontSize (node : Node) : Float :=
  (((node.typeStyle.bind (·.fontSize)).filter fun size => 0.0 < size)
    <|> overrideFontSize? node).getD 0.0

/-- The alignment of a text. -/
def textAlignCss (name : String) : String :=
  let name := Text.lower name
  if name = "justified" then "justify" else name

/-- The letter case that a text is shown in. -/
def textTransformCss (name : String) : Option String :=
  match Text.upper name with
  | "UPPER" => some "uppercase"
  | "LOWER" => some "lowercase"
  | "TITLE" => some "capitalize"
  | _ => none

/-- The weight of a font, its whole part. -/
def fontWeightOf (weight : Option Float) : Option UInt32 :=
  (weight.filter fun weight => 0.0 ≤ weight).map fun weight =>
    UInt32.ofNat (Number.natPart32 weight)

/-- The font size that a text is shown in: its own, else its resolved size. -/
def shownFontSize (node : Node) : Option Float :=
  match node.typeStyle.bind (·.fontSize) with
  | some size => some size
  | none =>
    let size := textFontSize node
    if 0.0 < size then some size else none

/-- The typography and color of a text. -/
def textStyle (node : Node) : Style :=
  let type := node.typeStyle.getD {}
  { fontFamily := type.fontFamily
    fontSize := shownFontSize node
    fontWeight := fontWeightOf type.fontWeight
    letterSpacing := type.letterSpacing
    lineHeightPx := type.lineHeightPx
    textAlign := type.textAlignHorizontal.map textAlignCss
    textTransform := type.textCase.bind textTransformCss
    color := solidPaintCss node.fills }

/-! ## Automatic layout -/

/-- The padding of a node, if some edge has any. -/
def paddingOf (padding : EdgePadding) : Option Padding :=
  if padding.isNonzero then
    some { top := padding.top.getD 0.0, right := padding.right.getD 0.0,
           bottom := padding.bottom.getD 0.0, left := padding.left.getD 0.0 }
  else none

/--
The arrangement of the children along an axis. Where the free space is spread
between them there is no gap besides.
-/
def layoutStyle (node : Node) (direction : Direction) : Style :=
  let justify := node.primaryAxisAlign.bind Align.parse?
  { direction := some direction
    gap := if justify.any Align.isDistributing then none else node.itemSpacing
    padding := paddingOf node.padding
    justify := justify
    align := node.counterAxisAlign.bind Align.parse? }

/-- The axis of a node itself; only vertical nodes are columns. -/
def ownDirection (node : Node) : Direction :=
  if node.layoutMode = .vertical then .column else .row

/-- The alignment of a child across the axis: its own, else stretched where it fills. -/
def crossAlign (node : Node) (crossSizing : Option Sizing) : Option Align :=
  node.layoutAlign.bind Align.parse? <|>
    if crossSizing = some .fill then some .stretch else none

/-- The alignment of a child of a vertical node. -/
def alignSelf (node : Node) : Option Align := crossAlign node node.sizingHorizontal

/-- The weight with which a node grows, if it does. -/
def growWeight (node : Node) : Option Float :=
  node.layoutGrow.filter fun weight => 0.0 < weight

end Pagewright.Design
