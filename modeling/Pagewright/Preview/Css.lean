import Pagewright.Layout.Style
import Pagewright.Number.Form
import Pagewright.Number.Rounding

/-!
# Inline style declarations

A style is shown as one list of declarations in a fixed order, each a property
and a value, written `property:value` with semicolons between. A hint that has
no meaning for a property, such as stretching the main axis, gives none.
-/

namespace Pagewright.Preview

open Layout

/-- A property and its value. -/
structure Declaration where
  property : String
  value : String
  deriving DecidableEq, Repr, Inhabited

/-- A declaration of a free text, unless the text is empty. -/
def textDeclaration (property : String) : Option String → List Declaration
  | some value => if value = "" then [] else [⟨property, value⟩]
  | none => []

/-- A declaration of a value that is set. -/
def declaration {α : Type} (property : String) (write : α → String) :
    Option α → List Declaration
  | some value => [⟨property, write value⟩]
  | none => []

/-- A number of pixels, as it is. -/
def px (x : Float) : String := Number.plainText x ++ "px"

/-- The placement along the main axis. -/
def mainAxis? : Align → Option String
  | .min => some "flex-start"
  | .center => some "center"
  | .max => some "flex-end"
  | .spaceBetween => some "space-between"
  | .spaceAround => some "space-around"
  | .spaceEvenly => some "space-evenly"
  | .baseline | .stretch => none

/-- The placement along the cross axis. -/
def crossAxis? : Align → Option String
  | .min => some "flex-start"
  | .center => some "center"
  | .max => some "flex-end"
  | .baseline => some "baseline"
  | .stretch => some "stretch"
  | .spaceBetween | .spaceAround | .spaceEvenly => none

/-- The direction of the children; a row is always one. -/
def directionDeclarations (isRow : Bool) (style : Style) : List Declaration :=
  match if isRow then some Direction.row else style.direction with
  | some direction => [⟨"display", "flex"⟩, ⟨"flex-direction", direction.name⟩]
  | none => []

/-- The basis in pixels where it is given, else `auto` where that is asked for. -/
def basisDeclarations (style : Style) : List Declaration :=
  match style.flexBasis with
  | some basis => [⟨"flex-basis", px basis⟩]
  | none => if style.flexBasisAuto = some true then [⟨"flex-basis", "auto"⟩] else []

/-- A fixed share of the row, between nothing and all of it. -/
def percentDeclarations : Option Float → List Declaration
  | some percent =>
    let text := Number.threePlaces (Number.clampTo 0.0 100.0 percent)
    [⟨"flex", "0 0 " ++ text ++ "%"⟩, ⟨"max-width", text ++ "%"⟩]
  | none => []

/-- The padding, unless it is zero all round. -/
def paddingDeclarations : Option Padding → List Declaration
  | some p =>
    if p.isZero then []
    else [⟨"padding", px p.top ++ " " ++ px p.right ++ " " ++ px p.bottom ++ " " ++ px p.left⟩]
  | none => []

/-- The declarations of a style, in their fixed order. -/
def declarations (isRow : Bool) (style : Style) : List Declaration :=
  directionDeclarations isRow style ++
  declaration "flex-grow" Number.plainText style.flexGrow ++
  declaration "flex-shrink" Number.plainText style.flexShrink ++
  basisDeclarations style ++
  percentDeclarations style.widthPercent ++
  declaration "min-height" (fun x => toString (Number.pixels x) ++ "px") style.minHeightPx ++
  declaration "gap" px style.gap ++
  textDeclaration "background-color" style.backgroundColor ++
  textDeclaration "border" style.border ++
  textDeclaration "border-radius" style.borderRadius ++
  textDeclaration "box-shadow" style.boxShadow ++
  paddingDeclarations style.padding ++
  declaration "justify-content" id (style.justify.bind mainAxis?) ++
  declaration "align-items" id (style.align.bind crossAxis?) ++
  declaration "align-self" id (style.alignSelf.bind crossAxis?) ++
  textDeclaration "font-family" style.fontFamily ++
  declaration "font-size" px style.fontSize ++
  declaration "font-weight" (fun weight => toString weight.toNat) style.fontWeight ++
  declaration "line-height" px style.lineHeightPx ++
  declaration "letter-spacing" px style.letterSpacing ++
  textDeclaration "color" style.color ++
  textDeclaration "text-align" style.textAlign ++
  textDeclaration "text-transform" style.textTransform

/-- The text of a declaration. -/
def Declaration.text (d : Declaration) : String := d.property ++ ":" ++ d.value

/-- The inline style of a node; without a style only a row has one. -/
def inlineCss (isRow : Bool) (style : Option Style) : String :=
  String.intercalate ";" ((declarations isRow (style.getD Style.empty)).map Declaration.text)

end Pagewright.Preview
