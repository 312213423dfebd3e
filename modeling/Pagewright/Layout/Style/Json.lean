import Pagewright.Layout.Style
import Pagewright.Json.Shape
import Pagewright.Number.Rounding

/-!
# The JSON form of styles

A style is written with its set fields only, in the order of the record, and
is read forgivingly: alignments in any letter case, unknown alignments as
unset, weights as any number from zero up. A field that is null is unset.
-/

namespace Pagewright.Layout

open Json

/-! ## Writing -/

/-- A field, if its value is set. -/
def setField {α : Type} (key : String) (write : α → Json) (value : Option α) : Fields :=
  match value with
  | some v => [(key, write v)]
  | none => []

/-- The JSON form of a direction. -/
def Direction.toJson (d : Direction) : Json := .str d.name

/-- The JSON form of an alignment. -/
def Align.toJson (a : Align) : Json := .str a.name

/-- The JSON form of a padding. -/
def Padding.toJson (p : Padding) : Json :=
  .obj [("top", .float p.top), ("right", .float p.right), ("bottom", .float p.bottom),
    ("left", .float p.left)]

/-- The JSON form of a font weight. -/
def weightToJson (weight : UInt32) : Json := .int weight.toNat

/-- The fields of a style that are set. -/
def Style.toFields (s : Style) : Fields :=
  setField "direction" Direction.toJson s.direction ++
  setField "gap" Json.float s.gap ++
  setField "padding" Padding.toJson s.padding ++
  setField "justify" Align.toJson s.justify ++
  setField "align" Align.toJson s.align ++
  setField "alignSelf" Align.toJson s.alignSelf ++
  setField "flexGrow" Json.float s.flexGrow ++
  setField "flexShrink" Json.float s.flexShrink ++
  setField "flexBasis" Json.float s.flexBasis ++
  setField "flexBasisAuto" Json.bool s.flexBasisAuto ++
  setField "widthPx" Json.float s.widthPx ++
  setField "widthPercent" Json.float s.widthPercent ++
  setField "minHeightPx" Json.float s.minHeightPx ++
  setField "backgroundColor" Json.str s.backgroundColor ++
  setField "border" Json.str s.border ++
  setField "borderRadius" Json.str s.borderRadius ++
  setField "boxShadow" Json.str s.boxShadow ++
  setField "fontFamily" Json.str s.fontFamily ++
  setField "fontSize" Json.float s.fontSize ++
  setField "fontWeight" weightToJson s.fontWeight ++
  setField "letterSpacing" Json.float s.letterSpacing ++
  setField "lineHeightPx" Json.float s.lineHeightPx ++
  setField "textAlign" Json.str s.textAlign ++
  setField "textTransform" Json.str s.textTransform ++
  setField "color" Json.str s.color

/-- The JSON form of a style. -/
def Style.toJson (s : Style) : Json := .obj s.toFields

/-! ## Reading -/

/-- A direction. -/
def readDirection (place : Place) : Reader Direction :=
  readVariant place [("row", .row), ("column", .column)]

/-- An alignment by its name, in any letter case. -/
def readAlign : Reader Align := fun value => do
  let name ← readText value
  match Align.parse? name with
  | some align => .ok align
  | none => .error (.unknownVariant name (Align.all.map Align.name))

/-- An alignment hint; a name that is no alignment leaves it unset. -/
def readAlignHint : Reader (Option Align) := fun value => do
  let name ← readOption readText value
  .ok (name.bind Align.parse?)

/-- A number from zero up. -/
def readNonNegative : Reader Float := fun value => do
  let x ← readFloat value
  if x.isFinite && 0.0 ≤ x then .ok x else .error (.notNonNegative x)

/-- A weight: any number from zero up, its whole part. -/
def readWeight : Reader (Option UInt32) :=
  readOption fun value => do
    let x ← readNonNegative value
    .ok (UInt32.ofNat (Number.natPart32 x))

/-- A padding; missing edges are zero. -/
def readPadding (place : Place) : Reader Padding :=
  readRecord "Padding" place 4
    (fun fields => do
      let bottom ← field fields "bottom" readFloat 0.0
      let left ← field fields "left" readFloat 0.0
      let right ← field fields "right" readFloat 0.0
      let top ← field fields "top" readFloat 0.0
      .ok { top, right, bottom, left })
    (fun items => do
      let top ← entry items 0 readFloat 0.0
      let right ← entry items 1 readFloat 0.0
      let bottom ← entry items 2 readFloat 0.0
      let left ← entry items 3 readFloat 0.0
      .ok { top, right, bottom, left })

/-- A style from the fields of an object. -/
def Style.ofFields (place : Place) (fields : Fields) : Except ShapeError Style := do
  let align ← field fields "align" readAlignHint none
  let alignSelf ← field fields "alignSelf" readAlignHint none
  let backgroundColor ← field fields "backgroundColor" (readOption readText) none
  let border ← field fields "border" (readOption readText) none
  let borderRadius ← field fields "borderRadius" (readOption readText) none
  let boxShadow ← field fields "boxShadow" (readOption readText) none
  let color ← field fields "color" (readOption readText) none
  let direction ← field fields "direction" (readOption (readDirection place)) none
  let flexBasis ← field fields "flexBasis" (readOption readFloat) none
  let flexBasisAuto ← field fields "flexBasisAuto" (readOption readBool) none
  let flexGrow ← field fields "flexGrow" (readOption readFloat) none
  let flexShrink ← field fields "flexShrink" (readOption readFloat) none
  let fontFamily ← field fields "fontFamily" (readOption readText) none
  let fontSize ← field fields "fontSize" (readOption readFloat) none
  let fontWeight ← field fields "fontWeight" readWeight none
  let gap ← field fields "gap" (readOption readFloat) none
  let justify ← field fields "justify" readAlignHint none
  let letterSpacing ← field fields "letterSpacing" (readOption readFloat) none
  let lineHeightPx ← field fields "lineHeightPx" (readOption readFloat) none
  let minHeightPx ← field fields "minHeightPx" (readOption readFloat) none
  let padding ← field fields "padding" (readOption (readPadding place)) none
  let textAlign ← field fields "textAlign" (readOption readText) none
  let textTransform ← field fields "textTransform" (readOption readText) none
  let widthPercent ← field fields "widthPercent" (readOption readFloat) none
  let widthPx ← field fields "widthPx" (readOption readFloat) none
  .ok { direction, gap, padding, justify, align, alignSelf, flexGrow, flexShrink, flexBasis,
        flexBasisAuto, widthPx, widthPercent, minHeightPx, backgroundColor, border,
        borderRadius, boxShadow, fontFamily, fontSize, fontWeight, letterSpacing,
        lineHeightPx, textAlign, textTransform, color }

/-- A style from the entries of an array. -/
def Style.ofItems (place : Place) (items : List Json) : Except ShapeError Style := do
  let direction ← entry items 0 (readOption (readDirection place)) none
  let gap ← entry items 1 (readOption readFloat) none
  let padding ← entry items 2 (readOption (readPadding place)) none
  let justify ← entry items 3 readAlignHint none
  let align ← entry items 4 readAlignHint none
  let alignSelf ← entry items 5 readAlignHint none
  let flexGrow ← entry items 6 (readOption readFloat) none
  let flexShrink ← entry items 7 (readOption readFloat) none
  let flexBasis ← entry items 8 (readOption readFloat) none
  let flexBasisAuto ← entry items 9 (readOption readBool) none
  let widthPx ← entry items 10 (readOption readFloat) none
  let widthPercent ← entry items 11 (readOption readFloat) none
  let minHeightPx ← entry items 12 (readOption readFloat) none
  let backgroundColor ← entry items 13 (readOption readText) none
  let border ← entry items 14 (readOption readText) none
  let borderRadius ← entry items 15 (readOption readText) none
  let boxShadow ← entry items 16 (readOption readText) none
  let fontFamily ← entry items 17 (readOption readText) none
  let fontSize ← entry items 18 (readOption readFloat) none
  let fontWeight ← entry items 19 readWeight none
  let letterSpacing ← entry items 20 (readOption readFloat) none
  let lineHeightPx ← entry items 21 (readOption readFloat) none
  let textAlign ← entry items 22 (readOption readText) none
  let textTransform ← entry items 23 (readOption readText) none
  let color ← entry items 24 (readOption readText) none
  .ok { direction, gap, padding, justify, align, alignSelf, flexGrow, flexShrink, flexBasis,
        flexBasisAuto, widthPx, widthPercent, minHeightPx, backgroundColor, border,
        borderRadius, boxShadow, fontFamily, fontSize, fontWeight, letterSpacing,
        lineHeightPx, textAlign, textTransform, color }

/-- A style. -/
def readStyle (place : Place) : Reader Style :=
  readRecord "Style" place 25 (Style.ofFields place) (Style.ofItems place)

end Pagewright.Layout
