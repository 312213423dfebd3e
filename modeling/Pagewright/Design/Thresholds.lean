import Pagewright.Json.Shape
import Pagewright.Number.Literal
import Pagewright.Number.Rounding

/-!
# Thresholds of the classification

Classification compares sizes and distances with a handful of constants. They
have defaults, and a record in JSON may change any of them.
-/

namespace Pagewright.Design

open Json

/-- The font sizes from which text is a heading of level 1, 2 and 3. -/
structure HeadingSizes where
  first : Float := 32.0
  second : Float := 24.0
  third : Float := 20.0
  deriving DecidableEq, Repr, Inhabited

/-- The sizes in order of their levels. -/
def HeadingSizes.toList (sizes : HeadingSizes) : List Float :=
  [sizes.first, sizes.second, sizes.third]

/-- The constants of the classification. -/
structure Thresholds where
  /-- The part of its parent's sides that a background covers at least. -/
  backgroundCoverage : Float := 0.92
  /-- How far a background may lie off its parent's corner. -/
  backgroundOffset : Float := 8.0
  /-- How far a centered label may lie off the center of its row. -/
  centeredLabelTolerance : Float := 48.0
  /-- The least distance of centers within a row. -/
  rowThresholdMin : Float := 8.0
  /-- The distance of centers within a row as a part of the height. -/
  rowThresholdFactor : Float := 0.35
  headingSizes : HeadingSizes := {}
  /-- The range of the sides of placeholder images. -/
  imageMin : UInt32 := 80
  imageMax : UInt32 := 1200
  /-- Where placeholder images come from. -/
  placeholderBase : String := "https://placehold.co"
  deriving DecidableEq, Repr, Inhabited

namespace Thresholds

/-- The level of a heading of a font size; body text has none. -/
def headingLevel? (thresholds : Thresholds) (fontSize : Float) : Option UInt8 :=
  (thresholds.headingSizes.toList.findIdx? fun least => least ≤ fontSize).map fun index =>
    UInt8.ofNat (index + 1)

/-- A side of an image in whole pixels within the range of images. -/
def imageSide (thresholds : Thresholds) (side : Float) : Nat :=
  let least := thresholds.imageMin.toNat
  let most := max thresholds.imageMax.toNat least
  max least (min most (Number.nearestNat32 side))

end Thresholds

/-! ## The JSON form -/

/-- Three heading sizes. -/
def readHeadingSizes (place : Place) : Reader HeadingSizes
  | .arr items => do
    let size (index : Nat) : Except ShapeError Float :=
      match items[index]? with
      | some item => readFloat item
      | none => .error (.wrongLength index "an array of length 3")
    let first ← size 0
    let second ← size 1
    let third ← size 2
    checkLength place 3 items
    .ok { first, second, third }
  | other => .error (.wrongType other "an array of length 3")

/-- Thresholds from the fields of an object; what is missing has its default. -/
def Thresholds.ofFields (fields : Fields) : Except ShapeError Thresholds := do
  let base : Thresholds := {}
  let backgroundCoverage ← field fields "background_coverage" readFloat base.backgroundCoverage
  let backgroundOffset ← field fields "background_offset" readFloat base.backgroundOffset
  let centeredLabelTolerance ←
    field fields "centered_label_tolerance" readFloat base.centeredLabelTolerance
  let headingSizes ← field fields "heading_sizes" (readHeadingSizes .alone) base.headingSizes
  let imageMax ← field fields "image_max" readNat32 base.imageMax
  let imageMin ← field fields "image_min" readNat32 base.imageMin
  let placeholderBase ← field fields "placeholder_base" readText base.placeholderBase
  let rowThresholdFactor ←
    field fields "row_threshold_factor" readFloat base.rowThresholdFactor
  let rowThresholdMin ← field fields "row_threshold_min" readFloat base.rowThresholdMin
  .ok { backgroundCoverage, backgroundOffset, centeredLabelTolerance, rowThresholdMin,
        rowThresholdFactor, headingSizes, imageMin, imageMax, placeholderBase }

/-- Thresholds from the entries of an array. -/
def Thresholds.ofItems (items : List Json) : Except ShapeError Thresholds := do
  let base : Thresholds := {}
  let backgroundCoverage ← entry items 0 readFloat base.backgroundCoverage
  let backgroundOffset ← entry items 1 readFloat base.backgroundOffset
  let centeredLabelTolerance ← entry items 2 readFloat base.centeredLabelTolerance
  let rowThresholdMin ← entry items 3 readFloat base.rowThresholdMin
  let rowThresholdFactor ← entry items 4 readFloat base.rowThresholdFactor
  let headingSizes ← entry items 5 (readHeadingSizes .alone) base.headingSizes
  let imageMin ← entry items 6 readNat32 base.imageMin
  let imageMax ← entry items 7 readNat32 base.imageMax
  let placeholderBase ← entry items 8 readText base.placeholderBase
  .ok { backgroundCoverage, backgroundOffset, centeredLabelTolerance, rowThresholdMin,
        rowThresholdFactor, headingSizes, imageMin, imageMax, placeholderBase }

/-- Thresholds. -/
def readThresholds : Reader Thresholds :=
  readRecord "Thresholds" .alone 9 Thresholds.ofFields Thresholds.ofItems

/-- The JSON form of thresholds. -/
def Thresholds.toJson (t : Thresholds) : Json :=
  .obj [("background_coverage", .float t.backgroundCoverage),
    ("background_offset", .float t.backgroundOffset),
    ("centered_label_tolerance", .float t.centeredLabelTolerance),
    ("heading_sizes", .arr (t.headingSizes.toList.map .float)),
    ("image_max", .int t.imageMax.toNat), ("image_min", .int t.imageMin.toNat),
    ("placeholder_base", .str t.placeholderBase),
    ("row_threshold_factor", .float t.rowThresholdFactor),
    ("row_threshold_min", .float t.rowThresholdMin)]

end Pagewright.Design
