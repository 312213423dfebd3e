import Pagewright.Design.Appearance
import Pagewright.Design.Thresholds
import Pagewright.Layout.Node
import Pagewright.Text.Percent

/-!
# Texts and images

A text that is not blank is a heading from the least heading size on and body
text below it. A shape that is painted with an image stands for that image;
its picture is a placeholder of the same size.

## Main results

* `text?_eq_none_iff` — a text is left out exactly when it is blank.
-/

namespace Pagewright.Classify

open Design (Thresholds)

/-- The heading or text that a text node reads as. -/
def text? (thresholds : Thresholds) (node : Design.Node) : Option Layout.Node :=
  if node.text = "" then none
  else
    let style := (Design.textStyle node).toOption
    match thresholds.headingLevel? (Design.textFontSize node) with
    | some level => some (.heading node.text level style)
    | none => some (.text node.text style)

theorem text?_eq_none_iff {thresholds : Thresholds} {node : Design.Node} :
    text? thresholds node = none ↔ node.text = "" := by
  simp only [text?]
  split
  · simp [*]
  · split <;> simp [*]

/-- The name of an image, `Image` where it has none. -/
def imageLabel (node : Design.Node) : String :=
  let name := Text.trimmed node.name
  if name = "" then "Image" else name

/-- The address of a placeholder picture with a size and a label. -/
def placeholderUrl (thresholds : Thresholds) (width height : Nat) (label : String) : String :=
  let base := (thresholds.placeholderBase.toList.reverse.dropWhile (· == '/')).reverse
  String.ofList base ++ "/" ++ toString width ++ "x" ++ toString height ++ "?text="
    ++ String.ofList (Text.Percent.encode Text.Percent.isUnreserved label.toList)

/-- The image that a painted shape reads as. -/
def image? (thresholds : Thresholds) (node : Design.Node) : Option Layout.Node :=
  if node.type.isShape && node.fills.any (·.kind == .image) then
    let label := imageLabel node
    let url := placeholderUrl thresholds (thresholds.imageSide node.box.width)
      (thresholds.imageSide node.box.height) label
    let style : Layout.Style := { borderRadius := Design.radiusCss node }
    some (.image url label style.toOption)
  else none

end Pagewright.Classify
