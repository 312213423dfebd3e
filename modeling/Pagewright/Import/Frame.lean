import Pagewright.Classify.Basic
import Pagewright.Import.Error

/-!
# Importing a frame

A frame becomes a section of what it reads as. A container around everything
is left out, so that the section lists the blocks of the frame themselves; a
frame that shows nothing is imported as its name.
-/

namespace Pagewright.Import

open Design (Thresholds)

/-- The name of a frame without a name. -/
def fallbackLabel : String := "Imported frame"

/-- The text that stands for a frame that shows nothing. -/
def frameLabel (frame : Design.Node) : String :=
  let name := Text.trimmed frame.name
  if name = "" then fallbackLabel else name

/-- The blocks of a frame. -/
def blocks (frame : Design.Node) : Option Layout.Node → List Layout.Node
  | none => [.text (frameLabel frame) none]
  | some (.section _ children) => children
  | some (.container _ children) => children
  | some other => [other]

/-- The type that a document declares. -/
def declaredType (document : Json) : String :=
  ((document.get? "type").bind Json.asText?).getD "nothing"

/-- The section that a frame document reads as. -/
def importFrame (thresholds : Thresholds) (document : Json) :
    Except ImportError Layout.Node :=
  if document.isObject then
    let frame := Design.readNode document
    if frame.type = .frame then
      .ok (.section none (blocks frame (Classify.classify thresholds frame)))
    else .error (.notAFrame (declaredType document))
  else .error .notAnObject

end Pagewright.Import
