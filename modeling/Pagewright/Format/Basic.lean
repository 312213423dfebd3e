import Pagewright.Page.Export
import Pagewright.Preview.Document

/-!
# Text formats of layouts

A format is a named text form of layouts that can be read, written, or both.
Three formats come with the library: the JSON form of layouts, the HTML
preview, and page-builder documents.
-/

namespace Pagewright

/-- Why a format gives no answer. -/
inductive FormatError where
  | notFound (name : String)
  | noParsing (name : String)
  | noSerialization (name : String)
  | unreadable (cause : Layout.ReadError)
  deriving Repr, Inhabited

/-- A named text form of layouts. A format says for itself whether it can be read and
whether it can be written; both fail unless the format brings a way to do it. -/
structure Format where
  name : String
  description : String := ""
  extensions : List String := []
  /-- Whether the format says that it can be read. -/
  canParse : Bool := false
  /-- Whether the format says that it can be written. -/
  canSerialize : Bool := false
  /-- The layout that a text of the format stands for. -/
  parse : String → Except FormatError Layout.Node := fun _ => .error (.noParsing name)
  /-- The text of a layout in the format. -/
  serialize : Layout.Node → Except FormatError String := fun _ =>
    .error (.noSerialization name)

namespace Format

/-- How a text is read, where the format says that it can be. -/
def reads? (format : Format) : Option (String → Except FormatError Layout.Node) :=
  if format.canParse then some format.parse else none

/-- How a layout is written, where the format says that it can be. -/
def writes? (format : Format) : Option (Layout.Node → Except FormatError String) :=
  if format.canSerialize then some format.serialize else none

/-- The JSON form of layouts. -/
def layout : Format where
  name := "layout"
  description := "Layout IR as JSON"
  extensions := ["json"]
  canParse := true
  canSerialize := true
  parse source := (Layout.parse source).mapError .unreadable
  serialize layout := .ok (Layout.render layout)

/-- The HTML preview. -/
def html : Format where
  name := "html"
  description := "Self-contained HTML preview with inline styles"
  extensions := ["html", "htm"]
  canSerialize := true
  serialize layout := .ok (Preview.document layout)

/-- Page-builder documents with a title in a dialect. -/
def pageBuilder (title : String) (dialect : Page.Dialect) : Format where
  name := "pagebuilder"
  description := "Page-builder import document (classic, classic_simple or container)"
  extensions := ["json"]
  canSerialize := true
  serialize layout :=
    .ok (Json.pretty (Page.exportLayout (some layout) title dialect).toJson)

end Format

/-- The wording of a format error; unreadable text has wordings of its own. -/
def FormatError.message : FormatError → String
  | .notFound name => "format not found: " ++ name
  | .noParsing name => "Format '" ++ name ++ "' does not support parsing"
  | .noSerialization name => "Format '" ++ name ++ "' does not support serialization"
  | .unreadable (.shape cause) => "invalid layout JSON: " ++ cause.message
  | .unreadable (.text _) => "invalid layout JSON"

end Pagewright
