import Pagewright.Layout.Style
import Pagewright.Json.Value

/-!
# Layout trees

A layout is a tree of sections, containers and rows of columns around the
leaves that a page shows: headings, texts, images, buttons, inputs and
navigation bars. A node of any other kind is kept as the object it was.

A node *has content* when it shows something. Wrappers have content when a
child does; texts that are blank, images without a source and unknown nodes
have none.

## Main results

* `Node.anyContent_iff`, `Column.anyContent_iff` — a list has content exactly
  when a member does.
-/

namespace Pagewright.Layout

/-- A link of a navigation bar. -/
structure NavItem where
  label : String
  href : String
  style : Option Style
  deriving DecidableEq, Repr, Inhabited

mutual

/-- A node of a layout. -/
inductive Node where
  | section (style : Option Style) (children : List Node)
  | container (style : Option Style) (children : List Node)
  | columns (style : Option Style) (columns : List Column)
  | heading (text : String) (level : UInt8) (style : Option Style)
  | text (text : String) (style : Option Style)
  | image (src alt : String) (style : Option Style)
  | button (label href : String) (style : Option Style)
  | input (placeholder : String) (style : Option Style)
  | nav (style : Option Style) (items : List NavItem)
  /-- A node of another kind, as its fields and the style among them. -/
  | unknown (fields : Json.Fields) (style : Option Style)
  deriving BEq, Repr, Inhabited

/-- One column of a row. -/
inductive Column where
  | mk (style : Option Style) (children : List Node)
  deriving BEq, Repr, Inhabited

end

namespace Column

/-- The style of a column. -/
def style : Column → Option Style
  | mk style _ => style

/-- The nodes of a column. -/
def children : Column → List Node
  | mk _ children => children

end Column

namespace Node

/-- The kinds of nodes that a layout knows. -/
def knownKinds : List String :=
  ["section", "container", "columns", "heading", "text", "image", "button", "input", "nav"]

/-- The kind that an object declares. -/
def declaredKind (fields : Json.Fields) : String :=
  ((Json.lookup "type" fields).bind Json.asText?).getD "unknown"

/-- The kind of a node. -/
def kind : Node → String
  | .section .. => "section"
  | .container .. => "container"
  | .columns .. => "columns"
  | .heading .. => "heading"
  | .text .. => "text"
  | .image .. => "image"
  | .button .. => "button"
  | .input .. => "input"
  | .nav .. => "nav"
  | .unknown fields _ => declaredKind fields

/-- The style of a node. -/
def style : Node → Option Style
  | .section style _ | .container style _ | .columns style _ => style
  | .heading _ _ style | .text _ style | .image _ _ style => style
  | .button _ _ style | .input _ style | .nav style _ | .unknown _ style => style

/-- The node with another style. -/
def withStyle (style : Option Style) : Node → Node
  | .section _ children => .section style children
  | .container _ children => .container style children
  | .columns _ entries => .columns style entries
  | .heading content level _ => .heading content level style
  | .text content _ => .text content style
  | .image src alt _ => .image src alt style
  | .button label href _ => .button label href style
  | .input placeholder _ => .input placeholder style
  | .nav _ items => .nav style items
  | .unknown fields _ => .unknown fields style

theorem style_withStyle (style : Option Style) (node : Node) :
    (node.withStyle style).style = style := by
  cases node <;> rfl

/-- Whether a node is of no known kind. -/
def isUnknown : Node → Bool
  | .unknown .. => true
  | _ => false

end Node

/-! ## Content -/

mutual

/-- Whether a node shows something. -/
def Node.hasContent : Node → Bool
  | .section _ children | .container _ children => Node.anyContent children
  | .columns _ entries => Column.anyContent entries
  | .heading content .. | .text content _ => !Text.isBlankText content
  | .image src .. => src != ""
  | .button .. | .input .. => true
  | .nav _ items => items.any fun item => item.label != ""
  | .unknown .. => false

/-- Whether a node of a list shows something. -/
def Node.anyContent : List Node → Bool
  | [] => false
  | node :: rest => node.hasContent || Node.anyContent rest

/-- Whether a column shows something. -/
def Column.hasContent : Column → Bool
  | .mk _ children => Node.anyContent children

/-- Whether a column of a list shows something. -/
def Column.anyContent : List Column → Bool
  | [] => false
  | column :: rest => column.hasContent || Column.anyContent rest

end

theorem Node.anyContent_iff {nodes : List Node} :
    Node.anyContent nodes = true ↔ ∃ node ∈ nodes, node.hasContent = true := by
  induction nodes with
  | nil => simp [Node.anyContent]
  | cons node rest ih => simp [Node.anyContent, ih]

theorem Column.anyContent_iff {columns : List Column} :
    Column.anyContent columns = true ↔ ∃ column ∈ columns, column.hasContent = true := by
  induction columns with
  | nil => simp [Column.anyContent]
  | cons column rest ih => simp [Column.anyContent, ih]

end Pagewright.Layout
