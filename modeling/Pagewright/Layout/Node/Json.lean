import Pagewright.Layout.Node
import Pagewright.Layout.Style.Json
import Pagewright.Json.Parser
import Pagewright.Json.Printer

/-!
# The JSON form of layouts

A node is an object whose `type` names its kind; the other fields follow in a
fixed order, a style only where there is one. Reading fills in defaults for
what is missing. An object of an unknown kind is kept as it is; its style is
lifted out where it can be read, and is written back in the written form of
styles, or left out where it could not be read.
-/

namespace Pagewright.Layout

open Json

/-! ## Writing -/

/-- The style of a record, if there is one. -/
def styleField (style : Option Style) : Fields := setField "style" Style.toJson style

/-- The JSON form of a link. -/
def NavItem.toJson (item : NavItem) : Json :=
  .obj ([("label", .str item.label), ("href", .str item.href)] ++ styleField item.style)

/--
The fields of an unknown node with its style as it stands now. Such a node is
written with ascending keys throughout, its style included.
-/
def unknownFields (fields : Fields) (style : Option Style) : Fields :=
  match style with
  | some style => Json.insert "style" style.toJson.sorted fields
  | none => Json.erase "style" fields

mutual

/-- The JSON form of a node. -/
def Node.toJson : Node → Json
  | .section style children =>
    .obj ([("type", .str "section")] ++ styleField style
      ++ [("children", .arr (Node.listToJson children))])
  | .container style children =>
    .obj ([("type", .str "container")] ++ styleField style
      ++ [("children", .arr (Node.listToJson children))])
  | .columns style entries =>
    .obj ([("type", .str "columns")] ++ styleField style
      ++ [("columns", .arr (Column.listToJson entries))])
  | .heading content level style =>
    .obj ([("type", .str "heading"), ("text", .str content), ("level", .int level.toNat)]
      ++ styleField style)
  | .text content style =>
    .obj ([("type", .str "text"), ("text", .str content)] ++ styleField style)
  | .image src alt style =>
    .obj ([("type", .str "image"), ("src", .str src), ("alt", .str alt)] ++ styleField style)
  | .button label href style =>
    .obj ([("type", .str "button"), ("label", .str label), ("href", .str href)]
      ++ styleField style)
  | .input placeholder style =>
    .obj ([("type", .str "input"), ("placeholder", .str placeholder)] ++ styleField style)
  | .nav style items =>
    .obj ([("type", .str "nav")] ++ styleField style
      ++ [("items", .arr (items.map NavItem.toJson))])
  | .unknown fields style => .obj (unknownFields fields style)

/-- The JSON forms of nodes. -/
def Node.listToJson : List Node → List Json
  | [] => []
  | node :: rest => node.toJson :: Node.listToJson rest

/-- The JSON form of a column. -/
def Column.toJson : Column → Json
  | .mk style children =>
    .obj ([("type", .str "container")] ++ styleField style
      ++ [("children", .arr (Node.listToJson children))])

/-- The JSON forms of columns. -/
def Column.listToJson : List Column → List Json
  | [] => []
  | column :: rest => column.toJson :: Column.listToJson rest

end

/-! ## Reading -/

/-- A heading level: any number from zero up, its whole part, at most 255. -/
def readLevel : Reader UInt8 := fun value => do
  let x ← readNonNegative value
  .ok (UInt8.ofNat (Number.natPart8 x))

/-- The style field of a node. -/
def readStyleField (fields : Fields) : Except ShapeError (Option Style) :=
  field fields "style" (readOption (readStyle .inNode)) none

/-- The tag of a column, which carries no information. -/
def readColumnTag : Reader Unit := readVariant .inNode [("container", ())]

/-- A link of a navigation bar. -/
def readNavItem : Reader NavItem :=
  readRecord "NavItem" .inNode 3
    (fun fields => do
      let href ← field fields "href" readText "#"
      let label ← field fields "label" readText ""
      let style ← readStyleField fields
      .ok { label, href, style })
    (fun items => do
      let label ← entry items 0 readText ""
      let href ← entry items 1 readText "#"
      let style ← entry items 2 (readOption (readStyle .inNode)) none
      .ok { label, href, style })

/-- A leaf of a known kind from its fields. -/
def readLeaf (kind : String) (fields : Fields) : Except ShapeError Node :=
  match kind with
  | "heading" => do
    let level ← field fields "level" readLevel 2
    let style ← readStyleField fields
    let text ← field fields "text" readText ""
    .ok (.heading text level style)
  | "text" => do
    let style ← readStyleField fields
    let text ← field fields "text" readText ""
    .ok (.text text style)
  | "image" => do
    let alt ← field fields "alt" readText ""
    let src ← field fields "src" readText ""
    let style ← readStyleField fields
    .ok (.image src alt style)
  | "button" => do
    let href ← field fields "href" readText "#"
    let label ← field fields "label" readText "Button"
    let style ← readStyleField fields
    .ok (.button label href style)
  | "input" => do
    let placeholder ← field fields "placeholder" readText ""
    let style ← readStyleField fields
    .ok (.input placeholder style)
  | "nav" => do
    let items ← field fields "items" (readList readNavItem) []
    let style ← readStyleField fields
    .ok (.nav style items)
  | _ =>
    .ok (.unknown fields ((lookup "style" fields).bind fun value =>
      (readStyle .alone value).toOption))

mutual

/-- A layout node. -/
def readNode : Json → Except ShapeError Node
  | .obj fields =>
    match (lookup "type" fields).bind asText? with
    | some "section" => do
      let children ← readChildrenField fields
      let style ← readStyleField fields
      .ok (.section style children)
    | some "container" => do
      let children ← readChildrenField fields
      let style ← readStyleField fields
      .ok (.container style children)
    | some "columns" => do
      let columns ← readColumnsField fields
      let style ← readStyleField fields
      .ok (.columns style columns)
    | some kind => readLeaf kind fields
    | none => readLeaf "unknown" fields
  | _ => .error .notANode

/-- The `children` field. -/
def readChildrenField : Fields → Except ShapeError (List Node)
  | [] => .ok []
  | (key, value) :: rest =>
    if key = "children" then readNodes value else readChildrenField rest

/-- The `columns` field. -/
def readColumnsField : Fields → Except ShapeError (List Column)
  | [] => .ok []
  | (key, value) :: rest =>
    if key = "columns" then readColumns value else readColumnsField rest

/-- An array of nodes. -/
def readNodes : Json → Except ShapeError (List Node)
  | .arr items => readNodeItems items
  | other => .error (.wrongType other "a sequence")

/-- Nodes one after the other. -/
def readNodeItems : List Json → Except ShapeError (List Node)
  | [] => .ok []
  | item :: rest => do
    let node ← readNode item
    let nodes ← readNodeItems rest
    .ok (node :: nodes)

/-- An array of columns. -/
def readColumns : Json → Except ShapeError (List Column)
  | .arr items => readColumnItems items
  | other => .error (.wrongType other "a sequence")

/-- Columns one after the other. -/
def readColumnItems : List Json → Except ShapeError (List Column)
  | [] => .ok []
  | item :: rest => do
    let column ← readColumn item
    let columns ← readColumnItems rest
    .ok (column :: columns)

/-- A column, whose tag comes first where it is given as an array. -/
def readColumn : Json → Except ShapeError Column
  | .obj fields => do
    let children ← readChildrenField fields
    let style ← readStyleField fields
    let _ ← field fields "type" readColumnTag ()
    .ok (.mk style children)
  | .arr items => do
    let _ ← entry items 0 readColumnTag ()
    let style ← entry items 1 (readOption (readStyle .inNode)) none
    let children ← readThirdItem items
    checkLength .inNode 3 items
    .ok (.mk style children)
  | other => .error (.wrongType other "struct Column")

/-- The nodes of a column given as an array. -/
def readThirdItem : List Json → Except ShapeError (List Node)
  | _ :: _ :: children :: _ => readNodes children
  | _ => .ok []

end

/-! ## Text -/

/-- Why a text is no layout. -/
inductive ReadError where
  | text (cause : TextError)
  | shape (cause : ShapeError)
  deriving Repr, Inhabited

/--
The layout that a text stands for. The shape of the value in front counts
before what may follow it.
-/
def parse (text : String) : Except ReadError Node :=
  match readFront depthLimit text.toList with
  | .error cause => .error (.text cause)
  | .ok (value, rest) =>
    match readNode value with
    | .error cause => .error (.shape cause)
    | .ok node =>
      match readEnd rest with
      | .error cause => .error (.text cause)
      | .ok () => .ok node

/-- The text of a layout. -/
def render (node : Node) : String := Json.pretty node.toJson

end Pagewright.Layout
