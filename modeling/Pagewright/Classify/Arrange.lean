import Pagewright.Classify.Member

/-!
# Stacks, rows and free placement

A node without a familiar shape becomes a wrapper around what its children
read as: a stack under vertical layout, a row of columns under horizontal
layout, and visual rows where the children are placed freely. A wrapper that
would be empty is left out.
-/

namespace Pagewright.Classify

open Design (Thresholds)
open Layout (Column Style)

/-- A wrapper style that grows with a weight from nothing. -/
def growing (weight : Float) : Style :=
  { flexGrow := some weight, flexShrink := some 1.0, flexBasis := some 0.0 }

/-- A style that takes the size of its content. -/
def hugging : Style :=
  { flexGrow := some 0.0, flexShrink := some 1.0, flexBasisAuto := some true }

/-! ## Stacks -/

/-- How a child takes its height in a stack. -/
def stackSizing (child : Design.Node) : Style :=
  let sizing := match Design.growWeight child, child.sizingVertical with
    | some weight, _ => growing weight
    | none, some .fill => growing 1.0
    | none, some .hug => hugging
    | none, _ => {}
  { sizing with alignSelf := Design.alignSelf child }

/-- Lays the style of a node over a sizing, unless the sizing says nothing. -/
def withSizing (sizing : Style) (node : Layout.Node) : Layout.Node :=
  if sizing.isEmpty then node
  else match node.style with
    | some own => node.withStyle (some (sizing.overlay own))
    | none => node.withStyle (some sizing)

/-- The nodes of a stack. -/
def stackContent (members : List Member) : List Layout.Node :=
  members.filterMap fun member =>
    member.layout.map (withSizing (stackSizing member.node))

/-- The container of a node with vertical layout. -/
def stack? (thresholds : Thresholds) (node : Design.Node) (members : List Member) :
    Option Layout.Node :=
  let (children, visual) := absorbBackground thresholds node members
  let content := stackContent children
  if content.isEmpty then none
  else
    let style := (Design.layoutStyle node .column).overlay visual
    some (.container style.toOption content)

/-! ## Rows -/

/-- The width of a node that its padding and the gaps between its children leave. -/
def availableWidth (node : Design.Node) (count : Nat) (layout : Style) : Float :=
  let width := node.box.width
  if width ≤ 0.0 then width
  else
    let left := node.padding.left.getD 0.0
    let right := node.padding.right.getD 0.0
    let inner := Number.larger (width - left - right) 0.0
    let gap := layout.gap.getD 0.0
    if 0.0 < gap && 1 < count then
      Number.larger (inner - gap * (count - 1).toFloat) 0.0
    else inner

/-- How a child takes its width in a row. -/
def widthSizing (child : Design.Node) (available : Float) : Style :=
  let width := child.box.width
  let grow := Design.growWeight child
  if child.sizingHorizontal = some .fill ∨ grow.isSome then growing (grow.getD 1.0)
  else if child.sizingHorizontal = some .hug then hugging
  else if 0.0 < width then
    let percent := width / available * 100.0
    { flexGrow := some 0.0, flexShrink := some 0.0, widthPx := some width
      widthPercent :=
        if 0.0 < available ∧ 0.0 < percent ∧ percent ≤ 100.0 then some percent else none }
  else if 0.0 < available then { flexGrow := some 1.0, flexBasis := some 0.0 }
  else {}

/-- How a child takes its place in a row. -/
def columnSizing (child : Design.Node) (available : Float) : Style :=
  { widthSizing child available with
    minHeightPx := if 0.0 < child.box.height then some child.box.height else none
    alignSelf := Design.crossAlign child child.sizingVertical }

/-- A column of a row with the child that it holds. -/
structure Slot where
  source : Design.Node
  style : Style
  content : Layout.Node

/-- The column of a slot. -/
def Slot.column (slot : Slot) : Column := .mk slot.style.toOption [slot.content]

/-- The slots of the children that show something. -/
def slots (available : Float) (members : List Member) : List Slot :=
  members.filterMap fun member => member.layout.map fun content =>
    ⟨member.node, columnSizing member.node available, content⟩

/-- Whether a slot holds a text or heading near the center of the row. -/
def isCenteredLabel (thresholds : Thresholds) (row : Design.Node) (slot : Slot) : Bool :=
  (match slot.content with
   | .text .. | .heading .. => true
   | _ => false) &&
  (slot.source.box.centerX - row.box.centerX).abs ≤ thresholds.centeredLabelTolerance

/-- The column of a centered label: it takes all free space and centers its text. -/
def centeredColumn (slot : Slot) : Column :=
  let style := slot.style
  .mk (some { style with
    flexGrow := some 1.0, flexShrink := some 1.0, flexBasis := some 0.0
    widthPx := none, widthPercent := none
    textAlign := some (style.textAlign.getD "center") }) [slot.content]

/--
The columns of a row and its arrangement. A title near the center with one
action behind it is centered in the space that the action leaves.
-/
def arrangeRow (thresholds : Thresholds) (row : Design.Node) (layout : Style) :
    List Slot → List Column × Style
  | [label, action] =>
    if layout.justify = some .spaceBetween ∧ isCenteredLabel thresholds row label then
      ([centeredColumn label, action.column], { layout with justify := some .min })
    else ([label.column, action.column], layout)
  | slots => (slots.map Slot.column, layout)

/-- The columns of a node with horizontal layout. -/
def row? (thresholds : Thresholds) (node : Design.Node) (members : List Member) :
    Option Layout.Node :=
  let (children, visual) := absorbBackground thresholds node members
  let layout := Design.layoutStyle node .row
  let slots := slots (availableWidth node children.length layout) children
  if slots.isEmpty then none
  else
    let (columns, arrangement) := arrangeRow thresholds node layout slots
    some (.columns (arrangement.overlay visual).toOption columns)

/-! ## Free placement -/

/-- What a visual row reads as: a lone child itself, several as columns. -/
def visualRow? : List Member → Option Layout.Node
  | [single] => single.layout
  | row =>
    let content := shown (Design.leftToRight Member.node row)
    if content.isEmpty then none
    else some (.columns none (content.map fun node => .mk none [node]))

/-- The container of a node with freely placed children. -/
def scatter? (thresholds : Thresholds) (node : Design.Node) (members : List Member) :
    Option Layout.Node :=
  let (children, visual) := absorbBackground thresholds node members
  let content := (Design.groupIntoRows Member.node thresholds children).filterMap visualRow?
  if content.isEmpty then none else some (.container visual.toOption content)

/-- What a node without a familiar shape reads as. -/
def arrange? (thresholds : Thresholds) (node : Design.Node) (members : List Member) :
    Option Layout.Node :=
  match node.layoutMode with
  | .horizontal => row? thresholds node members
  | .vertical => stack? thresholds node members
  | .free => scatter? thresholds node members

end Pagewright.Classify
