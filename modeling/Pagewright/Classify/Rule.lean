import Pagewright.Classify.Member
import Pagewright.Text.Search

/-!
# Rules for familiar shapes

Some arrangements of nodes are familiar: a card over its background, a field
or button around one label, a row of links. Each rule has a test, which looks
at a node and its children, and a builder, which may still decline. Rules are
tried in the order of `Rule.all`.
-/

namespace Pagewright.Classify

open Design (Thresholds)
open Layout (Style)

/-! ## Cards -/

/-- Content stacked over a background. -/
def isCard (thresholds : Thresholds) (node : Design.Node) (members : List Member) : Bool :=
  node.type.isFrameLike && node.layoutMode != .horizontal && 2 ≤ members.length &&
    (splitBackground thresholds node members).2.isSome

/-- The content of a card, two nodes at least, in the looks of the node over the background. -/
def card? (thresholds : Thresholds) (node : Design.Node) (members : List Member) :
    Option Layout.Node :=
  match splitBackground thresholds node members with
  | (others, some background) =>
    let content := shown others
    if content.length < 2 then none
    else
      let style := (Design.visualStyle background.node).overlay (Design.visualStyle node)
      some (.container style.toOption content)
  | (_, none) => none

/-! ## Controls: inputs and buttons -/

/-- A label with icons around it in a frame of some looks. -/
structure Control where
  text : Design.Node
  icons : Nat
  visual : Style

/-- The label of a control. -/
def Control.label (control : Control) : String := control.text.text

/-- The looks of a node, those of its background over them. -/
def controlVisual (node : Design.Node) (background : Option Member) : Style :=
  match background with
  | some background =>
    (Design.visualStyle node).overlay (Design.visualStyle background.node)
  | none => Design.visualStyle node

/-- The parts of a control: one text, icons, and no child of another type. -/
def parts? (node : Design.Node) (others : List Member) (background : Option Member) :
    Option Control :=
  if others.all fun member => member.node.isText || member.node.type.isIconLike then
    match others.filter (·.node.isText) with
    | [text] =>
      some { text := text.node
             icons := (others.filter (·.node.type.isIconLike)).length
             visual := controlVisual node background }
    | _ => none
  else none

/-- Whether a control has a label, at most one icon, and a frame that can be seen. -/
def Control.isPlausible (control : Control) (node : Design.Node) : Bool :=
  !(1 < control.icons || control.label == "") &&
    (control.visual.hasVisual || node.padding.isNonzero)

/-- The control that a frame reads as. -/
def control? (thresholds : Thresholds) (node : Design.Node) (members : List Member) :
    Option Control :=
  if node.type.isFrameLike && !members.isEmpty then
    let (others, background) := splitBackground thresholds node members
    (parts? node others background).filter (·.isPlausible node)
  else none

/-- The arrangement and looks of a control and the typography of its label. -/
def controlStyle (node : Design.Node) (control : Control) : Option Style :=
  (((Design.layoutStyle node (Design.ownDirection node)).overlay control.visual).overlay
    (Design.textStyle control.text)).toOption

/-- Words that tell an input, in its name or in its placeholder. -/
def inputWords : List String := ["search", "input", "field", "enter"]

/-- Whether a text holds one of the words of inputs, in any letter case. -/
def soundsLikeInput (text : String) : Bool :=
  inputWords.any (Text.contains (Text.lower text))

/-- A control with automatic layout that has an icon or is worded as an input. -/
def isInput (thresholds : Thresholds) (node : Design.Node) (members : List Member) : Bool :=
  node.layoutMode != .free &&
    (control? thresholds node members).any fun control =>
      soundsLikeInput node.name || soundsLikeInput control.label || 0 < control.icons

/-- The input of a control. -/
def input? (thresholds : Thresholds) (node : Design.Node) (members : List Member) :
    Option Layout.Node :=
  (control? thresholds node members).map fun control =>
    .input control.label (controlStyle node control)

/-- Any control. -/
def isButton (thresholds : Thresholds) (node : Design.Node) (members : List Member) : Bool :=
  (control? thresholds node members).isSome

/-- The button of a control. -/
def button? (thresholds : Thresholds) (node : Design.Node) (members : List Member) :
    Option Layout.Node :=
  (control? thresholds node members).map fun control =>
    .button control.label "#" (controlStyle node control)

/-! ## Navigation bars -/

/-- Whether a child is a text of body size. -/
def isLink (thresholds : Thresholds) (node : Design.Node) : Bool :=
  node.isText && node.text != "" &&
    (thresholds.headingLevel? (Design.textFontSize node)).isNone

/-- A row of two or more texts of body size. -/
def isNav (thresholds : Thresholds) (node : Design.Node) (members : List Member) : Bool :=
  node.layoutMode == .horizontal && 2 ≤ members.length &&
    members.all fun member => isLink thresholds member.node

/-- The link of a text. -/
def navItem (node : Design.Node) : Layout.NavItem where
  label := node.text
  href := "#"
  style := (Design.textStyle node).toOption

/-- The bar of links of the children that are not blank. -/
def nav? (node : Design.Node) (members : List Member) : Option Layout.Node :=
  let items := ((inOrder node members).map (·.node)).filter (·.text != "")
  if items.isEmpty then none
  else
    let style := (Design.layoutStyle node .row).overlay (Design.visualStyle node)
    some (.nav style.toOption (items.map navItem))

/-! ## The rules -/

/-- A familiar shape. -/
inductive Rule where
  | card
  | input
  | button
  | nav
  deriving DecidableEq, Repr

namespace Rule

/-- The rules in the order in which they are tried. -/
def all : List Rule := [.card, .input, .button, .nav]

/-- The name of a rule. -/
def name : Rule → String
  | .card => "card"
  | .input => "input"
  | .button => "button"
  | .nav => "nav"

/-- Whether a node has the shape of a rule. -/
def applies (thresholds : Thresholds) (node : Design.Node) (members : List Member) :
    Rule → Bool
  | .card => isCard thresholds node members
  | .input => isInput thresholds node members
  | .button => isButton thresholds node members
  | .nav => isNav thresholds node members

/-- What a rule makes of a node, whether it applies or not. -/
def build? (thresholds : Thresholds) (node : Design.Node) (members : List Member) :
    Rule → Option Layout.Node
  | .card => card? thresholds node members
  | .input => input? thresholds node members
  | .button => button? thresholds node members
  | .nav => nav? node members

/-- What the first rule makes that applies and does not decline. -/
def firstMatch? (thresholds : Thresholds) (node : Design.Node) (members : List Member) :
    Option Layout.Node :=
  all.findSome? fun rule =>
    if rule.applies thresholds node members then rule.build? thresholds node members else none

end Rule

end Pagewright.Classify
