import Pagewright.Layout.Node.Json
import Pagewright.Preview.Css
import Pagewright.Preview.Markup

/-!
# The preview of a layout

Every node with content becomes one markup element, with its style as an
inline attribute; nodes and columns without content leave no trace. A node of
an unknown kind is shown as its JSON text.
-/

namespace Pagewright.Preview

open Layout

/-- The attributes of an element with a style in front of which others stand. -/
def withInline (attributes : List Attribute) (css : String) : List Attribute :=
  if css = "" then attributes else attributes ++ [⟨"style", css⟩]

/-- The style of a column: one without a size grows with its neighbours. -/
def columnStyle (style : Option Style) : Style :=
  let own := style.getD Style.empty
  if own.widthPercent.isNone && own.flexGrow.isNone && own.flexBasis.isNone then
    own.overlay { flexGrow := some 1.0, flexBasis := some 0.0 }
  else own

/-- The tag of a heading, from `h1` to `h3`. -/
def headingTag (level : UInt8) : String := "h" ++ toString (max 1 (min 3 level.toNat))

/-- The link of a navigation item. -/
def renderItem (item : NavItem) : Markup :=
  .element "a" (withInline [⟨"href", item.href⟩] (inlineCss false item.style))
    [.text item.label]

/-- The links of a bar that are labelled. -/
def renderItems (items : List NavItem) : List Markup :=
  (items.filter fun item => item.label != "").map renderItem

/-- The element of a block around the markup of its children. -/
def renderBlock (style : Option Style) (children : List Markup) : Markup :=
  .element "div" (withInline [⟨"class", "section"⟩] (inlineCss false style)) children

/-- The element of a leaf. -/
def renderLeaf : Node → Markup
  | .heading content level style =>
    .element (headingTag level) (withInline [] (inlineCss false style)) [.text content]
  | .text content style =>
    .element "p" (withInline [] (inlineCss false style)) [.text content]
  | .image src alt style =>
    .element "img" (withInline [⟨"src", src⟩, ⟨"alt", alt⟩] (inlineCss false style)) []
  | .button label href style =>
    .element "a" (withInline [⟨"class", "button"⟩, ⟨"href", href⟩] (inlineCss false style))
      [.text label]
  | .input placeholder style =>
    .element "input"
      (withInline [⟨"type", "text"⟩, ⟨"placeholder", placeholder⟩] (inlineCss false style)) []
  | .nav style items =>
    .element "nav" (withInline [] (inlineCss true style)) (renderItems items)
  | node => .element "pre" [] [.text (Layout.render node)]

mutual

/-- The markup of a node, if it is shown. -/
def render : Node → Option Markup
  | .section style children =>
    if Node.anyContent children then some (renderBlock style (renderAll children)) else none
  | .container style children =>
    if Node.anyContent children then some (renderBlock style (renderAll children)) else none
  | .columns style columns =>
    if Column.anyContent columns then
      some (.element "div" (withInline [⟨"class", "row"⟩] (inlineCss true style))
        (renderColumns columns))
    else none
  | leaf => if leaf.isUnknown || leaf.hasContent then some (renderLeaf leaf) else none

/-- The markup of the nodes of a list. -/
def renderAll : List Node → List Markup
  | [] => []
  | node :: rest => (render node).toList ++ renderAll rest

/-- The markup of the columns that have content. -/
def renderColumns : List Column → List Markup
  | [] => []
  | .mk style children :: rest =>
    if Node.anyContent children then
      .element "div"
          (withInline [⟨"class", "col"⟩] (inlineCss false (some (columnStyle style))))
          (renderAll children)
        :: renderColumns rest
    else renderColumns rest

end

/-- The body of a preview. -/
def body (layout : Node) : String := ((render layout).map Markup.write).getD ""

end Pagewright.Preview
