import Pagewright.Layout.Node
import Pagewright.Page.Element

/-!
# Widgets

Every leaf of a layout becomes one widget. Headings, texts, images and buttons
have widgets of their own; inputs and navigation bars are written as inline
markup. Text inside markup is escaped, so that it can neither open a tag nor
leave its attribute.

## Main results

* `not_mem_escape` — escaped text holds no angle bracket and no quote.
-/

namespace Pagewright.Page

/-! ## Inline markup -/

/-- One character inside markup. -/
def escapeChar (c : Char) : List Char :=
  match c with
  | '&' => "&amp;".toList
  | '<' => "&lt;".toList
  | '>' => "&gt;".toList
  | '"' => "&quot;".toList
  | '\'' => "&#039;".toList
  | _ => [c]

/-- A text inside markup or a quoted attribute. -/
def escape (text : List Char) : List Char := text.flatMap escapeChar

/-- A string inside markup or a quoted attribute. -/
def escapeText (s : String) : String := String.ofList (escape s.toList)

/-- The characters that escaped text does not hold. -/
def isSpecial (c : Char) : Bool := c == '<' || c == '>' || c == '"' || c == '\''

theorem not_isSpecial_of_mem_escapeChar {c d : Char} (h : d ∈ escapeChar c) :
    isSpecial d = false := by
  unfold escapeChar at h
  split at h
  · simp at h
    rcases h with rfl | rfl | rfl | rfl | rfl <;> decide
  · simp at h
    rcases h with rfl | rfl | rfl | rfl <;> decide
  · simp at h
    rcases h with rfl | rfl | rfl | rfl <;> decide
  · simp at h
    rcases h with rfl | rfl | rfl | rfl | rfl | rfl <;> decide
  · simp at h
    rcases h with rfl | rfl | rfl | rfl | rfl | rfl <;> decide
  · rename_i h1 h2 h3 h4 h5
    have hd : d = c := by simpa using h
    subst hd
    simp only [isSpecial, Bool.or_eq_false_iff, beq_eq_false_iff_ne, ne_eq]
    exact ⟨⟨⟨h2, h3⟩, h4⟩, h5⟩

theorem not_mem_escape {text : List Char} {d : Char} (h : d ∈ escape text) :
    isSpecial d = false := by
  obtain ⟨c, _, hc⟩ := List.mem_flatMap.1 h
  exact not_isSpecial_of_mem_escapeChar hc

/-- A paragraph. -/
def paragraphMarkup (text : String) : String := "<p>" ++ escapeText text ++ "</p>"

/-- A text field. -/
def inputMarkup (placeholder : String) : String :=
  "<input type=\"text\" placeholder=\"" ++ escapeText placeholder ++ "\" />"

/-- A link. -/
def linkMarkup (item : Layout.NavItem) : String :=
  "<a href=\"" ++ escapeText item.href ++ "\">" ++ escapeText item.label ++ "</a>"

/-- The links of a bar that are labelled. -/
def labelledItems (items : List Layout.NavItem) : List Layout.NavItem :=
  items.filter fun item => item.label != ""

/-- A navigation bar of the labelled links. -/
def navMarkup (items : List Layout.NavItem) : String :=
  "<nav>" ++ String.join ((labelledItems items).map linkMarkup) ++ "</nav>"

/-! ## Leaves -/

/-- The alignment setting of a text, if it has one. -/
def alignSetting (style : Option Layout.Style) : Settings :=
  match style.bind (·.textAlign) with
  | some align => if align = "" then [] else [("align", .str align)]
  | none => []

/-- The tag of a heading, from `h1` to `h6`. -/
def headingTag (level : UInt8) : String := "h" ++ toString (max 1 (min 6 level.toNat))

/-- The widget of a leaf: its kind and settings. -/
def leafWidget : Layout.Node → Option (WidgetKind × Settings)
  | .heading content level style =>
    some (.heading, alignSetting style ++
      [("header_size", .str (headingTag level)), ("title", .str content)])
  | .text content style =>
    some (.textEditor, alignSetting style ++ [("editor", .str (paragraphMarkup content))])
  | .image src alt _ =>
    some (.image, [("caption", .str alt), ("image", .obj [("url", .str src)])])
  | .button label href _ =>
    some (.button, [("link", .obj [("url", .str href)]), ("text", .str label)])
  | .input placeholder _ => some (.html, [("html", .str (inputMarkup placeholder))])
  | .nav _ items => some (.html, [("html", .str (navMarkup items))])
  | _ => none

end Pagewright.Page
