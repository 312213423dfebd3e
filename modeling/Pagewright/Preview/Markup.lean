/-!
# Markup trees

A page is a tree of elements with attributes, and of texts. Writing a tree
escapes texts and attribute values: angle brackets in texts, quotes in
attributes, ampersands and no-break spaces in both. Images and inputs have no
content and no end tag.

## Main results

* `escapeText_noAngle` — a written text opens no tag.
* `escapeAttribute_noQuote` — a written attribute value does not end its quotes.
-/

namespace Pagewright.Preview

/-- An attribute of an element. -/
structure Attribute where
  name : String
  value : String
  deriving DecidableEq, Repr, Inhabited

/-- A tree of markup. -/
inductive Markup where
  | text (content : String)
  | element (tag : String) (attributes : List Attribute) (children : List Markup)
  deriving BEq, Repr, Inhabited

/-! ## Escaping -/

/-- One character of a text. -/
def escapeTextChar (c : Char) : List Char :=
  match c with
  | '&' => "&amp;".toList
  | '<' => "&lt;".toList
  | '>' => "&gt;".toList
  | '\u00a0' => "&nbsp;".toList
  | _ => [c]

/-- One character of an attribute value. -/
def escapeAttributeChar (c : Char) : List Char :=
  match c with
  | '&' => "&amp;".toList
  | '"' => "&quot;".toList
  | '\u00a0' => "&nbsp;".toList
  | _ => [c]

/-- A text as it is written. -/
def escapeText (text : List Char) : List Char := text.flatMap escapeTextChar

/-- An attribute value as it is written between its quotes. -/
def escapeAttribute (value : List Char) : List Char := value.flatMap escapeAttributeChar

theorem escapeText_noAngle {text : List Char} {d : Char} (h : d ∈ escapeText text) :
    d ≠ '<' ∧ d ≠ '>' := by
  obtain ⟨c, _, hc⟩ := List.mem_flatMap.1 h
  clear h
  unfold escapeTextChar at hc
  split at hc
  · simp at hc
    rcases hc with rfl | rfl | rfl | rfl | rfl <;> decide
  · simp at hc
    rcases hc with rfl | rfl | rfl | rfl <;> decide
  · simp at hc
    rcases hc with rfl | rfl | rfl | rfl <;> decide
  · simp at hc
    rcases hc with rfl | rfl | rfl | rfl | rfl | rfl <;> decide
  · rename_i h1 h2 h3 h4
    have hd : d = c := by simpa using hc
    exact hd ▸ ⟨h2, h3⟩

theorem escapeAttribute_noQuote {value : List Char} {d : Char} (h : d ∈ escapeAttribute value) :
    d ≠ '"' := by
  obtain ⟨c, _, hc⟩ := List.mem_flatMap.1 h
  clear h
  unfold escapeAttributeChar at hc
  split at hc
  · simp at hc
    rcases hc with rfl | rfl | rfl | rfl | rfl <;> decide
  · simp at hc
    rcases hc with rfl | rfl | rfl | rfl | rfl | rfl <;> decide
  · simp at hc
    rcases hc with rfl | rfl | rfl | rfl | rfl | rfl <;> decide
  · rename_i h1 h2 h3
    have hd : d = c := by simpa using hc
    exact hd ▸ h2

/-! ## Writing -/

/-- The tags of elements without content. -/
def isVoid (tag : String) : Bool := tag == "img" || tag == "input"

/-- An attribute as it is written. -/
def Attribute.text (a : Attribute) : String :=
  " " ++ a.name ++ "=\"" ++ String.ofList (escapeAttribute a.value.toList) ++ "\""

/-- The start tag of an element. -/
def startTag (tag : String) (attributes : List Attribute) : String :=
  "<" ++ tag ++ String.join (attributes.map Attribute.text) ++ ">"

/-- The end tag of an element. -/
def endTag (tag : String) : String := "</" ++ tag ++ ">"

mutual

/-- The text of a tree. -/
def Markup.write : Markup → String
  | .text content => String.ofList (escapeText content.toList)
  | .element tag attributes children =>
    if isVoid tag then startTag tag attributes
    else startTag tag attributes ++ Markup.writeAll children ++ endTag tag

/-- The text of several trees. -/
def Markup.writeAll : List Markup → String
  | [] => ""
  | tree :: rest => tree.write ++ Markup.writeAll rest

end

end Pagewright.Preview
