import Pagewright.Proofs.Format.Payload

/-!
# Strings stay inside their markup

Three kinds of leaves reach a page as markup inside a setting: texts, inputs and
navigation bars. Their strings are escaped, and whatever they hold, a reader of
the setting finds one element with exactly these strings in it. So no string
opens a tag, leaves its attribute or passes for an entity, and the inline markup
of a page is that of the leaves that it shows.

## Main results

* `readMarkup?_leafWidget` — the markup of a leaf is read as one element.
* `fragments_read_back` — strings, leaves and pages.
-/

namespace Pagewright.Page

open Layout
open Preview (Markup)
open Payload (text? text?_alignSetting)

/-! ## Reading widgets -/

/-- The setting of a widget that holds markup. -/
def markupKey? : WidgetKind → Option String
  | .textEditor => some "editor"
  | .html => some "html"
  | .heading | .image | .button => none

/-- The trees that the markup of a widget is read as. -/
def readMarkup? : WidgetKind × Settings → Option (List Markup)
  | (widget, settings) =>
    (markupKey? widget).bind fun key => (text? key settings).bind readInline

/-- The element that stands for a leaf in markup: a paragraph with a text, a text field with
a placeholder, or a bar of the links that have a label. -/
def fragment? : Node → Option Markup
  | .text content _ => some (.element "p" [] (if content = "" then [] else [.text content]))
  | .input placeholder _ =>
    some (.element "input" [⟨"type", "text"⟩, ⟨"placeholder", placeholder⟩] [])
  | .nav _ items =>
    some (.element "nav" [] ((items.filter fun item => item.label != "").map fun item =>
      .element "a" [⟨"href", item.href⟩] [.text item.label]))
  | _ => none

/-- The markup that is all there is to a widget is read. -/
theorem readMarkup?_html (markup : String) :
    readMarkup? (.html, [("html", .str markup)]) = readInline markup := by
  have hSetting : text? "html" [("html", .str markup)] = some markup := rfl
  show (text? "html" [("html", .str markup)]).bind readInline = readInline markup
  rw [hSetting, Option.bind_some]

theorem readMarkup?_text (content : String) (style : Option Style) :
    (leafWidget (.text content style)).bind readMarkup? =
      some [.element "p" [] (if content = "" then [] else [.text content])] := by
  have hSetting : text? "editor" (alignSetting style ++
      [("editor", .str (paragraphMarkup content))]) = some (paragraphMarkup content) := by
    rw [text?_alignSetting (by decide)]
    rfl
  have hInside : Markup.settledAll [.text content] =
      if content = "" then [] else [.text content] := by
    rw [Markup.settledAll, Markup.settledAll, Markup.settled, List.append_nil]
  show (text? "editor" _).bind readInline = _
  rw [hSetting, Option.bind_some, readInline_paragraphMarkup, hInside]

/-- Whatever strings a leaf holds, its markup is read as one element with these strings. -/
theorem readMarkup?_leafWidget (leaf : Node) :
    (leafWidget leaf).bind readMarkup? = (fragment? leaf).map ([·]) := by
  cases leaf with
  | text content style => exact readMarkup?_text content style
  | input placeholder style =>
    rw [leafWidget, Option.bind_some, readMarkup?_html, readInline_inputMarkup]
    rfl
  | nav style items =>
    rw [leafWidget, Option.bind_some, readMarkup?_html, readInline_navMarkup]
    rfl
  | heading | image | button | «section» | container | columns | unknown => rfl

/-! ## Strings and pages -/

theorem any_isSpecial_escapeText (s : String) :
    (escapeText s).toList.any isSpecial = false := by
  rw [escapeText, String.toList_ofList, List.any_eq_false]
  intro c hMem
  rw [not_mem_escape hMem]
  exact Bool.false_ne_true

/-- An escaped string holds neither angle brackets nor quotes and is decoded as what it
was. The markup of every leaf is read as one element with the strings of the leaf, and
on a page nothing else is read, in any dialect. -/
theorem fragments_read_back :
    (∀ s : String, (escapeText s).toList.any isSpecial = false ∧
      unescape (escapeText s).toList = s.toList) ∧
    (∀ leaf : Node, (leafWidget leaf).bind readMarkup? = (fragment? leaf).map ([·])) ∧
    ∀ (layout : Node) (title : String) (d : Dialect),
      (pageWidgets (exportLayout (some layout) title d).content).map (·.bind readMarkup?) =
        layout.shown.map fun leaf => (fragment? leaf).map ([·]) := by
  refine ⟨fun s => ⟨any_isSpecial_escapeText s, ?_⟩, readMarkup?_leafWidget, ?_⟩
  · rw [escapeText, String.toList_ofList, unescape_escape]
  · intro layout title d
    show (pageWidgets (content d layout)).map (·.bind readMarkup?) = _
    rw [pageWidgets_content, List.map_map]
    exact List.map_congr_left fun leaf _ => readMarkup?_leafWidget leaf

end Pagewright.Page
