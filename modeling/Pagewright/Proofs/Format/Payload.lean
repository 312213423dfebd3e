import Pagewright.Proofs.Layout.Nodes
import Pagewright.Proofs.Page.Content
import Pagewright.Proofs.Page.Inline
import Pagewright.Proofs.Preview.Document

/-!
# What previews and pages show

A preview shows a leaf as an element, a page shows it as a widget, and both carry
the strings of the leaf: its payload. The payload of an element is told from its
tag, its attributes and what is in it. That of a widget is told from its settings;
texts, inputs and navigation bars are markup inside a setting, which is read first.

The two ways to show a layout are found by different recursions, and the one to a
page is followed by passes over its blocks. For a layout whose nodes are all of a
known kind they show the same payloads in the same order.

## Main results

* `allLeafElements_render` — the leaf elements of a preview are those of the leaves
  with content.
* `Payload.ofMarkup?_renderLeaf`, `Payload.ofWidget?_leafWidget` — the element and the
  widget of a leaf have the payload of the leaf.
* `Payload.preview_agrees_with_page` — a preview and a page have the same payloads.
-/

namespace Pagewright

open Layout (Node Column NavItem)
open Preview (Attribute Markup render renderAll renderColumns renderLeaf withInline)
open Page (WidgetKind Settings Dialect leafWidget exportLayout pageWidgets readInline labelledItems)

/-! ## Payloads -/

/-- What a leaf shows. A navigation bar shows the labels of its links with what
they refer to. -/
inductive Payload where
  | heading (content : String)
  | text (content : String)
  | image (src alt : String)
  | button (label href : String)
  | input (placeholder : String)
  | nav (links : List (String × String))
  deriving DecidableEq, Repr, Inhabited

namespace Payload

/-- The payload of a leaf of a known kind. -/
def ofNode? : Node → Option Payload
  | .heading content _ _ => some (.heading content)
  | .text content _ => some (.text content)
  | .image src alt _ => some (.image src alt)
  | .button label href _ => some (.button label href)
  | .input placeholder _ => some (.input placeholder)
  | .nav _ items => some (.nav ((labelledItems items).map fun item => (item.label, item.href)))
  | _ => none

/-- The payloads that a layout shows, in document order. -/
def ofLayout (layout : Node) : List Payload := layout.shown.filterMap ofNode?

/-! ## Payloads of elements -/

/-- The value of an attribute. -/
def attribute? (name : String) (attributes : List Attribute) : Option String :=
  (attributes.find? fun a => a.name == name).map Attribute.value

/-- The text in an element that holds nothing else. -/
def innerText? : List Markup → Option String
  | [] => some ""
  | [.text content] => some content
  | _ => none

/-- The label of a link with what it refers to. -/
def link? : Markup → Option (String × String)
  | .element "a" attributes children =>
    (innerText? children).bind fun label =>
      (attribute? "href" attributes).map fun href => (label, href)
  | _ => none

/-- The payload of an element. -/
def ofMarkup? : Markup → Option Payload
  | .element "h1" _ children | .element "h2" _ children | .element "h3" _ children =>
    (innerText? children).map .heading
  | .element "p" _ children => (innerText? children).map .text
  | .element "img" attributes _ =>
    (attribute? "src" attributes).bind fun src => (attribute? "alt" attributes).map (.image src)
  | .element "a" attributes children =>
    if attribute? "class" attributes = some "button" then
      (link? (.element "a" attributes children)).map fun link => .button link.1 link.2
    else none
  | .element "input" attributes _ =>
    if attribute? "type" attributes = some "text" then
      (attribute? "placeholder" attributes).map .input
    else none
  | .element "nav" _ children => (children.mapM link?).map .nav
  | _ => none

/-! ## Payloads of widgets -/

/-- A setting that is a text. -/
def text? (name : String) (settings : Settings) : Option String :=
  (Json.lookup name settings).bind Json.asText?

/-- The address in a setting. -/
def url? (name : String) (settings : Settings) : Option String :=
  ((Json.lookup name settings).bind (Json.get? "url")).bind Json.asText?

/-- The payload of the one element that a setting is the markup of. -/
def inline? (name : String) (settings : Settings) : Option Payload :=
  match (text? name settings).bind readInline with
  | some [tree] => ofMarkup? tree
  | _ => none

/-- The payload of a widget. -/
def ofWidget? : WidgetKind × Settings → Option Payload
  | (.heading, settings) => (text? "title" settings).map .heading
  | (.textEditor, settings) =>
    match inline? "editor" settings with
    | some (.text content) => some (.text content)
    | _ => none
  | (.image, settings) =>
    (url? "image" settings).bind fun src => (text? "caption" settings).map (.image src)
  | (.button, settings) =>
    (text? "text" settings).bind fun label => (url? "link" settings).map (.button label)
  | (.html, settings) =>
    match inline? "html" settings with
    | some (.input placeholder) => some (.input placeholder)
    | some (.nav links) => some (.nav links)
    | _ => none

end Payload

/-! ## Leaf elements of a preview -/

mutual

/-- The elements of a tree that are no divisions, in document order and not looked into. -/
def leafElements : Markup → List Markup
  | .element tag attributes children =>
    if tag = "div" then allLeafElements children else [.element tag attributes children]
  | .text content => [.text content]

/-- The elements of trees that are no divisions. -/
def allLeafElements : List Markup → List Markup
  | [] => []
  | tree :: rest => leafElements tree ++ allLeafElements rest

end

theorem allLeafElements_eq (trees : List Markup) :
    allLeafElements trees = trees.flatMap leafElements := by
  induction trees with
  | nil => rfl
  | cons tree rest ih => rw [allLeafElements, ih, List.flatMap_cons]

theorem leafElements_div (attributes : List Attribute) (children : List Markup) :
    leafElements (.element "div" attributes children) = allLeafElements children := by
  rw [leafElements, if_pos rfl]

/-- The element of a leaf is no division. -/
theorem leafElements_renderLeaf (leaf : Node) :
    leafElements (renderLeaf leaf) = [renderLeaf leaf] := by
  have hOther {tag : String} (hTag : tag ≠ "div") (attributes : List Attribute)
      (children : List Markup) :
      leafElements (.element tag attributes children) = [.element tag attributes children] := by
    rw [leafElements, if_neg hTag]
  cases leaf with
  | heading content level style =>
    refine hOther ?_ _ _
    intro hDiv
    exact absurd (hDiv ▸ Preview.headingTag_mem level) (by decide)
  | _ => exact hOther (by decide) _ _

theorem allLeafElements_renderAll (nodes : List Node) :
    allLeafElements (renderAll nodes) =
      nodes.flatMap fun node => allLeafElements (render node).toList := by
  induction nodes with
  | nil => rfl
  | cons node rest ih =>
    rw [renderAll, allLeafElements_eq, List.flatMap_append, ← allLeafElements_eq,
      ← allLeafElements_eq, ih, List.flatMap_cons]

/-- Nodes without content have no leaf elements, so it does not matter which of the
wrappers are left out. -/
theorem allLeafElements_nodes {nodes : List Node}
    (ih : ∀ node ∈ nodes, allLeafElements (render node).toList = node.shown.map renderLeaf) :
    allLeafElements (renderAll nodes) = (nodes.flatMap Node.shown).map renderLeaf := by
  rw [allLeafElements_renderAll, List.map_flatMap]
  exact List.flatMap_congr ih

theorem shown_of_not_anyContent {nodes : List Node} (hNone : Node.anyContent nodes = false) :
    nodes.flatMap Node.shown = [] := by
  have hNodes := Node.anyContent_eq_false_iff.1 hNone
  refine List.flatMap_eq_nil_iff.2 fun node hMem => ?_
  by_contra hShown
  have hContent := (Node.hasContent_iff node).2 hShown
  simp [hNodes node hMem] at hContent

theorem allLeafElements_renderColumns {entries : List Column}
    (ih : ∀ column ∈ entries, ∀ child ∈ column.children,
      allLeafElements (render child).toList = child.shown.map renderLeaf) :
    allLeafElements (renderColumns entries) = (entries.flatMap Column.shown).map renderLeaf := by
  induction entries with
  | nil => rfl
  | cons column rest ihRest =>
    obtain ⟨style, children⟩ := column
    obtain ⟨hFirst, hRest⟩ := List.forall_mem_cons.1 ih
    have hShown : (Column.mk style children).shown = children.flatMap Node.shown := rfl
    have hChildren : allLeafElements (renderAll children) =
        (children.flatMap Node.shown).map renderLeaf := allLeafElements_nodes hFirst
    rw [List.flatMap_cons, List.map_append, ← ihRest hRest, hShown]
    by_cases hContent : Node.anyContent children = true
    · rw [renderColumns, if_pos hContent, allLeafElements, leafElements_div, hChildren]
    · rw [renderColumns, if_neg hContent,
        shown_of_not_anyContent (Bool.eq_false_iff.2 hContent)]
      rfl

/-- Around the elements of children a block adds no leaf, and without content there is none. -/
theorem allLeafElements_block {style : Option Layout.Style} {children : List Node}
    (ih : ∀ child ∈ children,
      allLeafElements (render child).toList = child.shown.map renderLeaf) :
    allLeafElements (if Node.anyContent children then
        some (Preview.renderBlock style (renderAll children)) else none).toList =
      (children.flatMap Node.shown).map renderLeaf := by
  by_cases hContent : Node.anyContent children = true
  · rw [if_pos hContent, Option.toList_some, allLeafElements, allLeafElements, List.append_nil,
      Preview.renderBlock, leafElements_div, allLeafElements_nodes ih]
  · rw [if_neg hContent, shown_of_not_anyContent (Bool.eq_false_iff.2 hContent)]
    rfl

/-- Columns without content show nothing. -/
theorem shown_of_not_anyColumn {entries : List Layout.Column}
    (hContent : Layout.Column.anyContent entries = false) :
    entries.flatMap Layout.Column.shown = [] := by
  refine List.flatMap_eq_nil_iff.2 fun column hMem => shown_of_not_anyContent ?_
  rw [← Layout.Column.hasContent_eq]
  exact Layout.Column.anyContent_eq_false_iff.1 hContent column hMem

/-- The leaf elements of a preview are those of the leaves that have content. -/
theorem allLeafElements_render (layout : Node) :
    (∀ node ∈ layout.preorder, node.isUnknown = false) →
      allLeafElements (render layout).toList = layout.shown.map renderLeaf := by
  induction layout using Node.induct with
  | inSection style children ih =>
    intro hKnown
    rw [render, Node.shown_section]
    refine allLeafElements_block fun child hChild => ih child hChild fun node hMem => ?_
    exact hKnown node (Node.mem_preorder_section.2 (.inr ⟨child, hChild, hMem⟩))
  | inContainer style children ih =>
    intro hKnown
    rw [render, Node.shown_container]
    refine allLeafElements_block fun child hChild => ih child hChild fun node hMem => ?_
    exact hKnown node (Node.mem_preorder_container.2 (.inr ⟨child, hChild, hMem⟩))
  | inColumns style entries ih =>
    intro hKnown
    have hColumns := allLeafElements_renderColumns fun column hColumn child hChild =>
      ih column hColumn child hChild fun node hMem =>
        hKnown node (Node.mem_preorder_columns.2 (.inr ⟨column, hColumn, child, hChild, hMem⟩))
    rw [render, Node.shown_columns]
    by_cases hContent : Column.anyContent entries = true
    · rw [if_pos hContent, Option.toList_some, allLeafElements, allLeafElements,
        List.append_nil, leafElements_div, hColumns]
    · rw [if_neg hContent, shown_of_not_anyColumn (Bool.eq_false_iff.2 hContent)]
      rfl
  | atLeaf leaf hLeaf =>
    intro hKnown
    have hKind := hKnown leaf (Node.mem_preorder_self leaf)
    rw [Preview.render_leaf hLeaf, Node.shown_leaf hLeaf, hKind, Bool.false_or]
    by_cases hContent : leaf.hasContent = true
    · rw [if_pos hContent, if_pos hContent, Option.toList_some, allLeafElements, allLeafElements,
        List.append_nil, leafElements_renderLeaf]
      rfl
    · rw [if_neg hContent, if_neg hContent]
      rfl

/-! ## Elements and widgets of a leaf -/

namespace Payload

/-- A style stands behind the other attributes. -/
theorem attribute?_withInline {name value css : String} {attributes : List Attribute}
    (hFound : attribute? name attributes = some value) :
    attribute? name (withInline attributes css) = some value := by
  unfold withInline
  split
  · exact hFound
  · obtain ⟨a, hFind, hValue⟩ := Option.map_eq_some_iff.1 hFound
    rw [attribute?, List.find?_append, hFind]
    exact congrArg some hValue

theorem ofMarkup?_heading {tag : String} (hTag : tag ∈ ["h1", "h2", "h3"])
    (attributes : List Attribute) (content : String) :
    ofMarkup? (.element tag attributes [.text content]) = some (.heading content) := by
  simp only [List.mem_cons, List.not_mem_nil, or_false] at hTag
  rcases hTag with rfl | rfl | rfl <;> rfl

theorem mapM_link? {links : List NavItem} {f : NavItem → Markup}
    (hLink : ∀ item, link? (f item) = some (item.label, item.href)) :
    (links.map f).mapM link? = some (links.map fun item => (item.label, item.href)) := by
  induction links with
  | nil => rfl
  | cons item rest ih => rw [List.map_cons, List.mapM_cons, hLink, ih]; rfl

/-- The element of a leaf has the payload of the leaf. -/
theorem ofMarkup?_renderLeaf {leaf : Node} (hLeaf : leaf.isWrapper = false)
    (hKnown : leaf.isUnknown = false) : ofMarkup? (renderLeaf leaf) = ofNode? leaf := by
  cases leaf with
  | «section» | container | columns => cases hLeaf
  | unknown => cases hKnown
  | heading content level style => exact ofMarkup?_heading (Preview.headingTag_mem level) _ _
  | text content style => rfl
  | image src alt style =>
    have hSrc (css : String) :
        attribute? "src" (withInline [⟨"src", src⟩, ⟨"alt", alt⟩] css) = some src :=
      attribute?_withInline rfl
    have hAlt (css : String) :
        attribute? "alt" (withInline [⟨"src", src⟩, ⟨"alt", alt⟩] css) = some alt :=
      attribute?_withInline rfl
    simp only [renderLeaf, ofMarkup?, hSrc, hAlt]
    rfl
  | button label href style =>
    have hClass (css : String) :
        attribute? "class" (withInline [⟨"class", "button"⟩, ⟨"href", href⟩] css) =
          some "button" := attribute?_withInline rfl
    have hHref (css : String) :
        attribute? "href" (withInline [⟨"class", "button"⟩, ⟨"href", href⟩] css) = some href :=
      attribute?_withInline rfl
    simp only [renderLeaf, ofMarkup?, hClass, link?, hHref]
    rfl
  | input placeholder style =>
    have hType (css : String) :
        attribute? "type" (withInline [⟨"type", "text"⟩, ⟨"placeholder", placeholder⟩] css) =
          some "text" := attribute?_withInline rfl
    have hPlaceholder (css : String) :
        attribute? "placeholder"
          (withInline [⟨"type", "text"⟩, ⟨"placeholder", placeholder⟩] css) =
            some placeholder := attribute?_withInline rfl
    simp only [renderLeaf, ofMarkup?, hType, hPlaceholder]
    rfl
  | nav style items =>
    have hLink (item : NavItem) :
        link? (Preview.renderItem item) = some (item.label, item.href) := by
      have hHref (css : String) :
          attribute? "href" (withInline [⟨"href", item.href⟩] css) = some item.href :=
        attribute?_withInline rfl
      simp only [Preview.renderItem, link?, hHref]
      rfl
    have hLinks : (Preview.renderItems items).mapM link? =
        some ((labelledItems items).map fun item => (item.label, item.href)) := mapM_link? hLink
    simp only [renderLeaf, ofMarkup?, hLinks]
    rfl

/-- The markup in a setting is read as its one element. -/
theorem inline?_eq {name markup : String} {settings : Settings} {tree : Markup}
    (hSetting : text? name settings = some markup) (hRead : readInline markup = some [tree]) :
    inline? name settings = ofMarkup? tree := by
  rw [inline?, hSetting, Option.bind_some, hRead]

/-- An alignment stands in front of the other settings. -/
theorem text?_alignSetting {name : String} (hOther : name ≠ "align")
    (style : Option Layout.Style) (settings : Settings) :
    text? name (Page.alignSetting style ++ settings) = text? name settings := by
  have hEntry (align : String) :
      Json.lookup name (("align", .str align) :: settings) = Json.lookup name settings := by
    rw [Json.lookup, if_neg (Ne.symm hOther)]
  unfold Page.alignSetting text?
  split
  · split
    · rfl
    · exact congrArg (·.bind Json.asText?) (hEntry _)
  · rfl

/-- A paragraph has its text as payload, also when it is empty. -/
theorem ofMarkup?_paragraph (content : String) :
    ofMarkup? (.element "p" [] (Markup.settledAll [.text content])) = some (.text content) := by
  by_cases hEmpty : content = ""
  · subst hEmpty
    rfl
  · simp only [Markup.settledAll, Markup.settled, if_neg hEmpty]
    rfl

/-- The widget of a leaf has the payload of the leaf. -/
theorem ofWidget?_leafWidget (leaf : Node) : (leafWidget leaf).bind ofWidget? = ofNode? leaf := by
  cases leaf with
  | heading content level style =>
    have hTitle := text?_alignSetting (by decide : "title" ≠ "align") style
      [("header_size", .str (Page.headingTag level)), ("title", .str content)]
    simp only [leafWidget, Option.bind_some, ofWidget?, hTitle]
    rfl
  | text content style =>
    have hEditor := text?_alignSetting (by decide : "editor" ≠ "align") style
      [("editor", .str (Page.paragraphMarkup content))]
    have hInline := inline?_eq hEditor (Page.readInline_paragraphMarkup content)
    rw [ofMarkup?_paragraph] at hInline
    simp only [leafWidget, Option.bind_some, ofWidget?, hInline]
    rfl
  | input placeholder style =>
    have hInline : inline? "html" [("html", .str (Page.inputMarkup placeholder))] =
        some (.input placeholder) := inline?_eq rfl (Page.readInline_inputMarkup placeholder)
    simp only [leafWidget, Option.bind_some, ofWidget?, hInline]
    rfl
  | nav style items =>
    have hLinks : ((labelledItems items).map Page.linkTree).mapM link? =
        some ((labelledItems items).map fun item => (item.label, item.href)) :=
      mapM_link? fun _ => rfl
    have hInline : inline? "html" [("html", .str (Page.navMarkup items))] =
        some (.nav ((labelledItems items).map fun item => (item.label, item.href))) := by
      rw [inline?_eq rfl (Page.readInline_navMarkup items)]
      simp only [Page.navTree, ofMarkup?, hLinks]
      rfl
    simp only [leafWidget, Option.bind_some, ofWidget?, hInline]
    rfl
  | _ => rfl

/-! ## Previews and pages -/

/-- What a layout shows are leaves with content, so they are of a known kind. -/
theorem isWrapper_of_mem_shown (layout : Node) :
    ∀ leaf ∈ layout.shown, leaf.isWrapper = false := by
  induction layout using Node.induct with
  | inSection style children ih =>
    intro leaf hMem
    rw [Node.shown_section, List.mem_flatMap] at hMem
    obtain ⟨child, hChild, hLeaf⟩ := hMem
    exact ih child hChild leaf hLeaf
  | inContainer style children ih =>
    intro leaf hMem
    rw [Node.shown_container, List.mem_flatMap] at hMem
    obtain ⟨child, hChild, hLeaf⟩ := hMem
    exact ih child hChild leaf hLeaf
  | inColumns style entries ih =>
    intro leaf hMem
    rw [Node.shown_columns, List.mem_flatMap] at hMem
    obtain ⟨column, hColumn, hMem⟩ := hMem
    obtain ⟨child, hChild, hLeaf⟩ := List.mem_flatMap.1 hMem
    exact ih column hColumn child hChild leaf hLeaf
  | atLeaf leaf hLeaf =>
    intro shown hMem
    rw [Node.shown_leaf hLeaf] at hMem
    split at hMem
    · exact List.mem_singleton.1 hMem ▸ hLeaf
    · cases hMem

theorem isUnknown_of_hasContent {node : Node} (hContent : node.hasContent = true) :
    node.isUnknown = false := by
  cases node with
  | unknown => cases hContent
  | _ => rfl

/-- Every leaf that is shown has a payload. -/
theorem map_ofNode?_shown (layout : Node) :
    layout.shown.map ofNode? = (ofLayout layout).map some := by
  have hSome : ∀ leaf ∈ layout.shown, (ofNode? leaf).isSome = true := by
    intro leaf hMem
    have hLeaf := isWrapper_of_mem_shown layout leaf hMem
    have hKnown := isUnknown_of_hasContent (List.mem_filter.1 hMem).2
    cases leaf with
    | «section» | container | columns => cases hLeaf
    | unknown => cases hKnown
    | _ => rfl
  rw [ofLayout, List.map_filterMap_some_eq_filter_map_isSome]
  exact (List.filter_eq_self.2 (List.forall_mem_map.2 hSome)).symm

/-- A preview and a page of a layout without nodes of unknown kinds show the same: the
leaf elements of the one have the payloads of the widgets of the other, one by one
and in their order. They are the payloads of the leaves that have content, so that
each of these elements and widgets has one. -/
theorem preview_agrees_with_page (layout : Node) (title : String) (d : Dialect)
    (hKnown : ∀ node ∈ layout.preorder, node.isUnknown = false) :
    (allLeafElements (render layout).toList).map ofMarkup? =
        (pageWidgets (exportLayout (some layout) title d).content).map (·.bind ofWidget?) ∧
      (allLeafElements (render layout).toList).map ofMarkup? = (ofLayout layout).map some := by
  have hPreview : (allLeafElements (render layout).toList).map ofMarkup? =
      layout.shown.map ofNode? := by
    rw [allLeafElements_render layout hKnown, List.map_map]
    refine List.map_congr_left fun leaf hMem => ?_
    exact ofMarkup?_renderLeaf (isWrapper_of_mem_shown layout leaf hMem)
      (isUnknown_of_hasContent (List.mem_filter.1 hMem).2)
  have hPage : (pageWidgets (exportLayout (some layout) title d).content).map
      (·.bind ofWidget?) = layout.shown.map ofNode? := by
    show (pageWidgets (Page.content d layout)).map (·.bind ofWidget?) = _
    rw [Page.pageWidgets_content, List.map_map]
    exact List.map_congr_left fun leaf _ => ofWidget?_leafWidget leaf
  exact ⟨hPreview.trans hPage.symm, hPreview.trans (map_ofNode?_shown layout)⟩

/-- A bar whose second link is not labelled beside a text field, above a quotation. -/
def quotedMenu : Node :=
  .section none
    [.columns none
      [.mk none [.nav none [⟨"Q&A", "/?a=1&b=2", none⟩, ⟨"", "/none", none⟩]],
        .mk none [.text " " none],
        .mk none [.container none [.input "\"name\"" none]]],
      .text "1 < 2 'ok'" none]

/-- The payloads of its preview are the strings of the layout, and so are those of its page. -/
theorem preview_agrees_with_page_quotedMenu :
    (allLeafElements (render quotedMenu).toList).map ofMarkup? =
        [some (.nav [("Q&A", "/?a=1&b=2")]), some (.input "\"name\""),
          some (.text "1 < 2 'ok'")] ∧
      (pageWidgets (exportLayout (some quotedMenu) "t" .classicSimple).content).map
          (·.bind ofWidget?) =
        [some (.nav [("Q&A", "/?a=1&b=2")]), some (.input "\"name\""),
          some (.text "1 < 2 'ok'")] := by
  have hAgree := preview_agrees_with_page quotedMenu "t" .classicSimple (by decide)
  have hPayloads : (ofLayout quotedMenu).map some =
      [some (.nav [("Q&A", "/?a=1&b=2")]), some (.input "\"name\""),
        some (.text "1 < 2 'ok'")] := by decide
  exact ⟨hAgree.2.trans hPayloads, hAgree.1.symm.trans (hAgree.2.trans hPayloads)⟩

end Payload

end Pagewright
