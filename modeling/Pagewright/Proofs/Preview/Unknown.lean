import Mathlib.Data.List.Basic
import Pagewright.Proofs.Layout.Nodes
import Pagewright.Proofs.Preview.Document

/-!
# Unknown nodes in previews

An unknown node is shown as its JSON text, in the one kind of element that is
preformatted, and as the root it is shown whatever it is. A wrapper or a column
is shown only if it has content, though, and an unknown node is no content:
where nothing else in the list around it has any, it is dropped with the
wrapper. As content counts upwards, the list right around a node decides alone,
however deep the node lies.

## Main results

* `Node.map_node_unknownSites` — the sites are those of all unknown nodes, in document order.
* `Node.hidden_of_not_hasContent` — nothing inside a wrapper without content is shown.
* `preformatted_render` — the preformatted elements of a preview are those of
  the unknown nodes with content around them.
-/

namespace Pagewright.Layout

/-! ## Where unknown nodes stand -/

/-- A node, and the list of nodes that it stands in unless it is the root. -/
structure Site where
  around : Option (List Node)
  node : Node
  deriving BEq, Repr, Inhabited

/-- Whether the list that a node stands in has content; the root stands in none. -/
def Site.isShown (site : Site) : Bool := site.around.all Node.anyContent

mutual

/-- The unknown nodes of a layout and where they stand, in document order. -/
def Node.unknownSites : Option (List Node) → Node → List Site
  | _, .section _ children | _, .container _ children =>
    Node.unknownSitesOfAll (some children) children
  | _, .columns _ entries => Column.unknownSitesOfAll entries
  | around, .unknown fields style => [⟨around, .unknown fields style⟩]
  | _, _ => []

/-- The unknown nodes of several layouts that stand in one list. -/
def Node.unknownSitesOfAll : Option (List Node) → List Node → List Site
  | _, [] => []
  | around, node :: rest => node.unknownSites around ++ Node.unknownSitesOfAll around rest

/-- The unknown nodes inside several columns. -/
def Column.unknownSitesOfAll : List Column → List Site
  | [] => []
  | .mk _ children :: rest =>
    Node.unknownSitesOfAll (some children) children ++ Column.unknownSitesOfAll rest

end

theorem Node.unknownSitesOfAll_eq (around : Option (List Node)) (nodes : List Node) :
    Node.unknownSitesOfAll around nodes = nodes.flatMap (Node.unknownSites around) := by
  induction nodes with
  | nil => rfl
  | cons node rest ih => rw [Node.unknownSitesOfAll, ih, List.flatMap_cons]

theorem Column.unknownSitesOfAll_eq (entries : List Column) :
    Column.unknownSitesOfAll entries = entries.flatMap fun column =>
      Node.unknownSitesOfAll (some column.children) column.children := by
  induction entries with
  | nil => rfl
  | cons column rest ih =>
    obtain ⟨style, children⟩ := column
    rw [Column.unknownSitesOfAll, ih, List.flatMap_cons]
    rfl

namespace Node

theorem unknownSites_leaf {leaf : Node} (hLeaf : leaf.isWrapper = false)
    (around : Option (List Node)) :
    leaf.unknownSites around = if leaf.isUnknown then [⟨around, leaf⟩] else [] := by
  cases leaf with
  | «section» | container | columns => cases hLeaf
  | heading | text | image | button | input | nav | unknown => rfl

/-- The sites are those of all unknown nodes, in document order. -/
theorem map_node_unknownSites (node : Node) (around : Option (List Node)) :
    (node.unknownSites around).map Site.node = node.preorder.filter Node.isUnknown := by
  -- A list of nodes holds what its members hold, in whatever list they are taken to stand.
  have hNodes : ∀ (nodes : List Node) (around : Option (List Node)),
      (∀ node ∈ nodes, ∀ around, (node.unknownSites around).map Site.node =
        node.preorder.filter Node.isUnknown) →
      (unknownSitesOfAll around nodes).map Site.node =
        (preorderAll nodes).filter Node.isUnknown := by
    intro nodes around ih
    rw [unknownSitesOfAll_eq, preorderAll_eq, List.map_flatMap, List.filter_flatMap]
    exact List.flatMap_congr fun node hMem => ih node hMem around
  induction node using Node.induct generalizing around with
  | inSection style children ih | inContainer style children ih =>
    rw [unknownSites, preorder, List.filter_cons_of_neg Bool.false_ne_true]
    exact hNodes children (some children) ih
  | inColumns style entries ih =>
    rw [unknownSites, preorder, List.filter_cons_of_neg Bool.false_ne_true,
      Column.unknownSitesOfAll_eq, Column.preorderAll_eq, List.map_flatMap, List.filter_flatMap]
    refine List.flatMap_congr fun column hColumn => ?_
    rw [← preorderAll_eq]
    exact hNodes column.children _ (ih column hColumn)
  | atLeaf leaf hLeaf =>
    rw [unknownSites_leaf hLeaf, preorder_leaf hLeaf, List.filter_singleton]
    cases leaf.isUnknown <;> rfl

/-- Nothing inside a node without content is shown, and the node itself is not
if what is around it has no content either. -/
theorem hidden_of_not_hasContent {node : Node} (hNone : node.hasContent = false)
    (around : Option (List Node)) (hAround : around.all Node.anyContent = false) :
    ∀ site ∈ node.unknownSites around, site.isShown = false := by
  induction node using Node.induct generalizing around with
  | inSection style children ih | inContainer style children ih =>
    intro site hMem
    rw [unknownSites, unknownSitesOfAll_eq] at hMem
    obtain ⟨child, hChild, hSite⟩ := List.mem_flatMap.1 hMem
    have hChildren : Node.anyContent children = false := hNone
    exact ih child hChild (anyContent_eq_false_iff.1 hChildren child hChild) (some children)
      hChildren site hSite
  | inColumns style entries ih =>
    intro site hMem
    rw [unknownSites, Column.unknownSitesOfAll_eq] at hMem
    obtain ⟨column, hColumn, hInside⟩ := List.mem_flatMap.1 hMem
    rw [unknownSitesOfAll_eq] at hInside
    obtain ⟨child, hChild, hSite⟩ := List.mem_flatMap.1 hInside
    have hEntries : Column.anyContent entries = false := hNone
    have hChildren : Node.anyContent column.children = false := by
      rw [← Column.hasContent_eq]
      exact Column.anyContent_eq_false_iff.1 hEntries column hColumn
    exact ih column hColumn child hChild (anyContent_eq_false_iff.1 hChildren child hChild)
      (some column.children) hChildren site hSite
  | atLeaf leaf hLeaf =>
    intro site hMem
    rw [unknownSites_leaf hLeaf] at hMem
    split at hMem
    · obtain rfl := List.mem_singleton.1 hMem
      exact hAround
    · cases hMem

end Node

end Pagewright.Layout

namespace Pagewright.Preview

open Layout

/-! ## Preformatted elements -/

mutual

/-- The elements of a tree that have a tag, in document order. -/
def Markup.elements (tag : String) : Markup → List Markup
  | .text _ => []
  | .element own attributes children =>
    if own = tag then .element own attributes children :: Markup.elementsOfAll tag children
    else Markup.elementsOfAll tag children

/-- The elements of several trees that have a tag. -/
def Markup.elementsOfAll (tag : String) : List Markup → List Markup
  | [] => []
  | tree :: rest => tree.elements tag ++ Markup.elementsOfAll tag rest

end

/-- The preformatted elements of trees, in document order. -/
def preformatted (trees : List Markup) : List Markup := Markup.elementsOfAll "pre" trees

theorem preformatted_cons (tree : Markup) (rest : List Markup) :
    preformatted (tree :: rest) = preformatted [tree] ++ preformatted rest := by
  simp only [preformatted, Markup.elementsOfAll, List.append_nil]

theorem preformatted_append (front back : List Markup) :
    preformatted (front ++ back) = preformatted front ++ preformatted back := by
  induction front with
  | nil => rfl
  | cons tree rest ih =>
    rw [List.cons_append, preformatted_cons, ih, ← List.append_assoc, ← preformatted_cons]

/-- What is in an element of another kind is all that is preformatted in it. -/
theorem preformatted_element {tag : String} (hTag : tag ≠ "pre") (attributes : List Attribute)
    (children : List Markup) :
    preformatted [.element tag attributes children] = preformatted children := by
  simp only [preformatted, Markup.elementsOfAll, Markup.elements, if_neg hTag, List.append_nil]

/-- The element of an unknown node. -/
def dump (node : Node) : Markup := .element "pre" [] [.text (Layout.render node)]

/-- Of the leaves only the unknown ones are preformatted. -/
theorem preformatted_renderLeaf {leaf : Node} (hLeaf : leaf.isWrapper = false) :
    preformatted [renderLeaf leaf] = if leaf.isUnknown then [dump leaf] else [] := by
  cases leaf with
  | «section» | container | columns => cases hLeaf
  | heading content level style =>
    have hTags : ∀ tag ∈ ["h1", "h2", "h3"], tag ≠ "pre" := by decide
    exact preformatted_element (hTags _ (headingTag_mem level)) _ _
  | nav style items =>
    have hItems : ∀ links : List NavItem, preformatted (links.map renderItem) = [] := by
      intro links
      induction links with
      | nil => rfl
      | cons link rest ih =>
        rw [List.map_cons, preformatted_cons, ih, List.append_nil]
        exact preformatted_element (by decide) _ _
    exact (preformatted_element (by decide) _ _).trans (hItems _)
  | text | image | button | input => exact preformatted_element (by decide) _ _
  | unknown => rfl

theorem preformatted_renderAll (nodes : List Node) :
    preformatted (renderAll nodes) =
      nodes.flatMap fun node => preformatted (render node).toList := by
  induction nodes with
  | nil => rfl
  | cons node rest ih => rw [renderAll, preformatted_append, ih, List.flatMap_cons]

/-! ## Unknown nodes in a preview -/

/-- The elements of the nodes at the sites that are shown. -/
def dumps (sites : List Site) : List Markup :=
  (sites.filter Site.isShown).map fun site => dump site.node

theorem dumps_flatMap {α : Type} (sites : α → List Site) (xs : List α) :
    dumps (xs.flatMap sites) = xs.flatMap fun x => dumps (sites x) := by
  rw [dumps, List.filter_flatMap, List.map_flatMap]
  rfl

theorem dumps_eq_nil {sites : List Site} (hHidden : ∀ site ∈ sites, site.isShown = false) :
    dumps sites = [] := by
  rw [dumps, List.filter_eq_nil_iff.2 fun site hMem => Bool.eq_false_iff.1 (hHidden site hMem)]
  rfl

/-- What is preformatted in a list of nodes that is shown only if it has content. -/
theorem preformatted_children {children : List Node}
    (ih : ∀ child ∈ children, ∀ around : Option (List Node), around.all Node.anyContent = true →
      preformatted (render child).toList = dumps (child.unknownSites around)) :
    (if Node.anyContent children then preformatted (renderAll children) else []) =
      dumps (Node.unknownSitesOfAll (some children) children) := by
  rw [Node.unknownSitesOfAll_eq, dumps_flatMap, preformatted_renderAll]
  split
  · rename_i hContent
    exact List.flatMap_congr fun child hMem => ih child hMem (some children) hContent
  · rename_i hContent
    have hNone : Node.anyContent children = false := Bool.eq_false_iff.2 hContent
    refine (List.flatMap_eq_nil_iff.2 fun child hMem => dumps_eq_nil ?_).symm
    exact Node.hidden_of_not_hasContent (Node.anyContent_eq_false_iff.1 hNone child hMem)
      (some children) hNone

theorem preformatted_renderColumns (entries : List Column) :
    preformatted (renderColumns entries) = entries.flatMap fun column =>
      if Node.anyContent column.children then preformatted (renderAll column.children)
      else [] := by
  induction entries with
  | nil => rfl
  | cons column rest ih =>
    obtain ⟨style, children⟩ := column
    rw [renderColumns, List.flatMap_cons, ← ih]
    show preformatted (if Node.anyContent children then _ else _) =
      (if Node.anyContent children then preformatted (renderAll children) else []) ++ _
    split
    · rw [preformatted_cons, preformatted_element (by decide)]
    · rfl

/-- A row without content would have no columns in it if it were shown. -/
theorem renderColumns_eq_nil {entries : List Column}
    (hNone : Column.anyContent entries = false) : renderColumns entries = [] := by
  rw [renderColumns_eq, List.map_eq_nil_iff, List.filter_eq_nil_iff]
  exact fun column hMem => Bool.eq_false_iff.1 (Column.anyContent_eq_false_iff.1 hNone column hMem)

/-- In what is shown, the unknown nodes beside content are preformatted, and nothing else. -/
theorem preformatted_of_around (layout : Node) (around : Option (List Node))
    (hAround : around.all Node.anyContent = true) :
    preformatted (render layout).toList = dumps (layout.unknownSites around) := by
  induction layout using Node.induct generalizing around with
  | inSection style children ih | inContainer style children ih =>
    rw [Node.unknownSites, ← preformatted_children ih, render]
    split
    · exact preformatted_element (by decide) _ _
    · rfl
  | inColumns style entries ih =>
    have hEntries : preformatted (renderColumns entries) =
        dumps (Column.unknownSitesOfAll entries) := by
      rw [Column.unknownSitesOfAll_eq, dumps_flatMap, preformatted_renderColumns]
      exact List.flatMap_congr fun column hColumn => preformatted_children (ih column hColumn)
    rw [Node.unknownSites, ← hEntries, render]
    split
    · exact preformatted_element (by decide) _ _
    · rename_i hContent
      rw [renderColumns_eq_nil (Bool.eq_false_iff.2 hContent)]
      rfl
  | atLeaf leaf hLeaf =>
    rw [Node.unknownSites_leaf hLeaf, render_leaf hLeaf]
    cases hUnknown : leaf.isUnknown with
    | true =>
      have hShown : ([⟨around, leaf⟩] : List Site).filter Site.isShown = [⟨around, leaf⟩] :=
        List.filter_cons_of_pos hAround
      rw [if_pos rfl, Bool.true_or, if_pos rfl, dumps, hShown]
      refine (preformatted_renderLeaf hLeaf).trans ?_
      rw [hUnknown]
      rfl
    | false =>
      rw [if_neg Bool.false_ne_true, Bool.false_or]
      split
      · refine (preformatted_renderLeaf hLeaf).trans ?_
        rw [hUnknown]
        rfl
      · rfl

/-- The preformatted elements of a preview are those of the unknown nodes that
are the root or stand in a list with content, in document order and each with
the JSON text of its node; so there is one for each unknown node of the layout
exactly if no list with an unknown node in it is without content. -/
theorem preformatted_render (layout : Node) :
    preformatted (render layout).toList =
        ((layout.unknownSites none).filter Site.isShown).map (fun site => dump site.node) ∧
      (layout.unknownSites none).map Site.node = layout.preorder.filter Node.isUnknown ∧
      ((preformatted (render layout).toList).length =
          (layout.preorder.filter Node.isUnknown).length ↔
        ∀ site ∈ layout.unknownSites none, site.isShown = true) := by
  have hShown := preformatted_of_around layout none rfl
  have hSites := layout.map_node_unknownSites none
  refine ⟨hShown, hSites, ?_⟩
  rw [hShown, ← hSites, dumps, List.length_map, List.length_map]
  exact List.length_filter_eq_length_iff

/-- A section around an unknown node and nothing else is dropped with the node. -/
theorem lonelySpacer_vanishes :
    preformatted (render (.section none [.unknown [("type", .str "spacer")] none])).toList = [] ∧
      (Node.section none [.unknown [("type", .str "spacer")] none]).preorder.filter
          Node.isUnknown =
        [.unknown [("type", .str "spacer")] none] :=
  ⟨rfl, rfl⟩

end Pagewright.Preview
