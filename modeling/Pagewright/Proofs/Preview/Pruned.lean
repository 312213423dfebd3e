import Pagewright.Proofs.Layout.Pruned
import Pagewright.Proofs.Preview.Document

/-!
# Previews of pruned layouts

A node of a known kind is shown exactly if it has content, and a node of an
unknown kind always. So a layout may be pruned of the nodes that are not shown,
of the columns without content and of the links without a label, and its
preview stays the same to the last character. The style of a column does not
depend on the columns beside it; those that are dropped take no part in how
the others grow.

## Main results

* `isSome_render` — which nodes are shown.
* `tidy_pruned` — after pruning everything below the root is shown.
* `render_pruned` — pruning does not change what is shown.
* `document_pruned` — the preview of a pruned layout is that of the layout, and
  its body is empty exactly if the root is known and without content.
-/

namespace Pagewright.Layout

/-! ## What is shown -/

/-- Whether a node is shown: it has content, or its kind is unknown. -/
def Node.isRendered (node : Node) : Bool := node.isUnknown || node.hasContent

theorem Node.isRendered_of_hasContent {node : Node} (hContent : node.hasContent = true) :
    node.isRendered = true := by
  rw [isRendered, hContent, Bool.or_true]

theorem Node.isUnknown_pruned (keep : Node → Bool) (node : Node) :
    (node.pruned keep).isUnknown = node.isUnknown := by
  cases node <;> rfl

/-- Pruning what is not shown does not change what is. -/
theorem Node.isRendered_pruned (node : Node) :
    (node.pruned Node.isRendered).isRendered = node.isRendered := by
  rw [isRendered, isUnknown_pruned, hasContent_pruned_of (fun _ => isRendered_of_hasContent),
    isRendered]

/-- Whether a node holds nothing that would leave no trace: its children are shown, its columns
have content, and its links have labels. -/
def Node.isTidy : Node → Bool
  | .section _ children | .container _ children => children.all Node.isRendered
  | .columns _ entries =>
    entries.all fun column => column.hasContent && column.children.all Node.isRendered
  | .nav _ items => items.all fun item => item.label != ""
  | _ => true

/-! ## After pruning -/

theorem Node.all_isRendered_prunedAll (nodes : List Node) :
    (Node.prunedAll Node.isRendered nodes).all Node.isRendered = true := by
  rw [prunedAll_eq, List.all_eq_true]
  exact fun node hMem => (List.mem_filter.1 hMem).2

/-- What is in a list of nodes after pruning is in one of the pruned nodes. -/
theorem Node.mem_of_mem_prunedAll {keep : Node → Bool} {nodes : List Node} {x : Node}
    (hMem : ∃ child ∈ Node.prunedAll keep nodes, x ∈ child.preorder) :
    ∃ node ∈ nodes, x ∈ (node.pruned keep).preorder := by
  obtain ⟨child, hChild, hInside⟩ := hMem
  rw [prunedAll_eq] at hChild
  obtain ⟨node, hNode, rfl⟩ := List.mem_map.1 (List.mem_filter.1 hChild).1
  exact ⟨node, hNode, hInside⟩

/-- After pruning, every node of a layout is tidy. -/
theorem Node.tidy_pruned (layout : Node) :
    ∀ node ∈ (layout.pruned Node.isRendered).preorder, node.isTidy = true := by
  have inNodes {nodes : List Node}
      (ih : ∀ node ∈ nodes, ∀ x ∈ (node.pruned Node.isRendered).preorder, x.isTidy = true)
      {x : Node} (hMem : ∃ child ∈ Node.prunedAll Node.isRendered nodes, x ∈ child.preorder) :
      x.isTidy = true := by
    obtain ⟨node, hNode, hInside⟩ := mem_of_mem_prunedAll hMem
    exact ih node hNode x hInside
  induction layout using Node.induct with
  | inSection style children ih =>
    intro x hMem
    obtain rfl | hInside := mem_preorder_section.1 hMem
    · exact all_isRendered_prunedAll children
    · exact inNodes ih hInside
  | inContainer style children ih =>
    intro x hMem
    obtain rfl | hInside := mem_preorder_container.1 hMem
    · exact all_isRendered_prunedAll children
    · exact inNodes ih hInside
  | inColumns style entries ih =>
    have hEntries : ∀ column ∈ Column.prunedAll Node.isRendered entries,
        column.hasContent = true ∧ ∃ whole ∈ entries,
          column.children = Node.prunedAll Node.isRendered whole.children := by
      intro column hMem
      rw [Column.prunedAll_eq] at hMem
      obtain ⟨hWhole, hContent⟩ := List.mem_filter.1 hMem
      obtain ⟨whole, hEntry, rfl⟩ := List.mem_map.1 hWhole
      exact ⟨hContent, whole, hEntry, rfl⟩
    intro x hMem
    obtain rfl | ⟨column, hColumn, hInside⟩ := mem_preorder_columns.1 hMem
    · refine List.all_eq_true.2 fun column hColumn => ?_
      obtain ⟨hContent, whole, -, hChildren⟩ := hEntries column hColumn
      rw [hContent, hChildren, all_isRendered_prunedAll, Bool.true_and]
    · obtain ⟨-, whole, hEntry, hChildren⟩ := hEntries column hColumn
      rw [hChildren] at hInside
      exact inNodes (ih whole hEntry) hInside
  | atLeaf leaf hLeaf =>
    intro x hMem
    have hPruned : (leaf.pruned Node.isRendered).isWrapper = false := by
      rw [isWrapper_pruned, hLeaf]
    rw [preorder_leaf hPruned, List.mem_singleton] at hMem
    subst hMem
    cases leaf with
    | «section» | container | columns => cases hLeaf
    | nav style items => exact List.all_eq_true.2 fun item hItem => (List.mem_filter.1 hItem).2
    | heading | text | image | button | input | unknown => rfl

end Pagewright.Layout

namespace Pagewright.Preview

open Layout

/-! ## Shown nodes -/

theorem isSome_render (node : Node) : (render node).isSome = node.isRendered := by
  cases node with
  | «section» style children | container style children =>
    show _ = Node.anyContent children
    rw [render]
    cases Node.anyContent children <;> rfl
  | columns style entries =>
    show _ = Column.anyContent entries
    rw [render]
    cases Column.anyContent entries <;> rfl
  | _ =>
    rw [render_leaf rfl, Node.isRendered]
    split
    · rename_i hShown
      rw [hShown]
      rfl
    · rename_i hHidden
      rw [Bool.eq_false_iff.2 hHidden]
      rfl

/-! ## Pruning -/

/-- What is shown of a list of nodes is shown of it after pruning. -/
theorem renderAll_prunedAll {nodes : List Node}
    (ih : ∀ node ∈ nodes, render (node.pruned Node.isRendered) = render node) :
    renderAll (Node.prunedAll Node.isRendered nodes) = renderAll nodes := by
  have hDropped : (fun node => if node.isRendered = true then render node else none) = render := by
    funext node
    split
    · rfl
    · rename_i hHidden
      rw [← isSome_render, Option.not_isSome_iff_eq_none] at hHidden
      rw [hHidden]
  rw [renderAll_eq, renderAll_eq, Node.prunedAll_eq, List.filterMap_filter, hDropped,
    List.filterMap_map]
  exact List.filterMap_congr ih

theorem renderColumns_prunedAll {entries : List Column}
    (ih : ∀ column ∈ entries, ∀ child ∈ column.children,
      render (child.pruned Node.isRendered) = render child) :
    renderColumns (Column.prunedAll Node.isRendered entries) = renderColumns entries := by
  have hSame : Column.hasContent ∘ Column.pruned Node.isRendered = Column.hasContent :=
    funext (Column.hasContent_pruned_of fun _ => Node.isRendered_of_hasContent)
  rw [renderColumns_eq, renderColumns_eq, Column.prunedAll_eq, List.filter_filter, List.filter_map]
  simp only [Bool.and_self, hSame, List.map_map]
  refine List.map_congr_left fun column hMem => ?_
  have hChildren := renderAll_prunedAll (ih column (List.mem_filter.1 hMem).1)
  exact congrArg (Markup.element "div" _) hChildren

/-- Pruning does not change what is shown. -/
theorem render_pruned (layout : Node) : render (layout.pruned Node.isRendered) = render layout := by
  induction layout using Node.induct with
  | inSection style children ih | inContainer style children ih =>
    have hContent : Node.anyContent (Node.prunedAll Node.isRendered children) =
        Node.anyContent children :=
      Node.hasContent_pruned_of (fun _ => Node.isRendered_of_hasContent) (.section style children)
    rw [Node.pruned, render, render, hContent, renderAll_prunedAll ih]
  | inColumns style entries ih =>
    have hContent : Column.anyContent (Column.prunedAll Node.isRendered entries) =
        Column.anyContent entries :=
      Node.hasContent_pruned_of (fun _ => Node.isRendered_of_hasContent) (.columns style entries)
    rw [Node.pruned, render, render, hContent, renderColumns_prunedAll ih]
  | atLeaf leaf hLeaf =>
    have hPruned : (leaf.pruned Node.isRendered).isWrapper = false := by
      rw [Node.isWrapper_pruned, hLeaf]
    have hShown := Node.isRendered_pruned leaf
    rw [Node.isRendered, Node.isRendered] at hShown
    rw [render_leaf hPruned, render_leaf hLeaf, hShown]
    cases leaf with
    | «section» | container | columns => cases hLeaf
    | nav style items =>
      have hItems : renderItems (items.filter fun item => item.label != "") =
          renderItems items := by
        rw [renderItems, renderItems, List.filter_filter]
        simp only [Bool.and_self]
      rw [Node.pruned, renderLeaf, hItems, renderLeaf]
    | heading | text | image | button | input | unknown => rfl

/-! ## Empty bodies -/

/-- An element is written with a tag at least. -/
theorem write_element_ne_empty (tag : String) (attributes : List Attribute)
    (children : List Markup) : (Markup.element tag attributes children).write ≠ "" := by
  intro hEmpty
  have hChars := congrArg String.toList hEmpty
  rw [Markup.write] at hChars
  split at hChars <;> simp [startTag] at hChars

theorem write_ne_empty_of_mem_render (layout : Node) : ∀ tree ∈ render layout, tree.write ≠ "" := by
  refine render_induct (fun leaf => ?_) (fun _ _ _ _ _ => write_element_ne_empty _ _ _) layout
  cases leaf <;> exact write_element_ne_empty _ _ _

theorem body_eq_empty_iff (layout : Node) : body layout = "" ↔ layout.isRendered = false := by
  rw [← isSome_render, body]
  cases hTree : render layout with
  | none => exact iff_of_true rfl rfl
  | some tree =>
    exact iff_of_false (write_ne_empty_of_mem_render layout tree hTree) Bool.false_ne_true.symm

/-- Pruning leaves nothing below the root that would leave no trace, and the preview stays the
same to the last character. A preview is its body between the fixed head and tail, and the body
is empty exactly if the root is of a known kind and has no content. -/
theorem document_pruned (layout : Node) :
    document (layout.pruned Node.isRendered) = document layout ∧
      (∀ node ∈ (layout.pruned Node.isRendered).preorder, node.isTidy = true) ∧
      document layout = documentHead ++ body layout ++ documentTail ∧
      (body layout = "" ↔ layout.isUnknown = false ∧ layout.hasContent = false) := by
  refine ⟨?_, layout.tidy_pruned, rfl, ?_⟩
  · rw [document, body, render_pruned, document, body]
  · rw [body_eq_empty_iff, Node.isRendered, Bool.or_eq_false_iff]

end Pagewright.Preview
