import Pagewright.Proofs.Layout.NodeJson

/-!
# The round trip of what reads as a layout

An object of an unknown kind is kept at every depth, so a value that reads as a
layout is written with all of it but the style, and what is written is read and
written as it is from then on. The unknown nodes of a layout that was read stand
in the value that it was read from.

## Main results

* `sourced_of_readNode` — an unknown node that was read is an object of the value
  that was read, and of an unknown kind.
* `within_toJson` — the object of an unknown node stands in what is written.
* `readNode_toJson_of_readNode` — the round trip of every value that reads as a
  layout.
-/

namespace Pagewright.Layout

open Json

/-! ## Where unknown nodes come from -/

/-- Whether the unknown nodes are objects of unknown kinds of a value, their styles lifted out. -/
def Node.SourcedIn (node : Node) (source : Json) : Prop :=
  ∀ fields style, Node.unknown fields style ∈ node.preorder →
    Node.declaredKind fields ∉ Node.knownKinds ∧ style = liftedStyle fields ∧
      (Json.obj fields).Within source

section Sources

variable {source : Json} {style : Option Style}

theorem Node.SourcedIn.mono {node : Node} {whole : Json} (hNode : node.SourcedIn source)
    (hInside : source.Within whole) : node.SourcedIn whole := by
  intro fields style hMem
  obtain ⟨hKind, hStyle, hSource⟩ := hNode fields style hMem
  exact ⟨hKind, hStyle, hSource.trans hInside⟩

theorem Node.SourcedIn.genuine {node : Node} (hNode : node.SourcedIn source) : node.Genuine :=
  fun fields style hMem => (hNode fields style hMem).1

/-- A known node has its unknown nodes from the nodes inside it. -/
theorem sourcedIn_of_inside {node : Node} (hKnown : node.isUnknown = false) (inside : List Node)
    (hPreorder : ∀ x ∈ node.preorder, x = node ∨ ∃ child ∈ inside, x ∈ child.preorder)
    (hInside : ∀ child ∈ inside, child.SourcedIn source) : node.SourcedIn source := by
  intro fields style hMem
  obtain hSelf | ⟨child, hChild, hMemChild⟩ := hPreorder _ hMem
  · rw [← hSelf] at hKnown
    cases hKnown
  · exact hInside child hChild fields style hMemChild

theorem sourcedIn_section {children : List Node}
    (hChildren : ∀ child ∈ children, child.SourcedIn source) :
    (Node.section style children).SourcedIn source :=
  sourcedIn_of_inside rfl children (fun _ => Node.mem_preorder_section.1) hChildren

theorem sourcedIn_container {children : List Node}
    (hChildren : ∀ child ∈ children, child.SourcedIn source) :
    (Node.container style children).SourcedIn source :=
  sourcedIn_of_inside rfl children (fun _ => Node.mem_preorder_container.1) hChildren

theorem sourcedIn_columns {entries : List Column}
    (hEntries : ∀ column ∈ entries, ∀ child ∈ column.children, child.SourcedIn source) :
    (Node.columns style entries).SourcedIn source := by
  refine sourcedIn_of_inside rfl (entries.flatMap Column.children) (fun x hMem => ?_) ?_
  · refine (Node.mem_preorder_columns.1 hMem).imp_right ?_
    rintro ⟨column, hColumn, child, hChild, hInside⟩
    exact ⟨child, List.mem_flatMap.2 ⟨column, hColumn, hChild⟩, hInside⟩
  · intro child hMem
    obtain ⟨column, hColumn, hChild⟩ := List.mem_flatMap.1 hMem
    exact hEntries column hColumn child hChild

theorem sourcedIn_leaf {leaf : Node} (hLeaf : leaf.isWrapper = false)
    (hKnown : leaf.isUnknown = false) : leaf.SourcedIn source := by
  refine sourcedIn_of_inside hKnown [] (fun x hMem => .inl ?_) fun _ hMem => nomatch hMem
  rwa [Node.preorder_leaf hLeaf, List.mem_singleton] at hMem

end Sources

/-! ## Successful readings -/

/-- The third place of an array holds nodes or is not there. -/
theorem readThirdItem_eq_ok {items : List Json} {nodes : List Node}
    (hRead : readThirdItem items = .ok nodes) :
    (∃ item ∈ items, readNodes item = .ok nodes) ∨ nodes = [] := by
  unfold readThirdItem at hRead
  split at hRead
  · exact .inl ⟨_, List.mem_cons_of_mem _ (List.mem_cons_of_mem _ List.mem_cons_self), hRead⟩
  · exact .inr (Except.ok.inj hRead).symm

/-- A leaf of a known kind is read as a known leaf. -/
theorem readLeaf_known {kind : String} {fields : Fields} {leaf : Node}
    (hKind : kind ∈ Node.knownKinds) (hWrapper : kind ∉ wrapperKinds)
    (hRead : readLeaf kind fields = .ok leaf) :
    leaf.isWrapper = false ∧ leaf.isUnknown = false := by
  unfold readLeaf at hRead
  split at hRead
  case h_1 | h_3 | h_4 =>
    obtain ⟨_, _, hRead⟩ := bind_eq_ok.1 hRead
    obtain ⟨_, _, hRead⟩ := bind_eq_ok.1 hRead
    obtain ⟨_, _, hRead⟩ := bind_eq_ok.1 hRead
    cases hRead
    exact ⟨rfl, rfl⟩
  case h_2 | h_5 | h_6 =>
    obtain ⟨_, _, hRead⟩ := bind_eq_ok.1 hRead
    obtain ⟨_, _, hRead⟩ := bind_eq_ok.1 hRead
    cases hRead
    exact ⟨rfl, rfl⟩
  case h_7 =>
    simp only [Node.knownKinds, wrapperKinds, List.mem_cons, List.not_mem_nil, or_false] at *
    tauto

/-- A known kind is declared by a text. -/
theorem lookup_type_of_known {fields : Fields}
    (hKind : Node.declaredKind fields ∈ Node.knownKinds) :
    lookup "type" fields = some (.str (Node.declaredKind fields)) := by
  have hNone : "unknown" ∉ Node.knownKinds := by decide
  unfold Node.declaredKind at hKind ⊢
  generalize lookup "type" fields = found at hKind ⊢
  cases found with
  | none => exact absurd hKind hNone
  | some value =>
    cases value with
    | str => rfl
    | _ => exact absurd hKind hNone

/-! ## Reading keeps objects of the value -/

/-- What reading makes of a value, as a node, as nodes, as columns and as a column, has its
unknown nodes from that value. -/
structure Sourced (value : Json) : Prop where
  node : ∀ node, readNode value = .ok node → node.SourcedIn value
  nodes : ∀ nodes, readNodes value = .ok nodes → ∀ node ∈ nodes, node.SourcedIn value
  columns : ∀ entries, readColumns value = .ok entries →
    ∀ column ∈ entries, ∀ child ∈ column.children, child.SourcedIn value
  column : ∀ column, readColumn value = .ok column →
    ∀ child ∈ column.children, child.SourcedIn value

theorem sourced_array {items : List Json} (ih : ∀ item ∈ items, Sourced item) :
    Sourced (.arr items) where
  node node hRead := by
    rw [readNode] at hRead
    · cases hRead
    · intro fields hSame
      cases hSame
  nodes nodes hRead node hMem := by
    rw [readNodes_arr] at hRead
    obtain ⟨item, hItem, hNode⟩ := mem_of_mapM_eq_ok hRead hMem
    exact ((ih item hItem).node node hNode).mono (.item hItem .self)
  columns entries hRead column hMem child hChild := by
    rw [readColumns_arr] at hRead
    obtain ⟨item, hItem, hColumn⟩ := mem_of_mapM_eq_ok hRead hMem
    exact ((ih item hItem).column column hColumn child hChild).mono (.item hItem .self)
  column column hRead child hChild := by
    rw [readColumn] at hRead
    obtain ⟨_, _, hRead⟩ := bind_eq_ok.1 hRead
    obtain ⟨_, _, hRead⟩ := bind_eq_ok.1 hRead
    obtain ⟨children, hChildren, hRead⟩ := bind_eq_ok.1 hRead
    obtain ⟨_, _, hRead⟩ := bind_eq_ok.1 hRead
    cases hRead
    obtain ⟨item, hItem, hNodes⟩ | rfl := readThirdItem_eq_ok hChildren
    · exact ((ih item hItem).nodes children hNodes child hChild).mono (.item hItem .self)
    · cases hChild

section Objects

variable {fields : Fields} (ih : ∀ key value, lookup key fields = some value → Sourced value)

include ih

theorem sourced_children {children : List Node}
    (hRead : readChildrenField fields = .ok children) :
    ∀ child ∈ children, child.SourcedIn (.obj fields) := by
  intro child hChild
  rw [readChildrenField_eq] at hRead
  obtain ⟨value, hValue, hNodes⟩ | rfl := field_eq_ok hRead
  · exact ((ih _ value hValue).nodes children hNodes child hChild).mono (.field hValue .self)
  · cases hChild

theorem sourced_columns {entries : List Column} (hRead : readColumnsField fields = .ok entries) :
    ∀ column ∈ entries, ∀ child ∈ column.children, child.SourcedIn (.obj fields) := by
  intro column hColumn child hChild
  rw [readColumnsField_eq] at hRead
  obtain ⟨value, hValue, hEntries⟩ | rfl := field_eq_ok hRead
  · exact ((ih _ value hValue).columns entries hEntries column hColumn child hChild).mono
      (.field hValue .self)
  · cases hColumn

theorem sourced_node {node : Node} (hRead : readNode (.obj fields) = .ok node) :
    node.SourcedIn (.obj fields) := by
  by_cases hKnown : Node.declaredKind fields ∈ Node.knownKinds
  · have hType := lookup_type_of_known hKnown
    by_cases hWrapper : Node.declaredKind fields ∈ wrapperKinds
    · generalize Node.declaredKind fields = kind at hType hWrapper
      simp only [wrapperKinds, List.mem_cons, List.not_mem_nil, or_false] at hWrapper
      obtain rfl | rfl | rfl := hWrapper
      · rw [readNode_section hType] at hRead
        obtain ⟨children, hChildren, hRead⟩ := bind_eq_ok.1 hRead
        obtain ⟨_, _, hRead⟩ := bind_eq_ok.1 hRead
        cases hRead
        exact sourcedIn_section (sourced_children ih hChildren)
      · rw [readNode_container hType] at hRead
        obtain ⟨children, hChildren, hRead⟩ := bind_eq_ok.1 hRead
        obtain ⟨_, _, hRead⟩ := bind_eq_ok.1 hRead
        cases hRead
        exact sourcedIn_container (sourced_children ih hChildren)
      · rw [readNode_columns hType] at hRead
        obtain ⟨entries, hEntries, hRead⟩ := bind_eq_ok.1 hRead
        obtain ⟨_, _, hRead⟩ := bind_eq_ok.1 hRead
        cases hRead
        exact sourcedIn_columns (sourced_columns ih hEntries)
    · rw [readNode_of_not_wrapper hWrapper] at hRead
      obtain ⟨hLeaf, hKept⟩ := readLeaf_known hKnown hWrapper hRead
      exact sourcedIn_leaf hLeaf hKept
  · rw [readNode_of_unknown hKnown] at hRead
    cases hRead
    intro found style hMem
    rw [Node.preorder_leaf rfl, List.mem_singleton] at hMem
    cases hMem
    exact ⟨hKnown, rfl, .self⟩

theorem sourced_object : Sourced (.obj fields) where
  node _ := sourced_node ih
  nodes nodes hRead := by
    rw [readNodes] at hRead
    · cases hRead
    · intro items hSame
      cases hSame
  columns entries hRead := by
    rw [readColumns] at hRead
    · cases hRead
    · intro items hSame
      cases hSame
  column column hRead child hChild := by
    rw [readColumn] at hRead
    obtain ⟨children, hChildren, hRead⟩ := bind_eq_ok.1 hRead
    obtain ⟨_, _, hRead⟩ := bind_eq_ok.1 hRead
    obtain ⟨_, _, hRead⟩ := bind_eq_ok.1 hRead
    cases hRead
    exact sourced_children ih hChildren child hChild

end Objects

theorem sourced (value : Json) : Sourced value := by
  induction value using Json.induct with
  | inArray items ih => exact sourced_array ih
  | inObject fields ih => exact sourced_object ih
  | atLeaf leaf hLeaf =>
    cases leaf with
    | arr | obj => cases hLeaf
    | _ => constructor <;> intro result hRead <;> cases hRead

/-- An unknown node that was read is an object of the value, and of an unknown kind. -/
theorem sourced_of_readNode {value : Json} {node : Node} (hRead : readNode value = .ok node) :
    node.SourcedIn value :=
  (sourced value).node node hRead

/-! ## What is written of unknown nodes -/

theorem within_of_slot {slots : List (String × Option Json)} {key : String} {x value : Json}
    (hKeys : (slots.map Prod.fst).Nodup) (hSlot : (key, some value) ∈ slots)
    (hInside : x.Within value) : x.Within (.obj (written slots)) :=
  .field (lookup_written hKeys hSlot) hInside

/-- What stands in a written child stands in an array of written nodes. -/
theorem within_nodes {x : Json} {children : List Node} {child : Node} (hChild : child ∈ children)
    (hInside : x.Within child.toJson) : x.Within (.arr (children.map Node.toJson)) :=
  .item (List.mem_map_of_mem hChild) hInside

/-- The object of an unknown node stands in what is written. -/
theorem within_toJson {fields : Fields} {style : Option Style} (node : Node) :
    Node.unknown fields style ∈ node.preorder →
      (Json.obj (unknownFields fields style)).Within node.toJson := by
  induction node using Node.induct with
  | inSection own children ih =>
    intro hMem
    obtain hSelf | ⟨child, hChild, hInside⟩ := Node.mem_preorder_section.1 hMem
    · cases hSelf
    · have hSlot : ("children", some (.arr (children.map Node.toJson))) ∈
          (Node.section own children).slots := by simp [Node.slots]
      rw [Node.toJson_eq rfl]
      exact within_of_slot (Node.keys_slots _) hSlot
        (within_nodes hChild (ih child hChild hInside))
  | inContainer own children ih =>
    intro hMem
    obtain hSelf | ⟨child, hChild, hInside⟩ := Node.mem_preorder_container.1 hMem
    · cases hSelf
    · have hSlot : ("children", some (.arr (children.map Node.toJson))) ∈
          (Node.container own children).slots := by simp [Node.slots]
      rw [Node.toJson_eq rfl]
      exact within_of_slot (Node.keys_slots _) hSlot
        (within_nodes hChild (ih child hChild hInside))
  | inColumns own entries ih =>
    intro hMem
    obtain hSelf | ⟨column, hColumn, child, hChild, hInside⟩ :=
      Node.mem_preorder_columns.1 hMem
    · cases hSelf
    · have hSlot : ("columns", some (.arr (entries.map Column.toJson))) ∈
          (Node.columns own entries).slots := by simp [Node.slots]
      have hNodesSlot : ("children", some (.arr (column.children.map Node.toJson))) ∈
          column.slots := by simp [Column.slots]
      rw [Node.toJson_eq rfl]
      refine within_of_slot (Node.keys_slots _) hSlot (.item (List.mem_map_of_mem hColumn) ?_)
      rw [Column.toJson_eq]
      exact within_of_slot column.keys_slots hNodesSlot
        (within_nodes hChild (ih column hColumn child hChild hInside))
  | atLeaf leaf hLeaf =>
    intro hMem
    rw [Node.preorder_leaf hLeaf, List.mem_singleton] at hMem
    rw [← hMem, Node.toJson]
    exact .self

/-! ## The round trip -/

/-- Whatever reads as a layout is written as something that is read as the same layout, up to
the styles of unknown nodes, and that is written as it is. An unknown node is written with all
keys of the object that it was read from, and with its style only where that could be read. -/
theorem readNode_toJson_of_readNode {value : Json} {node : Node}
    (hRead : readNode value = .ok node) :
    readNode node.toJson = .ok node.normalized ∧
      node.normalized.toJson = node.toJson ∧
      ∀ fields style, Node.unknown fields style ∈ node.preorder →
        (Json.obj fields).Within value ∧
          style = liftedStyle fields ∧
          (Json.obj (unknownFields fields style)).Within node.toJson ∧
          lookup "style" (unknownFields fields style) =
            style.map (fun style => style.toJson.sorted) ∧
          ∀ key, key ≠ "style" →
            lookup key (unknownFields fields style) = lookup key fields := by
  have hSourced := sourced_of_readNode hRead
  refine ⟨readNode_normalized node hSourced.genuine, toJson_normalized node, ?_⟩
  intro fields style hMem
  obtain ⟨_, hStyle, hInside⟩ := hSourced fields style hMem
  exact ⟨hInside, hStyle, within_toJson node hMem, lookup_style_unknownFields fields style,
    fun key hKey => lookup_unknownFields hKey fields style⟩

/-- The fields of a map, a kind of node that this library does not know. -/
def mapFields : Fields :=
  [("query", .str "Alps"),
    ("style", .obj [("gap", .float 8.0), ("justify", .str "CENTER"), ("zoom", .int 3)]),
    ("type", .str "map")]

/-- A section around the map, its style lifted out. -/
def mapSection : Node :=
  .section none [.unknown mapFields (some { gap := some 8.0, justify := some .center })]

theorem readNode_toJson_of_readNode_map :
    readNode (.obj [("children", .arr [.obj mapFields]), ("type", .str "section")]) =
        .ok mapSection ∧
      readNode mapSection.toJson = .ok mapSection.normalized := by
  have hRead : readNode (.obj [("children", .arr [.obj mapFields]), ("type", .str "section")]) =
      .ok mapSection := by rfl
  exact ⟨hRead, (readNode_toJson_of_readNode hRead).1⟩

end Pagewright.Layout
