import Pagewright.Layout.Node.Json
import Pagewright.Proofs.Layout.Nodes
import Pagewright.Proofs.Layout.StyleJson

/-!
# Layouts are read as they were written

Writing a layout loses nothing that reading has kept, up to one normalization:
the style of an unknown node, which stood in its object as it was given, is
written in the written form of styles, or left out where it could not be read.
Written once more, the layout that is read back gives the same value.

## Main results

* `Node.normalized` — the layout that is read back.
* `readNode_normalized` — a layout whose unknown nodes are of unknown kinds is
  read back up to normalization.
* `toJson_normalized` — normalization does not change what is written.
-/

namespace Pagewright.Layout

open Json

/-! ## Normalization -/

mutual

/-- The node with the written form of its style in the object of each unknown node. -/
def Node.normalized : Node → Node
  | .section style children => .section style (Node.normalizedAll children)
  | .container style children => .container style (Node.normalizedAll children)
  | .columns style entries => .columns style (Column.normalizedAll entries)
  | .unknown fields style => .unknown (unknownFields fields style) style
  | leaf => leaf

/-- Nodes with the written form of the styles of unknown nodes. -/
def Node.normalizedAll : List Node → List Node
  | [] => []
  | node :: rest => node.normalized :: Node.normalizedAll rest

/-- Columns with the written form of the styles of unknown nodes. -/
def Column.normalizedAll : List Column → List Column
  | [] => []
  | .mk style children :: rest =>
    .mk style (Node.normalizedAll children) :: Column.normalizedAll rest

end

/-- The column with normalized nodes. -/
def Column.normalized (column : Column) : Column :=
  .mk column.style (Node.normalizedAll column.children)

theorem Node.normalizedAll_eq (nodes : List Node) :
    Node.normalizedAll nodes = nodes.map Node.normalized := by
  induction nodes with
  | nil => rfl
  | cons node rest ih => rw [Node.normalizedAll, ih, List.map_cons]

theorem Column.normalizedAll_eq (entries : List Column) :
    Column.normalizedAll entries = entries.map Column.normalized := by
  induction entries with
  | nil => rfl
  | cons column rest ih =>
    cases column
    rw [Column.normalizedAll, ih, List.map_cons]
    rfl

/-! ## Lists of nodes and columns -/

theorem Node.listToJson_eq (nodes : List Node) :
    Node.listToJson nodes = nodes.map Node.toJson := by
  induction nodes with
  | nil => rfl
  | cons node rest ih => rw [Node.listToJson, ih, List.map_cons]

theorem Column.listToJson_eq (entries : List Column) :
    Column.listToJson entries = entries.map Column.toJson := by
  induction entries with
  | nil => rfl
  | cons column rest ih => rw [Column.listToJson, ih, List.map_cons]

theorem readChildrenField_eq (fields : Fields) :
    readChildrenField fields = field fields "children" readNodes [] := by
  induction fields with
  | nil => rw [readChildrenField]; rfl
  | cons pair rest ih =>
    obtain ⟨key, value⟩ := pair
    rw [readChildrenField, ih, field, field, lookup]
    split <;> rfl

theorem readColumnsField_eq (fields : Fields) :
    readColumnsField fields = field fields "columns" readColumns [] := by
  induction fields with
  | nil => rw [readColumnsField]; rfl
  | cons pair rest ih =>
    obtain ⟨key, value⟩ := pair
    rw [readColumnsField, ih, field, field, lookup]
    split <;> rfl

theorem readNodeItems_eq (items : List Json) : readNodeItems items = items.mapM readNode := by
  induction items with
  | nil => rw [readNodeItems]; rfl
  | cons item rest ih => rw [readNodeItems, List.mapM_cons, ih]; rfl

theorem readColumnItems_eq (items : List Json) :
    readColumnItems items = items.mapM readColumn := by
  induction items with
  | nil => rw [readColumnItems]; rfl
  | cons item rest ih => rw [readColumnItems, List.mapM_cons, ih]; rfl

theorem readNodes_arr (items : List Json) : readNodes (.arr items) = items.mapM readNode := by
  rw [readNodes, readNodeItems_eq]

theorem readColumns_arr (items : List Json) :
    readColumns (.arr items) = items.mapM readColumn := by
  rw [readColumns, readColumnItems_eq]

/-! ## Written records -/

/-- The slot of a style. -/
def styleSlot (style : Option Style) : String × Option Json :=
  ("style", style.map Style.toJson)

/-- The slots of a link. -/
def NavItem.slots (item : NavItem) : List (String × Option Json) :=
  [("label", some (.str item.label)), ("href", some (.str item.href)), styleSlot item.style]

/-- The slots of a column. -/
def Column.slots (column : Column) : List (String × Option Json) :=
  [("type", some (.str "container")), styleSlot column.style,
    ("children", some (.arr (column.children.map Node.toJson)))]

/-- The slots of a node; the object of an unknown node is no record. -/
def Node.slots : Node → List (String × Option Json)
  | .section style children =>
    [("type", some (.str "section")), styleSlot style,
      ("children", some (.arr (children.map Node.toJson)))]
  | .container style children =>
    [("type", some (.str "container")), styleSlot style,
      ("children", some (.arr (children.map Node.toJson)))]
  | .columns style entries =>
    [("type", some (.str "columns")), styleSlot style,
      ("columns", some (.arr (entries.map Column.toJson)))]
  | .heading content level style =>
    [("type", some (.str "heading")), ("text", some (.str content)),
      ("level", some (.int level.toNat)), styleSlot style]
  | .text content style =>
    [("type", some (.str "text")), ("text", some (.str content)), styleSlot style]
  | .image src alt style =>
    [("type", some (.str "image")), ("src", some (.str src)), ("alt", some (.str alt)),
      styleSlot style]
  | .button label href style =>
    [("type", some (.str "button")), ("label", some (.str label)),
      ("href", some (.str href)), styleSlot style]
  | .input placeholder style =>
    [("type", some (.str "input")), ("placeholder", some (.str placeholder)),
      styleSlot style]
  | .nav style items =>
    [("type", some (.str "nav")), styleSlot style,
      ("items", some (.arr (items.map NavItem.toJson)))]
  | .unknown _ _ => []

theorem NavItem.toJson_eq (item : NavItem) : item.toJson = .obj (written item.slots) := by
  obtain ⟨label, href, style⟩ := item
  cases style <;> rfl

theorem Column.toJson_eq (column : Column) : column.toJson = .obj (written column.slots) := by
  obtain ⟨style, children⟩ := column
  rw [Column.toJson, Node.listToJson_eq]
  cases style <;> rfl

theorem Node.toJson_eq {node : Node} (hKnown : node.isUnknown = false) :
    node.toJson = .obj (written node.slots) := by
  cases node with
  | «section» style | container style =>
    rw [Node.toJson, Node.listToJson_eq]
    cases style <;> rfl
  | columns style =>
    rw [Node.toJson, Column.listToJson_eq]
    cases style <;> rfl
  | heading _ _ style | text _ style | image _ _ style | button _ _ style | input _ style
  | nav style =>
    rw [Node.toJson]
    cases style <;> rfl
  | unknown => cases hKnown

theorem NavItem.keys_slots (item : NavItem) : (item.slots.map Prod.fst).Nodup := by
  show ["label", "href", "style"].Nodup
  decide

theorem Column.keys_slots (column : Column) : (column.slots.map Prod.fst).Nodup := by
  show ["type", "style", "children"].Nodup
  decide

theorem Node.keys_slots (node : Node) : (node.slots.map Prod.fst).Nodup := by
  cases node with
  | «section» | container =>
    show ["type", "style", "children"].Nodup
    decide
  | columns =>
    show ["type", "style", "columns"].Nodup
    decide
  | heading =>
    show ["type", "text", "level", "style"].Nodup
    decide
  | text =>
    show ["type", "text", "style"].Nodup
    decide
  | image =>
    show ["type", "src", "alt", "style"].Nodup
    decide
  | button =>
    show ["type", "label", "href", "style"].Nodup
    decide
  | input =>
    show ["type", "placeholder", "style"].Nodup
    decide
  | nav =>
    show ["type", "style", "items"].Nodup
    decide
  | unknown => exact List.nodup_nil

section Records

variable {slots : List (String × Option Json)}

/-- The style of a record is read back. -/
theorem readStyleField_written {style : Option Style} (hKeys : (slots.map Prod.fst).Nodup)
    (hSlot : styleSlot style ∈ slots) : readStyleField (written slots) = .ok style :=
  field_of_slot (lookup_written hKeys hSlot) fun s =>
    readOption_of_read (readStyle_toJson .inNode s) fun _ hNull => by cases hNull

/-- A field of a record is read back. -/
theorem field_written {α : Type} {key : String} {value : Json} {read : Reader α} {x : α}
    (hKeys : (slots.map Prod.fst).Nodup) (hSlot : (key, some value) ∈ slots)
    (hRead : read value = .ok x) (absent : α) :
    field (written slots) key read absent = .ok x := by
  rw [field_of_lookup (lookup_written hKeys hSlot), hRead]

end Records

/-- A text of a record is read back. -/
theorem readText_written {slots : List (String × Option Json)} {key text : String}
    (hKeys : (slots.map Prod.fst).Nodup) (hSlot : (key, some (.str text)) ∈ slots)
    (absent : String) : field (written slots) key readText absent = .ok text := by
  have hRead : readText (.str text) = .ok text := rfl
  exact field_written hKeys hSlot hRead absent

theorem readNavItem_toJson (item : NavItem) : readNavItem item.toJson = .ok item := by
  have hKeys := item.keys_slots
  have hStyle : styleSlot item.style ∈ item.slots := by simp [NavItem.slots]
  have hLabel : ("label", some (.str item.label)) ∈ item.slots := by simp [NavItem.slots]
  have hHref : ("href", some (.str item.href)) ∈ item.slots := by simp [NavItem.slots]
  rw [NavItem.toJson_eq]
  unfold readNavItem readRecord
  simp only [readStyleField_written hKeys hStyle, readText_written hKeys hLabel,
    readText_written hKeys hHref]
  rfl

theorem readList_navItems (items : List NavItem) :
    readList readNavItem (.arr (items.map NavItem.toJson)) = .ok items := by
  have hItems : (items.map NavItem.toJson).mapM readNavItem = .ok (items.map id) :=
    mapM_map_eq_ok fun item _ => readNavItem_toJson item
  rw [List.map_id] at hItems
  exact hItems

theorem readLevel_toNat (level : UInt8) : readLevel (.int level.toNat) = .ok level := by
  have hLt : level.toNat < 2 ^ 8 := level.toNat_lt
  unfold readLevel
  rw [readNonNegative_int (Nat.lt_trans hLt (by decide))]
  show Except.ok (UInt8.ofNat (Number.natPart8 (Number.ofInt level.toNat))) = _
  rw [Number.natPart8_ofInt hLt, UInt8.ofNat_toNat]

/-! ## Kinds -/

/-- The kinds of nodes that hold others. -/
def wrapperKinds : List String := ["section", "container", "columns"]

theorem readNode_of_not_wrapper {fields : Fields}
    (hKind : Node.declaredKind fields ∉ wrapperKinds) :
    readNode (.obj fields) = readLeaf (Node.declaredKind fields) fields := by
  unfold Node.declaredKind at hKind ⊢
  rw [readNode]
  generalize (lookup "type" fields).bind asText? = declared at hKind ⊢
  cases declared with
  | none => rfl
  | some kind =>
    simp only [Option.getD_some, wrapperKinds, List.mem_cons, List.not_mem_nil, or_false,
      not_or] at hKind ⊢
    split <;> simp_all

/-- The style of an object of an unknown kind, where it can be read. -/
def liftedStyle (fields : Fields) : Option Style :=
  (lookup "style" fields).bind fun value => (readStyle .alone value).toOption

/-- An object of an unknown kind is kept, and its style is lifted out. -/
theorem readNode_of_unknown {fields : Fields}
    (hKind : Node.declaredKind fields ∉ Node.knownKinds) :
    readNode (.obj fields) = .ok (.unknown fields (liftedStyle fields)) := by
  have hWrapper : Node.declaredKind fields ∉ wrapperKinds := by
    intro hMem
    simp only [wrapperKinds, Node.knownKinds, List.mem_cons] at hMem hKind
    tauto
  rw [readNode_of_not_wrapper hWrapper]
  simp only [Node.knownKinds, List.mem_cons, List.not_mem_nil, or_false, not_or] at hKind
  unfold readLeaf
  split
  case h_7 => rfl
  all_goals simp_all

theorem readNode_of_type {fields : Fields} {kind : String}
    (hType : lookup "type" fields = some (.str kind)) (hKind : kind ∉ wrapperKinds) :
    readNode (.obj fields) = readLeaf kind fields := by
  have hDeclared : Node.declaredKind fields = kind := by
    rw [Node.declaredKind, hType]
    rfl
  rw [← hDeclared] at hKind
  rw [readNode_of_not_wrapper hKind, hDeclared]

/-! ## Reading back -/

/-- Whether every object that is kept as an unknown node is of an unknown kind. -/
def Node.Genuine (node : Node) : Prop :=
  ∀ fields style, Node.unknown fields style ∈ node.preorder →
    Node.declaredKind fields ∉ Node.knownKinds

/-- The style stands in its written form, or not at all. -/
theorem lookup_style_unknownFields (fields : Fields) (style : Option Style) :
    lookup "style" (unknownFields fields style) = style.map fun style => style.toJson.sorted := by
  cases style with
  | none => exact lookup_erase_self "style" fields
  | some style => exact lookup_insert_self "style" _ fields

theorem liftedStyle_unknownFields (fields : Fields) (style : Option Style) :
    liftedStyle (unknownFields fields style) = style := by
  rw [liftedStyle, lookup_style_unknownFields]
  cases style with
  | none => rfl
  | some style =>
    rw [Option.map_some, Option.bind_some, readStyle_sorted]
    rfl

/-- All keys but the style are written as they were. -/
theorem lookup_unknownFields {key : String} (hKey : key ≠ "style") (fields : Fields)
    (style : Option Style) : lookup key (unknownFields fields style) = lookup key fields := by
  cases style with
  | none => exact lookup_erase_ne hKey.symm fields
  | some style => exact lookup_insert_ne hKey.symm _ fields

/-- The written object of an unknown node is read with the same style. -/
theorem readNode_unknown {fields : Fields} (hKind : Node.declaredKind fields ∉ Node.knownKinds)
    (style : Option Style) :
    readNode (.obj (unknownFields fields style)) =
      .ok (.unknown (unknownFields fields style) style) := by
  have hSame : Node.declaredKind (unknownFields fields style) = Node.declaredKind fields := by
    rw [Node.declaredKind, Node.declaredKind, lookup_unknownFields (by decide)]
  rw [readNode_of_unknown (hSame ▸ hKind), liftedStyle_unknownFields]

/-- A leaf of a known kind is read back as it is. -/
theorem readNode_leaf {leaf : Node} (hLeaf : leaf.isWrapper = false)
    (hKnown : leaf.isUnknown = false) : readNode leaf.toJson = .ok leaf := by
  have hKeys := leaf.keys_slots
  have hStyle : ∀ style, styleSlot style ∈ leaf.slots →
      readStyleField (written leaf.slots) = .ok style :=
    fun _ => readStyleField_written hKeys
  have hText : ∀ key text absent, (key, some (.str text)) ∈ leaf.slots →
      field (written leaf.slots) key readText absent = .ok text :=
    fun _ _ absent hSlot => readText_written hKeys hSlot absent
  have hLeafRead : ∀ kind, ("type", some (.str kind)) ∈ leaf.slots → kind ∉ wrapperKinds →
      readNode (.obj (written leaf.slots)) = readLeaf kind (written leaf.slots) :=
    fun _ hSlot => readNode_of_type (lookup_written hKeys hSlot)
  rw [Node.toJson_eq hKnown]
  cases leaf with
  | «section» | container | columns => cases hLeaf
  | unknown => cases hKnown
  | heading content level style =>
    have hSlot : ("level", some (.int level.toNat)) ∈
        (Node.heading content level style).slots := by simp [Node.slots]
    have hLevel := field_written hKeys hSlot (readLevel_toNat level) 2
    rw [hLeafRead "heading" (by simp [Node.slots]) (by decide)]
    simp only [readLeaf, hLevel, hStyle style (by simp [Node.slots]),
      hText "text" content _ (by simp [Node.slots])]
    rfl
  | text content style =>
    rw [hLeafRead "text" (by simp [Node.slots]) (by decide)]
    simp only [readLeaf, hStyle style (by simp [Node.slots]),
      hText "text" content _ (by simp [Node.slots])]
    rfl
  | image src alt style =>
    rw [hLeafRead "image" (by simp [Node.slots]) (by decide)]
    simp only [readLeaf, hStyle style (by simp [Node.slots]),
      hText "src" src _ (by simp [Node.slots]), hText "alt" alt _ (by simp [Node.slots])]
    rfl
  | button label href style =>
    rw [hLeafRead "button" (by simp [Node.slots]) (by decide)]
    simp only [readLeaf, hStyle style (by simp [Node.slots]),
      hText "label" label _ (by simp [Node.slots]),
      hText "href" href _ (by simp [Node.slots])]
    rfl
  | input placeholder style =>
    rw [hLeafRead "input" (by simp [Node.slots]) (by decide)]
    simp only [readLeaf, hStyle style (by simp [Node.slots]),
      hText "placeholder" placeholder _ (by simp [Node.slots])]
    rfl
  | nav style items =>
    have hSlot : ("items", some (.arr (items.map NavItem.toJson))) ∈
        (Node.nav style items).slots := by simp [Node.slots]
    have hItems := field_written hKeys hSlot (readList_navItems items) []
    rw [hLeafRead "nav" (by simp [Node.slots]) (by decide)]
    simp only [readLeaf, hItems, hStyle style (by simp [Node.slots])]
    rfl

/-- Nodes are read back when each of them is. -/
theorem readNodes_toJson {nodes : List Node}
    (hNodes : ∀ node ∈ nodes, readNode node.toJson = .ok node.normalized) :
    readNodes (.arr (nodes.map Node.toJson)) = .ok (Node.normalizedAll nodes) := by
  rw [readNodes_arr, Node.normalizedAll_eq]
  exact mapM_map_eq_ok hNodes

/-- A column is read back when its nodes are. -/
theorem readColumn_toJson {column : Column}
    (hChildren : ∀ child ∈ column.children, readNode child.toJson = .ok child.normalized) :
    readColumn column.toJson = .ok column.normalized := by
  have hKeys := column.keys_slots
  have hStyleSlot : styleSlot column.style ∈ column.slots := by simp [Column.slots]
  have hTypeSlot : ("type", some (.str "container")) ∈ column.slots := by simp [Column.slots]
  have hNodesSlot : ("children", some (.arr (column.children.map Node.toJson))) ∈
      column.slots := by simp [Column.slots]
  have hTag : readColumnTag (.str "container") = .ok () := rfl
  have hNodes := readNodes_toJson hChildren
  rw [Column.toJson_eq, readColumn, readChildrenField_eq]
  simp only [field_written hKeys hNodesSlot hNodes, field_written hKeys hTypeSlot hTag,
    readStyleField_written hKeys hStyleSlot]
  rfl

/-- What a wrapper around nodes is read back as. -/
theorem readNode_wrapper {node : Node} {kind : String} {style : Option Style}
    {children : List Node} {wrap : Option Style → List Node → Node}
    (hSlots : node.slots = [("type", some (.str kind)), styleSlot style,
      ("children", some (.arr (children.map Node.toJson)))])
    (hKnown : node.isUnknown = false)
    (hKind : ∀ fields, lookup "type" fields = some (.str kind) →
      readNode (.obj fields) = do
        let children ← readChildrenField fields
        let style ← readStyleField fields
        .ok (wrap style children))
    (hChildren : ∀ child ∈ children, readNode child.toJson = .ok child.normalized) :
    readNode node.toJson = .ok (wrap style (Node.normalizedAll children)) := by
  have hKeys := node.keys_slots
  have hTypeSlot : ("type", some (.str kind)) ∈ node.slots := by simp [hSlots]
  have hStyleSlot : styleSlot style ∈ node.slots := by simp [hSlots]
  have hNodesSlot : ("children", some (.arr (children.map Node.toJson))) ∈ node.slots := by
    simp [hSlots]
  have hNodes := readNodes_toJson hChildren
  rw [Node.toJson_eq hKnown, hKind _ (lookup_written hKeys hTypeSlot), readChildrenField_eq]
  simp only [field_written hKeys hNodesSlot hNodes, readStyleField_written hKeys hStyleSlot]
  rfl

theorem readNode_section {fields : Fields} (hType : lookup "type" fields = some (.str "section")) :
    readNode (.obj fields) = (do
      let children ← readChildrenField fields
      let style ← readStyleField fields
      .ok (.section style children)) := by
  rw [readNode, hType]
  rfl

theorem readNode_container {fields : Fields}
    (hType : lookup "type" fields = some (.str "container")) :
    readNode (.obj fields) = (do
      let children ← readChildrenField fields
      let style ← readStyleField fields
      .ok (.container style children)) := by
  rw [readNode, hType]
  rfl

theorem readNode_columns {fields : Fields} (hType : lookup "type" fields = some (.str "columns")) :
    readNode (.obj fields) = (do
      let columns ← readColumnsField fields
      let style ← readStyleField fields
      .ok (.columns style columns)) := by
  rw [readNode, hType]
  rfl

theorem Node.Genuine.of_subset {node child : Node} (hGenuine : node.Genuine)
    (hSubset : ∀ x ∈ child.preorder, x ∈ node.preorder) : child.Genuine :=
  fun fields style hMem => hGenuine fields style (hSubset _ hMem)

/-- A layout is read back up to normalization. -/
theorem readNode_normalized (node : Node) :
    node.Genuine → readNode node.toJson = .ok node.normalized := by
  induction node using Node.induct with
  | inSection style children ih =>
    intro hGenuine
    refine readNode_wrapper rfl rfl (fun fields => readNode_section) fun child hChild => ?_
    exact ih child hChild (hGenuine.of_subset fun x hMem =>
      Node.mem_preorder_section.2 (.inr ⟨child, hChild, hMem⟩))
  | inContainer style children ih =>
    intro hGenuine
    refine readNode_wrapper rfl rfl (fun fields => readNode_container) fun child hChild => ?_
    exact ih child hChild (hGenuine.of_subset fun x hMem =>
      Node.mem_preorder_container.2 (.inr ⟨child, hChild, hMem⟩))
  | inColumns style entries ih =>
    intro hGenuine
    have hKeys := (Node.columns style entries).keys_slots
    have hTypeSlot : ("type", some (.str "columns")) ∈ (Node.columns style entries).slots := by
      simp [Node.slots]
    have hStyleSlot : styleSlot style ∈ (Node.columns style entries).slots := by
      simp [Node.slots]
    have hEntriesSlot : ("columns", some (.arr (entries.map Column.toJson))) ∈
        (Node.columns style entries).slots := by simp [Node.slots]
    have hEntries : readColumns (.arr (entries.map Column.toJson)) =
        .ok (entries.map Column.normalized) := by
      rw [readColumns_arr]
      refine mapM_map_eq_ok fun column hColumn =>
        readColumn_toJson fun child hChild => ih column hColumn child hChild ?_
      exact hGenuine.of_subset fun x hMem =>
        Node.mem_preorder_columns.2 (.inr ⟨column, hColumn, child, hChild, hMem⟩)
    rw [Node.toJson_eq rfl, readNode_columns (lookup_written hKeys hTypeSlot),
      readColumnsField_eq]
    simp only [field_written hKeys hEntriesSlot hEntries,
      readStyleField_written hKeys hStyleSlot]
    rw [Node.normalized, Column.normalizedAll_eq]
    rfl
  | atLeaf leaf hLeaf =>
    intro hGenuine
    cases hKnown : leaf.isUnknown with
    | false =>
      have hSame : leaf.normalized = leaf := by
        cases leaf with
        | «section» | container | columns => cases hLeaf
        | unknown => cases hKnown
        | _ => rfl
      rw [hSame]
      exact readNode_leaf hLeaf hKnown
    | true =>
      cases leaf with
      | unknown fields style =>
        rw [Node.toJson, Node.normalized]
        exact readNode_unknown (hGenuine fields style (Node.mem_preorder_self _)) style
      | _ => cases hKnown

/-! ## Writing back -/

theorem unknownFields_unknownFields (fields : Fields) (style : Option Style) :
    unknownFields (unknownFields fields style) style = unknownFields fields style := by
  cases style with
  | none => exact erase_erase "style" fields
  | some style => exact insert_insert "style" _ fields

theorem listToJson_normalizedAll {nodes : List Node}
    (hNodes : ∀ node ∈ nodes, node.normalized.toJson = node.toJson) :
    Node.listToJson (Node.normalizedAll nodes) = Node.listToJson nodes := by
  rw [Node.normalizedAll_eq, Node.listToJson_eq, Node.listToJson_eq, List.map_map]
  exact List.map_congr_left hNodes

theorem columns_normalizedAll {entries : List Column}
    (hEntries : ∀ column ∈ entries, ∀ child ∈ column.children,
      child.normalized.toJson = child.toJson) :
    Column.listToJson (Column.normalizedAll entries) = Column.listToJson entries := by
  rw [Column.normalizedAll_eq, Column.listToJson_eq, Column.listToJson_eq, List.map_map]
  refine List.map_congr_left fun column hColumn => ?_
  obtain ⟨style, children⟩ := column
  show Column.toJson (.mk style (Node.normalizedAll children)) = _
  have hChildren : Node.listToJson (Node.normalizedAll children) = Node.listToJson children :=
    listToJson_normalizedAll (hEntries _ hColumn)
  rw [Column.toJson, Column.toJson, hChildren]

/-- Normalization does not change what is written. -/
theorem toJson_normalized (node : Node) : node.normalized.toJson = node.toJson := by
  induction node using Node.induct with
  | inSection style children ih | inContainer style children ih =>
    rw [Node.normalized, Node.toJson, Node.toJson, listToJson_normalizedAll ih]
  | inColumns style entries ih =>
    rw [Node.normalized, Node.toJson, Node.toJson, columns_normalizedAll ih]
  | atLeaf leaf hLeaf =>
    cases leaf with
    | «section» | container | columns => cases hLeaf
    | unknown fields style =>
      rw [Node.normalized, Node.toJson, Node.toJson, unknownFields_unknownFields]
    | _ => rfl

end Pagewright.Layout
