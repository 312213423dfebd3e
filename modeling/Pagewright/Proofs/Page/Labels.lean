import Mathlib.Data.List.Flatten
import Mathlib.Data.List.Perm.Subperm
import Pagewright.Page.Export
import Pagewright.Proofs.Page.Allocation
import Pagewright.Proofs.Page.Split

/-!
# Where the ids of a page come from

Ids are handed out by one allocator all through an export: to the elements that
are built, from the outside in, then to the block around a root that is a leaf,
and at last to the sections around the runs of a split. `requests` lists the
paths that are asked for on the way, in order.

No pass copies an element. So the ids of a page are among those that were
handed out, each at one place at most, and they are distinct as these are.

## Main results

* `labelsAll_assignAll`, `draws_normalize`, `draws_splitFrom` — what each pass asks
  for, and which labels it leaves.
* `labels_flatten` — flattening only takes labels away.
* `ids_exportLayout` — the ids of a page are distinct.
-/

namespace Pagewright.Page

open Element

variable {ι : Type} {d : Dialect}

/-! ## Labels, one level at a time -/

theorem labelsAll_eq (es : List (Element ι)) : labelsAll es = es.flatMap labels := by
  induction es with
  | nil => rfl
  | cons e rest ih => rw [labelsAll, ih, List.flatMap_cons]

theorem labels_eq (e : Element ι) : e.labels = e.id :: labelsAll e.elements := by
  cases e
  rfl

theorem labelsAll_append (es others : List (Element ι)) :
    labelsAll (es ++ others) = labelsAll es ++ labelsAll others := by
  rw [labelsAll_eq, labelsAll_eq, labelsAll_eq, List.flatMap_append]

theorem labelsAll_singleton (e : Element ι) : labelsAll [e] = e.labels := by
  rw [labelsAll_eq, List.flatMap_singleton]

/-! ## Handing out ids to what is built -/

mutual

/-- The elements of a tree get the ids of a run over their paths. -/
theorem labels_assign : ∀ (e : Element Path) (issued : Issued),
    ((assign e issued).1.labels, (assign e issued).2) =
      issued.allocateAll (e.labels.map Path.text)
  | ⟨path, _, _, _, _, elements⟩, issued => by
    have hBelow := labelsAll_assignAll elements (issued.allocate path.text).2
    rw [labels, List.map_cons, Issued.allocateAll, ← hBelow]
    rfl

/-- The elements of several trees get the ids of a run over all their paths. -/
theorem labelsAll_assignAll : ∀ (es : List (Element Path)) (issued : Issued),
    (labelsAll (assignAll es issued).1, (assignAll es issued).2) =
      issued.allocateAll ((labelsAll es).map Path.text)
  | [], _ => rfl
  | e :: rest, issued => by
    have hRest := labelsAll_assignAll rest (assign e issued).2
    rw [labelsAll, List.map_append, Issued.allocateAll_append, ← labels_assign e issued]
    simp only [← hRest]
    rfl

end

/-! ## Passes that ask for ids -/

/-- An outcome of a pass that asked for ids: the allocator ran through the requests,
and the elements carry labels from before the pass or ids of this run. -/
structure Draws (issued : Issued) (requests before : List String)
    (outcome : List (Element String) × Issued) : Prop where
  issued_eq : outcome.2 = (issued.allocateAll requests).2
  labels_le : (labelsAll outcome.1).Subperm (before ++ (issued.allocateAll requests).1)

/-- A pass that leaves an element as it is. -/
theorem Draws.refl (issued : Issued) (es : List (Element String)) :
    Draws issued [] (labelsAll es) (es, issued) where
  issued_eq := rfl
  labels_le := (List.sublist_append_left _ _).subperm

/-- Two passes one after the other. -/
theorem Draws.append {issued : Issued} {requests before others beforeOthers : List String}
    {first second : List (Element String) × Issued} (hFirst : Draws issued requests before first)
    (hSecond : Draws first.2 others beforeOthers second) :
    Draws issued (requests ++ others) (before ++ beforeOthers)
      (first.1 ++ second.1, second.2) := by
  obtain ⟨hIssued, hLabels⟩ := hFirst
  obtain ⟨hLast, hOthers⟩ := hSecond
  rw [hIssued] at hLast hOthers
  refine ⟨?_, ?_⟩
  · rw [Issued.allocateAll_append]
    exact hLast
  · rw [Issued.allocateAll_append, labelsAll_append]
    refine (hLabels.append hOthers).trans (List.Perm.subperm ?_)
    rw [List.perm_iff_count]
    intro label
    simp only [List.count_append]
    omega

/-- A pass over what another pass gave. -/
theorem Draws.trans {issued : Issued} {requests before others : List String}
    {first second : List (Element String) × Issued} (hFirst : Draws issued requests before first)
    (hSecond : Draws first.2 others (labelsAll first.1) second) :
    Draws issued (requests ++ others) before second := by
  obtain ⟨hIssued, hLabels⟩ := hFirst
  obtain ⟨hLast, hOthers⟩ := hSecond
  rw [hIssued] at hLast hOthers
  refine ⟨?_, ?_⟩
  · rw [Issued.allocateAll_append]
    exact hLast
  · rw [Issued.allocateAll_append, ← List.append_assoc]
    exact hOthers.trans ((List.subperm_append_right _).2 hLabels)

/-- A new section around elements, with one column. -/
theorem draws_section (issued : Issued) (outer column : String) (es : List (Element String)) :
    Draws issued [outer, column] (labelsAll es)
      ([ofSection (issued.allocate outer).1 false []
          [ofColumn ((issued.allocate outer).2.allocate column).1 [] es]],
        ((issued.allocate outer).2.allocate column).2) := by
  refine ⟨rfl, List.Perm.subperm ?_⟩
  rw [labelsAll_singleton, ofSection, labels_eq, labelsAll_singleton, ofColumn, labels_eq]
  show ([_, _] ++ labelsAll es).Perm (labelsAll es ++ [_, _])
  exact List.perm_append_comm

/-- A new container around elements. -/
theorem draws_container (issued : Issued) (path : String) (es : List (Element String)) :
    Draws issued [path] (labelsAll es)
      ([ofContainer (issued.allocate path).1 false [] es], (issued.allocate path).2) := by
  refine ⟨rfl, List.Perm.subperm ?_⟩
  rw [labelsAll_singleton, ofContainer, labels_eq]
  show ([_] ++ labelsAll es).Perm (labelsAll es ++ [_])
  exact List.perm_append_comm

/-! ### Blocks around leaves -/

/-- The paths of the block around a leaf at the top of a page. -/
def wrapRequests (d : Dialect) (index : Nat) : List String :=
  match d with
  | .container => [(wrapPath d index).text]
  | _ => [(wrapPath d index).text, ((wrapPath d index).under (.column 0)).text]

/-- The paths of the blocks around leaves, from an index on. -/
def normalizeRequests (d : Dialect) : Nat → List (Element ι) → List String
  | _, [] => []
  | index, e :: rest =>
    (if e.kind = d.topLevel then [] else wrapRequests d index) ++
      normalizeRequests d (index + 1) rest

theorem draws_wrapLeaf (index : Nat) (e : Element String) (issued : Issued) :
    Draws issued (wrapRequests d index) (labelsAll [e])
      ([(wrapLeaf d index e issued).1], (wrapLeaf d index e issued).2) := by
  cases d with
  | container => exact draws_container issued _ [e]
  | classic | classicSimple => exact draws_section issued _ _ [e]

/-- The blocks of a page carry the labels of the elements and ids of blocks
around leaves. -/
theorem draws_normalize (es : List (Element String)) :
    ∀ (index : Nat) (issued : Issued),
      Draws issued (normalizeRequests d index es) (labelsAll es)
        (normalize d index es issued) := by
  induction es with
  | nil => exact fun _ issued => .refl issued []
  | cons e rest ih =>
    intro index issued
    rw [← List.singleton_append, labelsAll_append, List.singleton_append, normalize,
      normalizeRequests]
    split
    · exact (Draws.refl issued [e]).append (ih (index + 1) issued)
    · exact (draws_wrapLeaf index e issued).append (ih (index + 1) _)

/-! ### Sections of their own -/

/-- The paths of the section of a block. -/
def Block.requests (index position : Nat) : Block ι → List String
  | .promoted _ => []
  | .run _ => [runPath "section" index position, runPath "column" index position]

/-- The paths of the sections of blocks, the first of which comes at `position`. -/
def sectionRequests (index : Nat) : Nat → List (Block ι) → List String
  | _, [] => []
  | position, block :: rest =>
    block.requests index position ++ sectionRequests index (position + 1) rest

/-- The paths of what stands at the top level for the element at an index. -/
def splitElementRequests (index : Nat) (e : Element ι) : List String :=
  match soleColumn? e with
  | none => []
  | some elements =>
    if (blocks elements).length ≤ 1 then [] else sectionRequests index 0 (blocks elements)

/-- The paths of a split from an index on. -/
def splitRequests : Nat → List (Element ι) → List String
  | _, [] => []
  | index, e :: rest => splitElementRequests index e ++ splitRequests (index + 1) rest

theorem draws_sectionsOf (index : Nat) (bs : List (Block String)) :
    ∀ (position : Nat) (issued : Issued),
      Draws issued (sectionRequests index position bs) (labelsAll (bs.flatMap Block.members))
        (sectionsOf index position bs issued) := by
  induction bs with
  | nil => exact fun _ issued => .refl issued []
  | cons block rest ih =>
    intro position issued
    rw [List.flatMap_cons, labelsAll_append]
    cases block with
    | promoted e =>
      have hLabels : labelsAll [{ e with inner := false }] = labelsAll [e] := by
        rw [labelsAll_singleton, labelsAll_singleton, labels_eq, labels_eq e]
      have hFirst := Draws.refl issued [{ e with inner := false }]
      rw [hLabels] at hFirst
      exact hFirst.append (ih (position + 1) issued)
    | run elements => exact (draws_section issued _ _ elements).append (ih (position + 1) _)

/-- What is split are the elements of a section and of its column. -/
theorem labels_of_soleColumn? {e : Element ι} {elements : List (Element ι)}
    (hColumn : soleColumn? e = some elements) :
    (labelsAll elements).Sublist e.labels := by
  obtain ⟨-, -, -, column, hElements, -, rfl⟩ := soleColumn?_eq_some_iff.1 hColumn
  rw [labels_eq e, hElements, labelsAll_singleton, labels_eq column]
  exact (List.sublist_cons_self _ _).trans (List.sublist_cons_self _ _)

theorem draws_splitElement (index : Nat) (e : Element String) (issued : Issued) :
    Draws issued (splitElementRequests index e) (labelsAll [e])
      (splitElement index e issued) := by
  unfold splitElementRequests splitElement
  cases hColumn : soleColumn? e with
  | none => exact .refl issued [e]
  | some elements =>
    simp only [← length_blocks]
    split
    · exact .refl issued [e]
    · obtain ⟨hIssued, hLabels⟩ := draws_sectionsOf index (blocks elements) 0 issued
      rw [blocks_members] at hLabels
      refine ⟨hIssued, hLabels.trans ?_⟩
      rw [List.subperm_append_right, labelsAll_singleton]
      exact (labels_of_soleColumn? hColumn).subperm

theorem draws_splitFrom (es : List (Element String)) :
    ∀ (index : Nat) (issued : Issued),
      Draws issued (splitRequests index es) (labelsAll es) (splitFrom index es issued) := by
  induction es with
  | nil => exact fun _ issued => .refl issued []
  | cons e rest ih =>
    intro index issued
    rw [← List.singleton_append, labelsAll_append, List.singleton_append]
    exact (draws_splitElement index e issued).append (ih (index + 1) _)

/-! ## Flattening -/

theorem labels_unwrap (e : Element ι) : (labelsAll (unwrap e)).Sublist e.labels := by
  unfold unwrap
  split
  · rename_i hRedundant
    obtain ⟨-, -, -, column, hElements, -⟩ := exists_column_of_isRedundant hRedundant
    rw [hElements, List.flatMap_singleton, labels_eq e, hElements, labelsAll_singleton,
      labels_eq column]
    exact (List.sublist_cons_self _ _).trans (List.sublist_cons_self _ _)
  · rw [labelsAll_singleton]

/-- Flattening takes labels away and leaves the others in their order. -/
theorem labels_flattenElement (e : Element ι) : (flattenElement e).labels.Sublist e.labels := by
  induction e using Element.induct with
  | step e ih =>
    have hInside : (labelsAll (e.elements.map flattenElement)).Sublist
        (labelsAll e.elements) := by
      rw [labelsAll_eq, labelsAll_eq, List.flatMap_map]
      exact List.Sublist.flatMap_right e.elements ih
    have hUnwrapped : (labelsAll ((e.elements.map flattenElement).flatMap unwrap)).Sublist
        (labelsAll (e.elements.map flattenElement)) := by
      rw [labelsAll_eq, labelsAll_eq, List.flatMap_assoc]
      refine List.Sublist.flatMap_right _ fun inside _ => ?_
      rw [← labelsAll_eq]
      exact labels_unwrap inside
    rw [labels_eq (flattenElement e), flattenElement_eq, labels_eq e]
    refine List.Sublist.cons_cons e.id (.trans ?_ hInside)
    show (labelsAll (flattenInside e.kind e.elements)).Sublist _
    unfold flattenInside
    split
    · exact hUnwrapped
    · exact List.Sublist.refl _

theorem labels_flatten (content : List (Element ι)) :
    (labelsAll (flatten content)).Sublist (labelsAll content) := by
  rw [flatten, flattenAll_eq_map, labelsAll_eq, labelsAll_eq, List.flatMap_map]
  exact List.Sublist.flatMap_right content fun e _ => labels_flattenElement e

/-! ## A whole export -/

/-- The blocks of a page before its passes, and the ids issued by then. -/
def rootBlocks (d : Dialect) (layout : Layout.Node) : List (Element String) × Issued :=
  let mapped := assignAll (build d rootPath 0 layout).toList {}
  normalize d 0 mapped.1 mapped.2

/-- The paths that the passes of a dialect ask ids for. -/
def passRequests (d : Dialect) (blocks : List (Element ι)) : List String :=
  match d with
  | .classicSimple => splitRequests 0 blocks
  | _ => []

theorem passRequests_of_ne (hWhole : d ≠ .classicSimple) (blocks : List (Element ι)) :
    passRequests d blocks = [] := by
  cases d with
  | classicSimple => exact absurd rfl hWhole
  | classic | container => rfl

/-- The paths that an export asks ids for, in order. -/
def requests (d : Dialect) (layout : Layout.Node) : List String :=
  let tree := (build d rootPath 0 layout).toList
  (labelsAll tree).map Path.text ++ normalizeRequests d 0 tree ++
    passRequests d (rootBlocks d layout).1

theorem draws_assignAll (es : List (Element Path)) (issued : Issued) :
    Draws issued ((labelsAll es).map Path.text) [] (assignAll es issued) := by
  have hRun := labelsAll_assignAll es issued
  refine ⟨congrArg Prod.snd hRun, ?_⟩
  rw [← hRun]
  exact List.Subperm.refl _

/-- Only the kinds of elements tell which are wrapped. -/
theorem normalizeRequests_assignAll (es : List (Element Path)) :
    ∀ (index : Nat) (issued : Issued),
      normalizeRequests d index (assignAll es issued).1 = normalizeRequests d index es := by
  induction es with
  | nil => exact fun _ _ => rfl
  | cons e rest ih =>
    intro index issued
    have hKind : (assign e issued).1.kind = e.kind := by cases e; rfl
    rw [normalizeRequests, ← ih (index + 1) (assign e issued).2, ← hKind]
    rfl

theorem draws_rootBlocks (d : Dialect) (layout : Layout.Node) :
    Draws {} ((labelsAll (build d rootPath 0 layout).toList).map Path.text ++
      normalizeRequests d 0 (build d rootPath 0 layout).toList) [] (rootBlocks d layout) := by
  have hAssigned := draws_assignAll (build d rootPath 0 layout).toList {}
  have hNormalized := draws_normalize (d := d)
    (assignAll (build d rootPath 0 layout).toList {}).1 0
    (assignAll (build d rootPath 0 layout).toList {}).2
  rw [normalizeRequests_assignAll] at hNormalized
  exact hAssigned.trans hNormalized

/-- The ids of a page are among those that were handed out for the requests. -/
theorem labels_content (d : Dialect) (layout : Layout.Node) :
    (labelsAll (content d layout)).Subperm
      (Issued.allocateAll {} (requests d layout)).1 := by
  have hBlocks := draws_rootBlocks d layout
  cases d with
  | classic =>
    have hWhole : Dialect.classic ≠ .classicSimple := by decide
    rw [requests, passRequests_of_ne hWhole, List.append_nil]
    exact (labels_flatten _).subperm.trans hBlocks.labels_le
  | classicSimple =>
    have hSplit := hBlocks.trans (draws_splitFrom (rootBlocks .classicSimple layout).1 0 _)
    exact (labels_flatten _).subperm.trans hSplit.labels_le
  | container =>
    have hWhole : Dialect.container ≠ .classicSimple := by decide
    rw [requests, passRequests_of_ne hWhole, List.append_nil]
    exact hBlocks.labels_le

/-- The ids of all elements of a page are pairwise distinct, and each consists of eight
lower-case hexadecimal digits, as long as every request of the export is served. -/
theorem ids_exportLayout (d : Dialect) (layout : Layout.Node) (title : String)
    (hServes : Issued.Serves {} (requests d layout)) :
    (labelsAll (exportLayout (some layout) title d).content).Nodup ∧
      ∀ id ∈ labelsAll (exportLayout (some layout) title d).content,
        id.toList.length = 8 ∧ ∀ c ∈ id.toList, isHex c = true := by
  have hLabels := labels_content d layout
  have hDistinct := Issued.nodup_allocateAll List.nodup_nil hServes
  constructor
  · obtain ⟨ids, hPerm, hSublist⟩ := hLabels
    exact hPerm.nodup_iff.1 (hDistinct.sublist hSublist)
  · intro id hMem
    obtain ⟨path, rfl⟩ := Issued.exists_makeId_of_mem_allocateAll (hLabels.subset hMem)
    exact ⟨makeId_length path, fun c => isHex_of_mem_makeId⟩

/-- A page of a text and a button in a block of its own. -/
def shopLayout : Layout.Node :=
  .section none [.text "Sale" none, .container none [.button "Buy" "/shop" none]]

theorem ids_exportLayout_shop :
    (labelsAll (exportLayout (some shopLayout) "Shop" .classicSimple).content).Nodup := by
  have hIds : ((requests .classicSimple shopLayout).map makeId).Nodup := by decide +kernel
  have hServes : Issued.Serves {} (requests .classicSimple shopLayout) :=
    Issued.serves_of_nodup hIds fun _ _ => List.not_mem_nil
  exact (ids_exportLayout .classicSimple shopLayout "Shop" hServes).1

end Pagewright.Page
