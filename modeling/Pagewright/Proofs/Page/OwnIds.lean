import Mathlib.Data.Set.Function
import Pagewright.Proofs.Page.Paths

/-!
# Ids of paths alone

An allocator is `Fresh` for paths whose ids are different and not handed out yet:
it serves each of them at the first attempt, in whatever order they come. The paths
of an export are different, so this is so as soon as no two of them have one id.
Then a page is the page labelled with its paths, `ownContent`, with the id of each
path in its place. No allocator takes part in that page, and so neither the order
in which paths are served nor anything else on the page has a part in an id.

## Main results

* `Fresh.allocateAll_eq` — fresh paths get their own ids.
* `assign_of_fresh`, `sectionsOf_of_fresh` — what is built and what is split has the ids
  of its paths.
* `content_of_fresh` — a page with fresh paths is `ownContent` with ids for paths.
* `paths_exportLayout` — the paths of an export are different, and without a collision
  every id is that of the path of its element.
-/

namespace Pagewright.Page

open Element

variable {d : Dialect}

/-! ## Fresh paths -/

/-- An allocator in front of paths with ids of their own that are all free. -/
def Fresh (issued : Issued) (paths : List String) : Prop :=
  (paths.map makeId).Nodup ∧ ∀ path ∈ paths, makeId path ∉ issued.ids

section

variable {issued : Issued} {path : String} {paths others : List String}

theorem Fresh.allocate_eq (hFresh : Fresh issued (path :: paths)) :
    issued.allocate path = (makeId path, ⟨makeId path :: issued.ids⟩) :=
  Issued.allocate_of_free (hFresh.2 path List.mem_cons_self)

/-- Serving a path leaves the others fresh. -/
theorem Fresh.tail (hFresh : Fresh issued (path :: paths)) :
    Fresh (issued.allocate path).2 paths := by
  obtain ⟨hOwn, hNodup⟩ := List.nodup_cons.1 hFresh.1
  rw [hFresh.allocate_eq]
  refine ⟨hNodup, fun other hOther => ?_⟩
  rw [List.mem_cons, not_or]
  constructor
  · intro hSame
    exact hOwn (hSame ▸ List.mem_map_of_mem hOther)
  · exact hFresh.2 other (List.mem_cons_of_mem path hOther)

/-- Fresh paths get their own ids, one after the other. -/
theorem Fresh.allocateAll_eq (hFresh : Fresh issued paths) :
    (issued.allocateAll paths).1 = paths.map makeId := by
  induction paths generalizing issued with
  | nil => rfl
  | cons path rest ih =>
    rw [Issued.allocateAll, List.map_cons, ih hFresh.tail, hFresh.allocate_eq]

theorem Fresh.left (hFresh : Fresh issued (paths ++ others)) : Fresh issued paths := by
  obtain ⟨hNodup, hFree⟩ := hFresh
  rw [List.map_append] at hNodup
  exact ⟨hNodup.of_append_left, fun path hMem => hFree path (List.mem_append_left _ hMem)⟩

/-- Serving the first of some paths leaves the rest of them fresh. -/
theorem Fresh.right (hFresh : Fresh issued (paths ++ others)) :
    Fresh (issued.allocateAll paths).2 others := by
  induction paths generalizing issued with
  | nil => exact hFresh
  | cons path rest ih =>
    rw [Issued.allocateAll]
    exact ih hFresh.tail

/-- Different paths without a collision are fresh when nothing was handed out, as are
some of them in another order. -/
theorem fresh_of_injOn (hNodup : paths.Nodup) (hInjOn : Set.InjOn makeId {path | path ∈ paths})
    (hSome : others.Subperm paths) : Fresh {} others := by
  obtain ⟨order, hPerm, hSublist⟩ := hSome
  have hOthers : others.Nodup := hPerm.nodup_iff.1 (hNodup.sublist hSublist)
  have hMem : ∀ path ∈ others, path ∈ paths := by
    intro path hPath
    exact hSublist.subset (hPerm.mem_iff.2 hPath)
  refine ⟨List.Nodup.map_on ?_ hOthers, fun _ _ => List.not_mem_nil⟩
  intro path hPath other hOther hEq
  exact hInjOn (hMem path hPath) (hMem other hOther) hEq

end

/-! ## Ids for what is built -/

mutual

/-- A tree with fresh paths gets the ids of its paths. -/
theorem assign_of_fresh : ∀ (e : Element Path) (issued : Issued),
    Fresh issued (e.labels.map Path.text) →
      (assign e issued).1 = map makeId (map Path.text e)
  | ⟨path, _, _, _, _, elements⟩, issued, hFresh => by
    rw [labels, List.map_cons] at hFresh
    have hBelow := assignAll_of_fresh elements _ hFresh.tail
    rw [assign, map, map, hBelow, hFresh.allocate_eq]

/-- Trees with fresh paths get the ids of their paths. -/
theorem assignAll_of_fresh : ∀ (es : List (Element Path)) (issued : Issued),
    Fresh issued ((labelsAll es).map Path.text) →
      (assignAll es issued).1 = mapAll makeId (mapAll Path.text es)
  | [], _, _ => rfl
  | e :: rest, issued, hFresh => by
    rw [labelsAll, List.map_append] at hFresh
    have hIssued := congrArg Prod.snd (labels_assign e issued)
    have hFirst := assign_of_fresh e issued hFresh.left
    have hRest := assignAll_of_fresh rest (assign e issued).2 (hIssued ▸ hFresh.right)
    rw [assignAll, mapAll, mapAll, hFirst, hRest]

end

/-! ## Pages labelled with their paths -/

/-- The block around a leaf at the top of a page, labelled with its paths. -/
def Dialect.ownHolder (d : Dialect) (e : Element String) : Element String :=
  match d with
  | .container => ofContainer (wrapPath d 0).text false [] [e]
  | _ =>
    ofSection (wrapPath d 0).text false []
      [ofColumn ((wrapPath d 0).under (.column 0)).text [] [e]]

/-- The block that a page starts from, labelled with its paths. -/
def ownBlock (d : Dialect) (layout : Layout.Node) : Option (Element String) :=
  (build d rootPath 0 layout).map fun e =>
    if e.kind = d.topLevel then map Path.text e else d.ownHolder (map Path.text e)

/-- The sections of blocks, labelled with their paths. -/
def ownSections : Nat → List (Block String) → List (Element String)
  | _, [] => []
  | position, .promoted e :: rest =>
    { e with inner := false } :: ownSections (position + 1) rest
  | position, .run elements :: rest =>
    ofSection (runPath "section" 0 position) false []
        [ofColumn (runPath "column" 0 position) [] elements]
      :: ownSections (position + 1) rest

/-- What stands at the top level for a block after a split, labelled with its paths. -/
def ownSplit (e : Element String) : List (Element String) :=
  match soleColumn? e with
  | none => [e]
  | some elements =>
    if (blocks elements).length ≤ 1 then [e] else ownSections 0 (blocks elements)

/-- What the passes make of a block that is labelled with its paths. -/
def ownPasses (d : Dialect) (block : Element String) : List (Element String) :=
  match d with
  | .classic => flatten [block]
  | .classicSimple => flatten (ownSplit block)
  | .container => [block]

/-- A page labelled with the paths that its ids are made of. -/
def ownContent (d : Dialect) (layout : Layout.Node) : List (Element String) :=
  (ownBlock d layout).toList.flatMap (ownPasses d)

/-! ## Ids for a page -/

theorem map_ofSection {ι κ : Type} (f : ι → κ) (id : ι) (inner : Bool) (settings : Settings)
    (es : List (Element ι)) :
    map f (ofSection id inner settings es) = ofSection (f id) inner settings (es.map (map f)) :=
  map_eq f _

theorem map_ofColumn {ι κ : Type} (f : ι → κ) (id : ι) (settings : Settings)
    (es : List (Element ι)) :
    map f (ofColumn id settings es) = ofColumn (f id) settings (es.map (map f)) :=
  map_eq f _

theorem map_ofContainer {ι κ : Type} (f : ι → κ) (id : ι) (inner : Bool) (settings : Settings)
    (es : List (Element ι)) :
    map f (ofContainer id inner settings es) =
      ofContainer (f id) inner settings (es.map (map f)) :=
  map_eq f _

/-- The sections of blocks with fresh paths get the ids of these paths. -/
theorem sectionsOf_of_fresh (bs : List (Block String)) : ∀ position issued,
    Fresh issued (sectionRequests 0 position (bs.map (Block.map makeId))) →
      (sectionsOf 0 position (bs.map (Block.map makeId)) issued).1 =
        (ownSections position bs).map (map makeId) := by
  induction bs with
  | nil => exact fun _ _ _ => rfl
  | cons block rest ih =>
    intro position issued hFresh
    cases block with
    | promoted e =>
      have hRest := ih (position + 1) issued hFresh
      rw [List.map_cons, Block.map, sectionsOf, hRest, ownSections, List.map_cons,
        map_eq makeId e, map_eq makeId { e with inner := false }]
    | run elements =>
      have hRest := ih (position + 1) _ hFresh.tail.tail
      have hSection := hFresh.allocate_eq
      have hColumn := hFresh.tail.allocate_eq
      rw [List.map_cons, Block.map, sectionsOf, hRest, ownSections, List.map_cons, map_ofSection,
        List.map_singleton, map_ofColumn, hColumn, hSection]

/-- A split of a block with fresh paths. -/
theorem splitElement_of_fresh (e : Element String) (issued : Issued)
    (hFresh : Fresh issued (splitElementRequests 0 (map makeId e))) :
    (splitElement 0 (map makeId e) issued).1 = (ownSplit e).map (map makeId) := by
  unfold splitElementRequests at hFresh
  unfold splitElement ownSplit
  rw [soleColumn?_map] at hFresh ⊢
  revert hFresh
  cases soleColumn? e with
  | none => exact fun _ => rfl
  | some elements =>
    intro hFresh
    have hBlocks : blocks (elements.map (map makeId)) =
        (blocks elements).map (Block.map makeId) := blocksFrom_map makeId elements []
    simp only [Option.map_some, ← length_blocks, hBlocks, List.length_map] at hFresh ⊢
    by_cases hShort : (blocks elements).length ≤ 1
    · rw [if_pos hShort, if_pos hShort]
      rfl
    · rw [if_neg hShort] at hFresh
      rw [if_neg hShort, if_neg hShort]
      exact sectionsOf_of_fresh (blocks elements) 0 issued hFresh

theorem flatten_map_makeId (es : List (Element String)) :
    flatten (es.map (map makeId)) = (flatten es).map (map makeId) := by
  rw [flatten, flatten, flattenAll_eq_map, flattenAll_eq_map, List.map_map, List.map_map]
  exact List.map_congr_left fun e _ => flattenElement_map makeId e

/-- The passes over a block with fresh paths. -/
theorem applyPasses_of_fresh (block : Element String) (issued : Issued)
    (hFresh : Fresh issued (passRequests d [map makeId block])) :
    applyPasses d [map makeId block] issued = (ownPasses d block).map (map makeId) := by
  cases d with
  | container => rfl
  | classic => exact flatten_map_makeId [block]
  | classicSimple =>
    rw [passRequests, splitRequests, splitRequests, List.append_nil] at hFresh
    rw [applyPasses, split, splitFrom, splitFrom, List.append_nil,
      splitElement_of_fresh block issued hFresh, flatten_map_makeId, ownPasses]

/-- The block around a leaf with fresh paths. -/
theorem wrapLeaf_of_fresh (e : Element String) (issued : Issued)
    (hFresh : Fresh issued (wrapRequests d 0)) :
    (wrapLeaf d 0 (map makeId e) issued).1 = map makeId (d.ownHolder e) := by
  cases d with
  | container =>
    have hOuter := hFresh.allocate_eq
    rw [wrapLeaf, Dialect.ownHolder, map_ofContainer, List.map_singleton]
    simp only [hOuter]
  | classic | classicSimple =>
    have hOuter := hFresh.allocate_eq
    have hColumn := hFresh.tail.allocate_eq
    show ofSection (issued.allocate _).1 false []
        [ofColumn ((issued.allocate _).2.allocate _).1 [] [map makeId e]] =
      map makeId (ofSection _ false [] [ofColumn _ [] [e]])
    rw [hColumn, hOuter, map_ofSection, List.map_singleton, map_ofColumn, List.map_singleton]

/-- The block that a page starts from, if its paths are fresh. -/
theorem rootBlocks_of_fresh {layout : Layout.Node}
    (hFresh : Fresh {} ((labelsAll (build d rootPath 0 layout).toList).map Path.text ++
      normalizeRequests d 0 (build d rootPath 0 layout).toList)) :
    (rootBlocks d layout).1 = (ownBlock d layout).toList.map (map makeId) := by
  unfold rootBlocks ownBlock
  cases hBuilt : build d rootPath 0 layout with
  | none => rfl
  | some e =>
    rw [hBuilt, Option.toList_some, labelsAll_singleton] at hFresh
    have hTree := assign_of_fresh e {} hFresh.left
    have hIssued := congrArg Prod.snd (labels_assign e {})
    have hKind : (assign e {}).1.kind = e.kind := by rw [hTree, map_kind, map_kind]
    have hBlock := hFresh.right
    rw [← hIssued, normalizeRequests, normalizeRequests, List.append_nil] at hBlock
    simp only [Option.toList_some, assignAll, normalize, hKind, Option.map_some,
      List.map_singleton]
    by_cases hTop : e.kind = d.topLevel
    · simp only [if_pos hTop, hTree]
    · rw [if_neg hTop] at hBlock
      simp only [if_neg hTop, hTree]
      rw [wrapLeaf_of_fresh _ _ hBlock]

/-- The ids issued by the end of an export. -/
def exportIssued (d : Dialect) (layout : Layout.Node) : Issued :=
  match d with
  | .classicSimple => (split (rootBlocks d layout).1 (rootBlocks d layout).2).2
  | _ => (rootBlocks d layout).2

/-- An export asks for its requests and nothing else, in their order. -/
theorem exportIssued_eq (d : Dialect) (layout : Layout.Node) :
    exportIssued d layout = (Issued.allocateAll {} (requests d layout)).2 := by
  have hBlocks := draws_rootBlocks d layout
  cases d with
  | classicSimple =>
    exact (hBlocks.trans (draws_splitFrom (rootBlocks .classicSimple layout).1 0 _)).issued_eq
  | classic =>
    have hWhole : Dialect.classic ≠ .classicSimple := by decide
    rw [requests, passRequests_of_ne hWhole, List.append_nil]
    exact hBlocks.issued_eq
  | container =>
    have hWhole : Dialect.container ≠ .classicSimple := by decide
    rw [requests, passRequests_of_ne hWhole, List.append_nil]
    exact hBlocks.issued_eq

/-- A page with fresh paths has the ids of its paths. -/
theorem content_of_fresh {layout : Layout.Node} (hFresh : Fresh {} (requests d layout)) :
    content d layout = (ownContent d layout).map (map makeId) := by
  rw [requests] at hFresh
  have hRoot := rootBlocks_of_fresh hFresh.left
  have hPasses := hFresh.right
  rw [← (draws_rootBlocks d layout).issued_eq] at hPasses
  show applyPasses d (rootBlocks d layout).1 (rootBlocks d layout).2 = _
  rw [hRoot] at hPasses ⊢
  rw [ownContent]
  cases hBlock : ownBlock d layout with
  | none => cases d <;> rfl
  | some block =>
    rw [hBlock] at hPasses
    rw [Option.toList_some, List.flatMap_singleton]
    exact applyPasses_of_fresh block _ hPasses

/-! ## Paths of a page -/

/-- The sections of blocks have the paths of what is in the blocks, and those of runs. -/
theorem labels_ownSections (bs : List (Block String)) : ∀ position,
    (labelsAll (ownSections position bs)).Perm
      (labelsAll (bs.flatMap Block.members) ++ sectionRequests 0 position bs) := by
  induction bs with
  | nil => exact fun _ => .refl _
  | cons block rest ih =>
    intro position
    have hRest := ih (position + 1)
    rw [List.perm_iff_count] at hRest ⊢
    intro label
    have hCount := hRest label
    rw [List.flatMap_cons, labelsAll_append, sectionRequests]
    cases block with
    | promoted e =>
      have hOwn : labels { e with inner := false } = e.labels := by rw [labels_eq, labels_eq e]
      rw [ownSections, labelsAll, hOwn, Block.members, labelsAll_singleton, Block.requests]
      simp only [List.count_append, List.nil_append] at hCount ⊢
      omega
    | run elements =>
      have hOwn : labels (ofSection (runPath "section" 0 position) false []
          [ofColumn (runPath "column" 0 position) [] elements]) =
          [runPath "section" 0 position, runPath "column" 0 position] ++ labelsAll elements := by
        rw [ofSection, labels_eq, labelsAll_singleton, ofColumn, labels_eq]
        rfl
      rw [ownSections, labelsAll, hOwn, Block.members, Block.requests]
      simp only [List.count_append] at hCount ⊢
      omega

theorem labels_ownSplit (e : Element String) :
    (labelsAll (ownSplit e)).Subperm (e.labels ++ splitElementRequests 0 e) := by
  unfold ownSplit splitElementRequests
  cases hColumn : soleColumn? e with
  | none =>
    rw [labelsAll_singleton, List.append_nil]
  | some elements =>
    simp only
    by_cases hShort : (blocks elements).length ≤ 1
    · rw [if_pos hShort, if_pos hShort, labelsAll_singleton, List.append_nil]
    · rw [if_neg hShort, if_neg hShort]
      have hSections := (labels_ownSections (blocks elements) 0).subperm
      rw [blocks_members] at hSections
      refine hSections.trans ?_
      rw [List.subperm_append_right]
      exact (labels_of_soleColumn? hColumn).subperm

/-- Labels play no part in what a split asks for. -/
theorem splitElementRequests_map (f : String → String) (e : Element String) :
    splitElementRequests 0 (map f e) = splitElementRequests 0 e := by
  have hSections (bs : List (Block String)) : ∀ position,
      sectionRequests 0 position (bs.map (Block.map f)) = sectionRequests 0 position bs := by
    induction bs with
    | nil => exact fun _ => rfl
    | cons block rest ih =>
      intro position
      rw [List.map_cons, sectionRequests, sectionRequests, ih (position + 1)]
      cases block <;> rfl
  unfold splitElementRequests
  rw [soleColumn?_map]
  cases soleColumn? e with
  | none => rfl
  | some elements =>
    have hBlocks : blocks (elements.map (map f)) = (blocks elements).map (Block.map f) :=
      blocksFrom_map f elements []
    simp only [Option.map_some, hBlocks, List.length_map, hSections]

theorem labels_map {ι κ : Type} (f : ι → κ) (e : Element ι) :
    (map f e).labels = e.labels.map f := by
  induction e using Element.induct with
  | step e ih =>
    rw [labels_eq, labels_eq e, map_eq, List.map_cons, labelsAll_eq, labelsAll_eq,
      List.map_flatMap, List.flatMap_map]
    exact congrArg (f e.id :: ·) (List.flatMap_congr ih)

theorem labels_ownPasses (block : Element String) :
    (labelsAll (ownPasses d block)).Subperm (block.labels ++ passRequests d [block]) := by
  cases d with
  | container =>
    rw [ownPasses, labelsAll_singleton]
    exact (List.sublist_append_left _ _).subperm
  | classic =>
    have hFlat := (labels_flatten [block]).subperm
    rw [labelsAll_singleton] at hFlat
    exact hFlat.trans (List.sublist_append_left _ _).subperm
  | classicSimple =>
    rw [passRequests, splitRequests, splitRequests, List.append_nil]
    exact (labels_flatten (ownSplit block)).subperm.trans (labels_ownSplit block)

theorem labels_ownBlock {layout : Layout.Node} {block : Element String}
    (hBlock : ownBlock d layout = some block) :
    block.labels.Perm ((labelsAll (build d rootPath 0 layout).toList).map Path.text ++
      normalizeRequests d 0 (build d rootPath 0 layout).toList) := by
  obtain ⟨e, hBuilt, rfl⟩ := Option.map_eq_some_iff.1 hBlock
  rw [hBuilt, Option.toList_some, labelsAll_singleton, normalizeRequests, normalizeRequests,
    List.append_nil]
  by_cases hTop : e.kind = d.topLevel
  · rw [if_pos hTop, if_pos hTop, labels_map, List.append_nil]
  · rw [if_neg hTop, if_neg hTop]
    cases d with
    | container =>
      rw [Dialect.ownHolder, ofContainer, labels_eq, labelsAll_singleton, labels_map]
      exact (List.perm_append_singleton _ _).symm
    | classic | classicSimple =>
      show (_ :: labelsAll [_]).Perm _
      rw [labelsAll_singleton, ofColumn, labels_eq, labelsAll_singleton, labels_map]
      exact @List.perm_append_comm _ [_, _] _

/-- The paths of a page are among those that were asked for, each of them once at most. -/
theorem labels_ownContent {layout : Layout.Node} (hFresh : Fresh {} (requests d layout)) :
    (labelsAll (ownContent d layout)).Subperm (requests d layout) := by
  rw [requests] at hFresh ⊢
  have hRoot := rootBlocks_of_fresh hFresh.left
  rw [hRoot, ownContent]
  cases hBlock : ownBlock d layout with
  | none => exact List.nil_subperm
  | some block =>
    have hPasses : passRequests d [map makeId block] = passRequests d [block] := by
      cases d with
      | classicSimple =>
        rw [passRequests, passRequests, splitRequests, splitRequests, splitElementRequests_map]
        rfl
      | classic | container => rfl
    rw [Option.toList_some, List.flatMap_singleton, List.map_singleton, hPasses]
    exact (labels_ownPasses block).trans
      ((List.subperm_append_right _).2 (labels_ownBlock hBlock).subperm)

/-- The paths that an export asks ids for are different, and it asks for nothing else.
If no two of them have one id, every element of the page has the id of its own path,
which is one of them: the page is `ownContent`, in which no allocator takes part, with
ids for paths. In any order, and without some of them, the paths get these ids. -/
theorem paths_exportLayout (layout : Layout.Node) (title : String) (d : Dialect) :
    (requests d layout).Nodup ∧
      exportIssued d layout = (Issued.allocateAll {} (requests d layout)).2 ∧
      (Set.InjOn makeId {path | path ∈ requests d layout} →
        (exportLayout (some layout) title d).content =
            (ownContent d layout).map (map makeId) ∧
          (labelsAll (ownContent d layout)).Subperm (requests d layout) ∧
          ∀ order : List String, order.Subperm (requests d layout) →
            (Issued.allocateAll {} order).1 = order.map makeId) := by
  refine ⟨nodup_requests d layout, exportIssued_eq d layout, fun hInjOn => ?_⟩
  have hFresh : Fresh {} (requests d layout) :=
    fresh_of_injOn (nodup_requests d layout) hInjOn (List.Subperm.refl _)
  refine ⟨content_of_fresh hFresh, labels_ownContent hFresh, fun order hOrder => ?_⟩
  exact (fresh_of_injOn (nodup_requests d layout) hInjOn hOrder).allocateAll_eq

/-- The text of the page comes into a section of its own, with ids of the paths of
that section, and the button keeps the block around it. -/
theorem paths_exportLayout_shop :
    (exportLayout (some shopLayout) "Shop" .classicSimple).content =
        (ownContent .classicSimple shopLayout).map (map makeId) ∧
      labelsAll (ownContent .classicSimple shopLayout) =
        ["section.simple.0.buf.0", "column.simple.0.buf.0", "root.column.0.elements.0",
          "root.column.0.elements.1", "root.column.0.elements.1.column.0",
          "root.column.0.elements.1.column.0.elements.0"] := by
  have hIds : ((requests .classicSimple shopLayout).map makeId).Nodup := by decide +kernel
  have hInjOn : Set.InjOn makeId {path | path ∈ requests .classicSimple shopLayout} :=
    fun _ hPath _ hOther hEq => List.inj_on_of_nodup_map hIds hPath hOther hEq
  refine ⟨((paths_exportLayout shopLayout "Shop" .classicSimple).2.2 hInjOn).1, ?_⟩
  decide +kernel

end Pagewright.Page
