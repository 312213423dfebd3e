import Mathlib.Data.List.Nodup
import Pagewright.Page.Ids

/-!
# Ids that are handed out in a row

An allocator hands out one id after the other and never takes one back. A path
is *served* when one of its attempts is still free; then its id is new. So the
ids of a run are pairwise distinct as long as every path of it is served.

## Main results

* `firstFree_eq_attemptId` — the first free attempt is one of the attempts, and
  those before it are taken.
* `nodup_allocateAll` — a run that is served hands out no id twice.
* `exists_makeId_of_mem_allocateAll` — every id is that of some path.
* `idsFor_first_free` — each call of a run takes the first attempt that no
  earlier call took, whatever calls come after it.
-/

namespace Pagewright.Page

/-! ## The first free attempt -/

/-- Attempts are tried in their order, and passed over only if their id is taken. -/
theorem firstFree_eq_attemptId (issued : List String) (path : String) (count : Nat) :
    ∀ attempt, ∃ skipped ≤ count,
      firstFree issued path count attempt = attemptId path (attempt + skipped) ∧
        ∀ earlier < skipped, attemptId path (attempt + earlier) ∈ issued := by
  induction count with
  | zero =>
    intro attempt
    exact ⟨0, Nat.le_refl 0, rfl, fun earlier hEarlier => absurd hEarlier (Nat.not_lt_zero _)⟩
  | succ count ih =>
    intro attempt
    rw [firstFree]
    split
    · rename_i hTaken
      obtain ⟨skipped, hCount, hFirst, hEarlier⟩ := ih (attempt + 1)
      refine ⟨skipped + 1, Nat.succ_le_succ hCount, ?_, fun earlier hLt => ?_⟩
      · rw [hFirst, Nat.add_right_comm, Nat.add_assoc]
      · cases earlier with
        | zero => exact List.contains_iff_mem.1 hTaken
        | succ earlier =>
          have hIssued := hEarlier earlier (Nat.lt_of_succ_lt_succ hLt)
          rwa [Nat.add_right_comm, Nat.add_assoc] at hIssued
    · exact ⟨0, Nat.zero_le _, rfl, fun earlier hEarlier => absurd hEarlier (Nat.not_lt_zero _)⟩

/-- If some attempt is free, so is the one that is found. -/
theorem firstFree_not_mem {issued : List String} {path : String} {count attempt : Nat}
    (hFree : ∃ later < count, attemptId path (attempt + later) ∉ issued) :
    firstFree issued path count attempt ∉ issued := by
  induction count generalizing attempt with
  | zero =>
    obtain ⟨later, hLater, -⟩ := hFree
    exact absurd hLater (Nat.not_lt_zero later)
  | succ count ih =>
    rw [firstFree]
    split
    · rename_i hTaken
      obtain ⟨later, hLater, hNotIssued⟩ := hFree
      have hPos : later ≠ 0 := by
        rintro rfl
        exact hNotIssued (List.contains_iff_mem.1 hTaken)
      refine ih ⟨later - 1, by omega, ?_⟩
      rwa [show attempt + 1 + (later - 1) = attempt + later by omega]
    · rename_i hFirst
      exact fun hMem => hFirst (List.contains_iff_mem.2 hMem)

namespace Issued

/-! ## Runs -/

/-- Hands out an id for each path of a list. -/
def allocateAll (issued : Issued) : List String → List String × Issued
  | [] => ([], issued)
  | path :: rest =>
    let first := issued.allocate path
    let others := first.2.allocateAll rest
    (first.1 :: others.1, others.2)

/-- Whether each path of a list has a free attempt when its turn comes. -/
def Serves (issued : Issued) : List String → Prop
  | [] => True
  | path :: rest =>
    (∃ attempt < attemptLimit, attemptId path attempt ∉ issued.ids) ∧
      (issued.allocate path).2.Serves rest

theorem allocateAll_append (issued : Issued) (paths others : List String) :
    issued.allocateAll (paths ++ others) =
      let first := issued.allocateAll paths
      let second := first.2.allocateAll others
      (first.1 ++ second.1, second.2) := by
  induction paths generalizing issued with
  | nil => rfl
  | cons path rest ih =>
    rw [List.cons_append, allocateAll, ih]
    rfl

/-- The ids that are handed out stand in front of the earlier ones, newest first. -/
theorem ids_allocateAll (issued : Issued) (paths : List String) :
    (issued.allocateAll paths).2.ids = (issued.allocateAll paths).1.reverse ++ issued.ids := by
  induction paths generalizing issued with
  | nil => rfl
  | cons path rest ih =>
    have hRest := ih (issued.allocate path).2
    rw [allocateAll, List.reverse_cons, List.append_assoc]
    exact hRest

/-- A path that is served gets an id of its own. -/
theorem allocate_not_mem {issued : Issued} {path : String}
    (hFree : ∃ attempt < attemptLimit, attemptId path attempt ∉ issued.ids) :
    (issued.allocate path).1 ∉ issued.ids := by
  refine firstFree_not_mem ?_
  obtain ⟨attempt, hLimit, hNotIssued⟩ := hFree
  refine ⟨attempt, hLimit, ?_⟩
  rwa [Nat.zero_add]

theorem nodup_ids_allocateAll {issued : Issued} {paths : List String}
    (hIssued : issued.ids.Nodup) (hServes : issued.Serves paths) :
    (issued.allocateAll paths).2.ids.Nodup := by
  induction paths generalizing issued with
  | nil => exact hIssued
  | cons path rest ih =>
    exact ih (List.nodup_cons.2 ⟨allocate_not_mem hServes.1, hIssued⟩) hServes.2

/-- A run that is served hands out no id twice. -/
theorem nodup_allocateAll {issued : Issued} {paths : List String}
    (hIssued : issued.ids.Nodup) (hServes : issued.Serves paths) :
    (issued.allocateAll paths).1.Nodup := by
  have hAll := nodup_ids_allocateAll hIssued hServes
  rw [ids_allocateAll] at hAll
  exact List.nodup_reverse.1 hAll.of_append_left

/-- Every id is that of some spelling of a path. -/
theorem exists_makeId_of_mem_allocateAll {issued : Issued} {paths : List String} {id : String}
    (hMem : id ∈ (issued.allocateAll paths).1) : ∃ path, id = makeId path := by
  induction paths generalizing issued with
  | nil => exact absurd hMem List.not_mem_nil
  | cons path rest ih =>
    rcases List.mem_cons.1 hMem with rfl | hRest
    · obtain ⟨skipped, -, hFirst, -⟩ :=
        firstFree_eq_attemptId issued.ids path attemptLimit 0
      exact ⟨_, hFirst⟩
    · exact ih hRest

theorem length_allocateAll (issued : Issued) (paths : List String) :
    (issued.allocateAll paths).1.length = paths.length := by
  induction paths generalizing issued with
  | nil => rfl
  | cons path rest ih => rw [allocateAll, List.length_cons, List.length_cons, ih]

/-! ## Runs without collisions -/

/-- A path whose own id is free gets that id. -/
theorem allocate_of_free {issued : Issued} {path : String} (hFree : makeId path ∉ issued.ids) :
    issued.allocate path = (makeId path, ⟨makeId path :: issued.ids⟩) := by
  have hFirst : firstFree issued.ids path attemptLimit 0 = makeId path := by
    have hNotTaken : issued.ids.contains (attemptId path 0) = false :=
      Bool.eq_false_iff.2 fun hTaken => hFree (List.contains_iff_mem.1 hTaken)
    rw [show attemptLimit = (attemptLimit - 1) + 1 from rfl, firstFree, hNotTaken]
    rfl
  rw [allocate, hFirst]

/-- Paths with ids of their own are served. -/
theorem serves_of_nodup {issued : Issued} {paths : List String}
    (hIds : (paths.map makeId).Nodup)
    (hFree : ∀ path ∈ paths, makeId path ∉ issued.ids) : issued.Serves paths := by
  induction paths generalizing issued with
  | nil => trivial
  | cons path rest ih =>
    obtain ⟨hOwn, hRest⟩ := List.nodup_cons.1 hIds
    have hPath := hFree path List.mem_cons_self
    refine ⟨⟨0, by decide, hPath⟩, ih hRest fun other hOther => ?_⟩
    rw [allocate_of_free hPath, List.mem_cons, not_or]
    refine ⟨fun hSame => hOwn ?_, hFree other (List.mem_cons_of_mem path hOther)⟩
    exact hSame ▸ List.mem_map_of_mem hOther

/-! ## Whole runs -/

/-- The ids that one allocator hands out for the paths of a list. -/
def idsFor (paths : List String) : List String := (allocateAll {} paths).1

/-- Whether an id is that of the first attempt of a path whose id was not given before. -/
def IsFirstFree (given : List String) (path id : String) : Prop :=
  ∃ attempt, id = attemptId path attempt ∧ id ∉ given ∧
    ∀ earlier < attempt, attemptId path earlier ∈ given

theorem isFirstFree_allocate {issued : Issued} {path : String}
    (hFree : ∃ attempt < attemptLimit, attemptId path attempt ∉ issued.ids) :
    IsFirstFree issued.ids path (issued.allocate path).1 := by
  obtain ⟨attempt, -, hFirst, hEarlier⟩ :=
    firstFree_eq_attemptId issued.ids path attemptLimit 0
  rw [Nat.zero_add] at hFirst
  refine ⟨attempt, hFirst, allocate_not_mem hFree, fun earlier hLt => ?_⟩
  have hTaken := hEarlier earlier hLt
  rwa [Nat.zero_add] at hTaken

/-- What is issued after a run is what the run handed out. -/
theorem mem_issued_iff {paths : List String} {id : String} :
    id ∈ (allocateAll {} paths).2.ids ↔ id ∈ idsFor paths := by
  rw [ids_allocateAll, List.append_nil, List.mem_reverse]
  exact Iff.rfl

/-- There is one first free attempt at most. -/
theorem IsFirstFree.unique {given : List String} {path id other : String}
    (hId : IsFirstFree given path id) (hOther : IsFirstFree given path other) : id = other := by
  obtain ⟨attempt, rfl, hNew, hEarlier⟩ := hId
  obtain ⟨another, rfl, hOtherNew, hOtherEarlier⟩ := hOther
  rcases Nat.lt_trichotomy attempt another with hLt | rfl | hGt
  · exact absurd (hOtherEarlier attempt hLt) hNew
  · rfl
  · exact absurd (hEarlier another hGt) hOtherNew

theorem IsFirstFree.congr {given others : List String} {path id : String}
    (hSame : ∀ other, other ∈ given ↔ other ∈ others) (hFirst : IsFirstFree given path id) :
    IsFirstFree others path id := by
  obtain ⟨attempt, hId, hNew, hEarlier⟩ := hFirst
  refine ⟨attempt, hId, fun hMem => hNew ((hSame id).2 hMem), fun earlier hLt => ?_⟩
  exact (hSame _).1 (hEarlier earlier hLt)

/-- What a run hands out stays as it is when the run goes on. -/
theorem idsFor_append (paths later : List String) :
    idsFor (paths ++ later) =
      idsFor paths ++ ((allocateAll {} paths).2.allocateAll later).1 := by
  rw [idsFor, allocateAll_append]
  rfl

/-- The attempt that a further call takes. -/
theorem idsFor_concat (before : List String) (path : String) (attempt : Nat)
    (hLimit : attempt < attemptLimit) (hNew : attemptId path attempt ∉ idsFor before)
    (hTaken : ∀ earlier < attempt, attemptId path earlier ∈ idsFor before) :
    idsFor (before ++ [path]) = idsFor before ++ [attemptId path attempt] := by
  have hFirst : IsFirstFree (idsFor before) path
      ((allocateAll {} before).2.allocate path).1 :=
    (isFirstFree_allocate ⟨attempt, hLimit, fun hMem => hNew (mem_issued_iff.1 hMem)⟩).congr
      fun _ => mem_issued_iff
  rw [← hFirst.unique ⟨attempt, rfl, hNew, hTaken⟩]
  exact idsFor_append before [path]

/-- The run of an allocator over any paths hands out one id for each, and those of the first
calls are the same whatever calls follow. The id of a call is that of the first of `path`,
`path#1`, `path#2`, … that no earlier call returned, provided that one of the attempts of
the path is free; so if that holds for all calls, no id is returned twice. -/
theorem idsFor_first_free :
    (∀ paths, (idsFor paths).length = paths.length) ∧
    (∀ paths later, idsFor paths <+: idsFor (paths ++ later)) ∧
    (∀ before path after, ∃ id others,
      idsFor (before ++ path :: after) = idsFor before ++ id :: others ∧
        ((∃ attempt < attemptLimit, attemptId path attempt ∉ idsFor before) →
          IsFirstFree (idsFor before) path id)) ∧
    ∀ paths, Serves {} paths → (idsFor paths).Nodup := by
  refine ⟨length_allocateAll {}, fun paths later => ?_, fun before path after => ?_, ?_⟩
  · rw [idsFor_append]
    exact List.prefix_append _ _
  · let reached := (allocateAll {} before).2
    refine ⟨(reached.allocate path).1, ((reached.allocate path).2.allocateAll after).1,
      idsFor_append before (path :: after), ?_⟩
    rintro ⟨attempt, hLimit, hNew⟩
    have hFree : ∃ attempt < attemptLimit, attemptId path attempt ∉ reached.ids :=
      ⟨attempt, hLimit, fun hMem => hNew (mem_issued_iff.1 hMem)⟩
    exact (isFirstFree_allocate hFree).congr fun _ => mem_issued_iff
  · exact fun paths hServes => nodup_allocateAll List.nodup_nil hServes

/-- A path that is met again takes the next attempt, and so does a path that is spelled like
the attempt of another. -/
theorem idsFor_first_free_retries :
    ∃ id others, idsFor ["root", "root", "root#1"] =
        [makeId "root", makeId "root#1"] ++ id :: others ∧
      IsFirstFree [makeId "root", makeId "root#1"] "root#1" id ∧ id = makeId "root#1#1" := by
  have hOnce : idsFor ["root"] = [makeId "root"] :=
    idsFor_concat [] "root" 0 (by decide) List.not_mem_nil (by simp)
  have hTwice : idsFor ["root", "root"] = [makeId "root", makeId "root#1"] := by
    have hNext := idsFor_concat ["root"] "root" 1 (by decide)
    rw [hOnce] at hNext
    exact hNext (by decide +kernel) (by simp [attemptId, attemptPath])
  obtain ⟨id, others, hIds, hFirst⟩ := idsFor_first_free.2.2.1 ["root", "root"] "root#1" []
  rw [hTwice] at hIds hFirst
  have hNew : attemptId "root#1" 1 ∉ [makeId "root", makeId "root#1"] := by decide +kernel
  have hId := hFirst ⟨1, by decide, hNew⟩
  refine ⟨id, others, hIds, hId, hId.unique ⟨1, rfl, hNew, fun earlier hLt => ?_⟩⟩
  rw [Nat.lt_one_iff.1 hLt]
  exact List.mem_cons_of_mem _ List.mem_cons_self

end Issued

end Pagewright.Page
