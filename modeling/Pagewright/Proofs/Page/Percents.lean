import Mathlib.Data.List.Forall2
import Pagewright.Proofs.Page.Shares

/-!
# Percents of a row

Columns with a percent and columns without stand in any order. As long as the
percents leave a point for each free column, the row is taken apart: the free
columns are apportioned what is left, on their own, and the shares are put
together position by position. So whatever happens while points are apportioned,
the rounding of a running sum or the filling of empty shares, happens among the
free columns only.

## Main results

* `keeps_interleave` — fixed shares stand at their places, free ones in the gaps.
* `byPercent_tight`, `byPercent_loose` — how a row with percents is apportioned.
* `columnShares_keeps_percents` — percents are kept, and the free columns are
  apportioned the rest.
-/

namespace Pagewright.Page

namespace Shares

/-! ## Fixed shares and gaps -/

/-- Every fixed share is the share at its place. -/
def Keeps (fixed : List (Option Nat)) (shares : List Nat) : Prop :=
  List.Forall₂ (fun entry share => ∀ points, entry = some points → share = points) fixed shares

/-- The shares at the places where none is fixed. -/
def atGaps (fixed : List (Option Nat)) (shares : List Nat) : List Nat :=
  ((fixed.zip shares).filter fun entry => entry.1.isNone).map Prod.snd

theorem atGaps_cons_some (points share : Nat) (fixed : List (Option Nat)) (shares : List Nat) :
    atGaps (some points :: fixed) (share :: shares) = atGaps fixed shares := by
  rw [atGaps, List.zip_cons_cons, List.filter_cons_of_neg (by simp), atGaps]

theorem atGaps_cons_none (share : Nat) (fixed : List (Option Nat)) (shares : List Nat) :
    atGaps (none :: fixed) (share :: shares) = share :: atGaps fixed shares := by
  rw [atGaps, List.zip_cons_cons, List.filter_cons_of_pos (by simp), List.map_cons, atGaps]

/-- Where free shares are put between fixed ones, the fixed ones stay what they are, and
the free ones are found in the gaps. -/
theorem keeps_interleave {fixed : List (Option Nat)} :
    ∀ {free shares : List Nat}, free.length = fixed.countP Option.isNone →
      interleave fixed free = some shares → Keeps fixed shares ∧ atGaps fixed shares = free := by
  induction fixed with
  | nil =>
    intro free shares hFree hShares
    obtain rfl := List.length_eq_zero_iff.1 hFree
    obtain rfl := Option.some.inj hShares
    exact ⟨.nil, rfl⟩
  | cons entry rest ih =>
    intro free shares hFree hShares
    cases entry with
    | some points =>
      rw [List.countP_cons_of_neg (by simp)] at hFree
      rw [interleave] at hShares
      obtain ⟨others, hOthers, rfl⟩ := Option.map_eq_some_iff.1 hShares
      obtain ⟨hKeeps, hGaps⟩ := ih hFree hOthers
      refine ⟨.cons ?_ hKeeps, ?_⟩
      · intro same hSame
        exact Option.some.inj hSame
      · rw [atGaps_cons_some, hGaps]
    | none =>
      rw [List.countP_cons_of_pos (by simp)] at hFree
      cases free with
      | nil => cases hFree
      | cons share free =>
        rw [interleave] at hShares
        obtain ⟨others, hOthers, rfl⟩ := Option.map_eq_some_iff.1 hShares
        obtain ⟨hKeeps, hGaps⟩ := ih (Nat.succ.inj hFree) hOthers
        refine ⟨.cons ?_ hKeeps, ?_⟩
        · intro points hSome
          cases hSome
        · rw [atGaps_cons_none, hGaps]

/-! ## Tight and loose rows -/

theorem any_isSome_iff {α β : Type} {xs : List α} {f : α → Option β} :
    xs.any (fun x => (f x).isSome) = true ↔ ∃ x ∈ xs, f x ≠ none := by
  simp only [List.any_eq_true, Option.isSome_iff_ne_none]

section Row

variable {α : Type} [Measure α]

/-- Whether percents leave a row no free column, or not a point for each. -/
def isTight (hints : List (SizeHint α)) : Bool :=
  (freeWeights hints).isEmpty || decide (total < fixedPoints hints + (freeWeights hints).length)

/-- The points of the percents as weights, zero for a free column. -/
def percentWeights (hints : List (SizeHint α)) : List α :=
  (hints.map fixedShare).map fun share => Measure.ofNat (share.getD 0)

/-- What free columns are apportioned by: their grow weights, or equal weights if
these come to nothing. -/
def restWeights (hints : List (SizeHint α)) : List α :=
  if Measure.isPositive (sum (freeWeights hints)) then freeWeights hints
  else (freeWeights hints).map fun _ => Measure.ofNat 1

theorem length_restWeights (hints : List (SizeHint α)) :
    (restWeights hints).length = (freeWeights hints).length := by
  unfold restWeights
  split
  · rfl
  · exact List.length_map _

theorem isTight_eq_false_iff {hints : List (SizeHint α)} :
    isTight hints = false ↔
      freeWeights hints ≠ [] ∧ fixedPoints hints + (freeWeights hints).length ≤ total := by
  simp [isTight]

theorem byPercent_tight {hints : List (SizeHint α)} (hTight : isTight hints = true) :
    byPercent hints = apportion total (percentWeights hints) :=
  if_pos hTight

theorem byPercent_loose {hints : List (SizeHint α)} (hLoose : isTight hints = false) :
    byPercent hints = (apportion (total - fixedPoints hints) (restWeights hints)).bind
      (interleave (hints.map fixedShare)) :=
  if_neg (Bool.eq_false_iff.1 hLoose)

/-- Percents decide wherever there is one. -/
theorem columnShares_of_percent {hints : List (SizeHint α)}
    (hPercent : ∃ hint ∈ hints, hint.widthPercent ≠ none) :
    columnShares hints = byPercent hints := by
  have hAny : hints.any (·.widthPercent.isSome) = true := any_isSome_iff.2 hPercent
  obtain ⟨hint, hMem, -⟩ := hPercent
  have hSome : hints.isEmpty = false := List.isEmpty_eq_false_iff.2 (List.ne_nil_of_mem hMem)
  rw [columnShares, hSome, hAny]
  rfl

/-- The shares of the free columns of a loose row are complete: one for each gap, and
all that the fixed ones leave. -/
theorem complete_rest {hints : List (SizeHint α)} {free : List Nat}
    (hLoose : isTight hints = false)
    (hFree : apportion (total - fixedPoints hints) (restWeights hints) = some free) :
    Complete (total - fixedPoints hints) ((hints.map fixedShare).countP Option.isNone) free := by
  have hSome : restWeights hints ≠ [] := by
    intro hNil
    have hNone := length_restWeights hints
    rw [hNil] at hNone
    exact (isTight_eq_false_iff.1 hLoose).1 (List.length_eq_zero_iff.1 hNone.symm)
  have hComplete := complete_apportion hSome hFree
  rwa [length_restWeights, length_freeWeights] at hComplete

/-- In a loose row the free columns are apportioned what the fixed ones leave. -/
theorem byPercent_loose_spec {hints : List (SizeHint α)} {shares : List Nat}
    (hLoose : isTight hints = false) (hShares : byPercent hints = some shares) :
    Keeps (hints.map fixedShare) shares ∧
      apportion (total - fixedPoints hints) (restWeights hints) =
        some (atGaps (hints.map fixedShare) shares) := by
  rw [byPercent_loose hLoose] at hShares
  obtain ⟨free, hFree, hInterleave⟩ := Option.bind_eq_some_iff.1 hShares
  obtain ⟨hKeeps, hGaps⟩ := keeps_interleave (complete_rest hLoose hFree).length hInterleave
  rw [hGaps]
  exact ⟨hKeeps, hFree⟩

end Row

/-! ## Percents of styles -/

/-- The points of the percent of a style: the nearest number of points within the row,
and one at least. -/
def percentPoints (style : Option Layout.Style) : Option Nat :=
  (style.bind (·.widthPercent)).map fun percent =>
    max 1 (Number.nearestNat32 (Number.clampTo 0.0 100.0 percent))

theorem map_fixedShare_ofStyle (styles : List (Option Layout.Style)) :
    (styles.map SizeHint.ofStyle).map fixedShare = styles.map percentPoints := by
  rw [List.map_map]
  rfl

end Shares

open Shares

/-- Where percents leave a point for each free column, every percent keeps its points at
its own place. The free columns have shares of one or more that make up what is left,
and these are the shares of the free columns alone. -/
theorem columnShares_keeps_percents {styles : List (Option Layout.Style)} {shares : List Nat}
    (hPercent : ∃ style ∈ styles, style.bind (·.widthPercent) ≠ none)
    (hFree : ∃ style ∈ styles, style.bind (·.widthPercent) = none)
    (hRoom : ((styles.map percentPoints).filterMap id).sum +
      (styles.map percentPoints).countP Option.isNone ≤ 100)
    (hShares : columnShares (styles.map SizeHint.ofStyle) = some shares) :
    Keeps (styles.map percentPoints) shares ∧
      (∀ s ∈ atGaps (styles.map percentPoints) shares, 1 ≤ s) ∧
      (atGaps (styles.map percentPoints) shares).sum =
        100 - ((styles.map percentPoints).filterMap id).sum ∧
      apportion (100 - ((styles.map percentPoints).filterMap id).sum)
          (restWeights (styles.map SizeHint.ofStyle)) =
        some (atGaps (styles.map percentPoints) shares) := by
  have hPoints : fixedPoints (styles.map SizeHint.ofStyle) =
      ((styles.map percentPoints).filterMap id).sum := by
    rw [fixedPoints_eq, map_fixedShare_ofStyle]
  have hCount : (freeWeights (styles.map SizeHint.ofStyle)).length =
      (styles.map percentPoints).countP Option.isNone := by
    rw [length_freeWeights, map_fixedShare_ofStyle]
  have hLoose : isTight (styles.map SizeHint.ofStyle) = false := by
    refine isTight_eq_false_iff.2 ⟨?_, by rwa [hPoints, hCount]⟩
    obtain ⟨style, hMem, hNone⟩ := hFree
    have hGap : percentPoints style = none := by rw [percentPoints, hNone]; rfl
    have hPositive : 0 < (styles.map percentPoints).countP Option.isNone :=
      List.countP_pos_iff.2 ⟨none, hGap ▸ List.mem_map_of_mem hMem, rfl⟩
    rw [← hCount] at hPositive
    exact List.ne_nil_of_length_pos hPositive
  have hDecides : columnShares (styles.map SizeHint.ofStyle) =
      byPercent (styles.map SizeHint.ofStyle) := by
    refine columnShares_of_percent ?_
    obtain ⟨style, hMem, hSome⟩ := hPercent
    exact ⟨_, List.mem_map_of_mem hMem, hSome⟩
  rw [hDecides] at hShares
  obtain ⟨hKeeps, hFree⟩ := byPercent_loose_spec hLoose hShares
  have hComplete := complete_rest hLoose hFree
  rw [map_fixedShare_ofStyle] at hKeeps hFree hComplete
  rw [hPoints] at hFree hComplete
  exact ⟨hKeeps, hComplete.positive, hComplete.sum, hFree⟩

/-- Two percents among free columns, one of them below a point. -/
def mixedRow : List (Option Layout.Style) :=
  [some { flexGrow := some 2.0 }, some { widthPercent := some 33.5 }, none,
    some { widthPercent := some 0.0, flexGrow := some 5.0 }]

/-- The percents take 34 points and one, and 65 points are left for the others. -/
theorem columnShares_keeps_percents_mixedRow :
    columnShares (mixedRow.map SizeHint.ofStyle) = some [43, 34, 22, 1] ∧
      Keeps (mixedRow.map percentPoints) [43, 34, 22, 1] ∧
      apportion 65 (restWeights (mixedRow.map SizeHint.ofStyle)) = some [43, 22] := by
  have hShares : columnShares (mixedRow.map SizeHint.ofStyle) = some [43, 34, 22, 1] := by
    decide +kernel
  have hPoints : mixedRow.map percentPoints = [none, some 34, none, some 1] := by decide +kernel
  have hRoom : ((mixedRow.map percentPoints).filterMap id).sum +
      (mixedRow.map percentPoints).countP Option.isNone ≤ 100 := by
    rw [hPoints]
    decide
  have hPercent : ∃ style ∈ mixedRow, style.bind (·.widthPercent) ≠ none :=
    ⟨_, List.mem_cons_of_mem _ List.mem_cons_self, Option.some_ne_none 33.5⟩
  have hFree : ∃ style ∈ mixedRow, style.bind (·.widthPercent) = none :=
    ⟨_, List.mem_cons_self, rfl⟩
  have hKept := columnShares_keeps_percents hPercent hFree hRoom hShares
  rw [hPoints] at hKept ⊢
  exact ⟨hShares, hKept.1, hKept.2.2.2⟩

end Pagewright.Page
