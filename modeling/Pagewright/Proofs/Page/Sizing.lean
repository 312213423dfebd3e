import Pagewright.Proofs.Page.Percents
import Pagewright.Proofs.Page.Quotas

/-!
# Rows that get shares

A row is left without shares for three reasons only: it has no column, it has more
columns than points, or it gives no hint that can be used. With a percent anywhere
there is always such a hint. The computation has further ways out, and with exact
numbers none of them is taken then: a percent counts for a point at least, so the
weights come to something; free columns are apportioned a rest that has a point for
each of them; and they get as many shares as there are gaps to fill.

## Main results

* `apportionable_tight`, `apportionable_loose` — with a percent, points can be
  apportioned.
* `byPercent_eq_none_iff` — a row with a percent fails by its length only.
* `columnShares_eq_none_iff` — the rows without shares.
-/

namespace Pagewright.Page

namespace Shares

/-! ## Points for every weight -/

section Row

variable {α : Type} [Measure α]

/-- Weights that come to something, with a point for each of them. -/
def Apportionable (points : Nat) (weights : List α) : Prop :=
  Measure.isPositive (sum (weights.map Measure.raise)) = true ∧ weights.length ≤ points

theorem Apportionable.exists_shares {points : Nat} {weights : List α}
    (hWeights : Apportionable points weights) :
    ∃ shares, apportion points weights = some shares := by
  obtain ⟨hPositive, hFew⟩ := hWeights
  rw [apportion, hPositive]
  simp only [Bool.not_true, Bool.false_or, decide_eq_true_eq, if_neg (Nat.not_lt.2 hFew)]
  exact ⟨_, rfl⟩

/-- Every column of a row takes a point or is free. -/
theorem length_le_fixedPoints_add (hints : List (SizeHint α)) :
    hints.length ≤ fixedPoints hints + (freeWeights hints).length := by
  have hParts : (hints.map fixedShare).length =
      ((hints.map fixedShare).filterMap id).length +
        (hints.map fixedShare).countP Option.isNone := by
    rw [List.length_filterMap_eq_countP, List.length_eq_countP_add_countP Option.isSome]
    congr 2
    funext share
    cases share <;> rfl
  have hPoints : ((hints.map fixedShare).filterMap id).length ≤
      ((hints.map fixedShare).filterMap id).sum :=
    List.length_le_sum_of_one_le _ fun _ hMem => one_le_fixedShare hMem
  rw [List.length_map] at hParts
  rw [fixedPoints_eq, length_freeWeights]
  omega

end Row

section Exact

variable {hints : List (SizeHint Rat)}

/-- In a tight row the percents are weights, and each of them counts. -/
theorem apportionable_tight (hPercent : ∃ hint ∈ hints, hint.widthPercent ≠ none)
    (hLength : hints.length ≤ total) : Apportionable total (percentWeights hints) := by
  obtain ⟨hint, hMem, hValue⟩ := hPercent
  obtain ⟨percent, hPercent⟩ := Option.ne_none_iff_exists'.1 hValue
  constructor
  · refine isPositive_sum_raise_iff.2 ⟨_, List.mem_map_of_mem (List.mem_map_of_mem hMem), ?_⟩
    have hOne : 1 ≤ (fixedShare hint).getD 0 := by
      rw [fixedShare, hPercent]
      exact Nat.le_max_left 1 _
    exact Nat.cast_pos.2 hOne
  · rwa [percentWeights, List.length_map, List.length_map]

/-- In a loose row the weights of the free columns count, or all of them count the same. -/
theorem apportionable_loose (hLoose : isTight hints = false) :
    Apportionable (total - fixedPoints hints) (restWeights hints) := by
  obtain ⟨hFree, hRoom⟩ := isTight_eq_false_iff.1 hLoose
  constructor
  · unfold restWeights
    split
    · rename_i hPositive
      have hNonneg : ∀ w ∈ freeWeights hints, 0 ≤ w := by
        intro w hMem
        obtain ⟨hint, -, rfl⟩ := List.mem_map.1 hMem
        exact raise_nonneg _
      rwa [map_raise hNonneg]
    · obtain ⟨w, hMem⟩ := List.exists_mem_of_ne_nil _ hFree
      exact isPositive_sum_raise_iff.2 ⟨_, List.mem_map_of_mem hMem, one_pos⟩
  · rw [length_restWeights]
    omega

/-- With a percent and no more columns than points, every step has a result: percents or
the rest can be apportioned, and then there is a share for each gap. -/
theorem exists_byPercent (hPercent : ∃ hint ∈ hints, hint.widthPercent ≠ none)
    (hLength : hints.length ≤ total) :
    ∃ shares, byPercent hints = some shares ∧
      if isTight hints then apportion total (percentWeights hints) = some shares
      else ∃ free, apportion (total - fixedPoints hints) (restWeights hints) = some free ∧
        interleave (hints.map fixedShare) free = some shares := by
  cases hTight : isTight hints with
  | true =>
    obtain ⟨shares, hShares⟩ := (apportionable_tight hPercent hLength).exists_shares
    exact ⟨shares, (byPercent_tight hTight).trans hShares, hShares⟩
  | false =>
    obtain ⟨free, hFree⟩ := (apportionable_loose hTight).exists_shares
    obtain ⟨shares, hShares, -⟩ :=
      complete_interleave (hints.map fixedShare) free (complete_rest hTight hFree).length
    refine ⟨shares, ?_, free, hFree, hShares⟩
    rw [byPercent_loose hTight, hFree, Option.bind_some, hShares]

/-- A row with a percent has no shares exactly if it has more columns than points. -/
theorem byPercent_eq_none_iff (hPercent : ∃ hint ∈ hints, hint.widthPercent ≠ none) :
    byPercent hints = none ↔ total < hints.length := by
  constructor
  · intro hNone
    by_contra hFew
    obtain ⟨shares, hShares, -⟩ := exists_byPercent hPercent (Nat.not_lt.1 hFew)
    rw [hNone] at hShares
    cases hShares
  · intro hMany
    have hColumns := length_le_fixedPoints_add hints
    have hTight : isTight hints = true := by
      by_contra hLoose
      obtain ⟨-, hRoom⟩ := isTight_eq_false_iff.1 (Bool.eq_false_iff.2 hLoose)
      omega
    rw [byPercent_tight hTight]
    refine apportion_eq_none_iff.2 (.inr ?_)
    rwa [percentWeights, List.length_map, List.length_map]

/-! ## Usable hints -/

theorem growWeight_nonpos_iff {hint : SizeHint Rat} :
    growWeight hint ≤ 0 ↔ ∃ grow, hint.flexGrow = some grow ∧ grow ≤ 0 := by
  rw [← not_lt, growWeight, raise_pos_iff]
  cases hint.flexGrow with
  | none =>
    have hOne : (0 : Rat) < Measure.ofNat 1 := one_pos
    simpa using hOne
  | some grow => simp

theorem isPositive_pixelWidth_iff {hint : SizeHint Rat} :
    Measure.isPositive (pixelWidth hint) = true ↔
      ∃ width, hint.widthPx = some width ∧ 0 < width := by
  rw [isPositive_iff, pixelWidth]
  cases hint.widthPx with
  | none =>
    have hZero : (Measure.ofNat 0 : Rat) = 0 := Nat.cast_zero
    simp [hZero]
  | some width => simp

end Exact

/-! ## Rows without percents -/

theorem any_isSome_eq_false {α β : Type} {xs : List α} {f : α → Option β}
    (hNone : ∀ x ∈ xs, f x = none) : xs.any (fun x => (f x).isSome) = false := by
  rw [← Bool.not_eq_true, any_isSome_iff]
  rintro ⟨x, hMem, hValue⟩
  exact hValue (hNone x hMem)

section Free

variable {α : Type} [Measure α] {hints : List (SizeHint α)}

/-- Grow weights decide where there is one and no percent. -/
theorem columnShares_of_grow (hPercent : ∀ hint ∈ hints, hint.widthPercent = none)
    (hGrow : ∃ hint ∈ hints, hint.flexGrow ≠ none) :
    columnShares hints = apportion total (hints.map growWeight) := by
  have hAny : hints.any (·.flexGrow.isSome) = true := any_isSome_iff.2 hGrow
  obtain ⟨hint, hMem, -⟩ := hGrow
  have hSome : hints.isEmpty = false := List.isEmpty_eq_false_iff.2 (List.ne_nil_of_mem hMem)
  rw [columnShares, hSome, any_isSome_eq_false hPercent, hAny]
  rfl

/-- Widths decide where there is neither a percent nor a grow weight. -/
theorem columnShares_of_width (hSome : hints ≠ [])
    (hPercent : ∀ hint ∈ hints, hint.widthPercent = none)
    (hGrow : ∀ hint ∈ hints, hint.flexGrow = none) :
    columnShares hints =
      if hints.all fun hint => Measure.isPositive (pixelWidth hint) then
        apportion total (hints.map pixelWidth)
      else none := by
  rw [columnShares, List.isEmpty_eq_false_iff.2 hSome, any_isSome_eq_false hPercent,
    any_isSome_eq_false hGrow]
  rfl

end Free

section Exact

variable {hints : List (SizeHint Rat)}

theorem apportion_growWeight_eq_none_iff :
    apportion total (hints.map growWeight) = none ↔
      total < hints.length ∨
        ∀ hint ∈ hints, ∃ grow, hint.flexGrow = some grow ∧ grow ≤ 0 := by
  rw [apportion_eq_none_iff, List.forall_mem_map, List.length_map, or_comm]
  simp only [growWeight_nonpos_iff]

/-- Widths are of use where each of them is above zero. -/
theorem apportion_pixelWidth_eq_none_iff (hSome : hints ≠ []) :
    (if hints.all fun hint => Measure.isPositive (pixelWidth hint) then
        apportion total (hints.map pixelWidth)
      else none) = none ↔
      total < hints.length ∨
        ∃ hint ∈ hints, ¬∃ width, hint.widthPx = some width ∧ 0 < width := by
  by_cases hAll : ∀ hint ∈ hints, ∃ width, hint.widthPx = some width ∧ 0 < width
  · have hWidths : ∀ hint ∈ hints, Measure.isPositive (pixelWidth hint) = true :=
      fun hint hMem => isPositive_pixelWidth_iff.2 (hAll hint hMem)
    have hNone : ¬∀ w ∈ hints.map pixelWidth, w ≤ 0 := by
      intro hZero
      obtain ⟨hint, hMem⟩ := List.exists_mem_of_ne_nil hints hSome
      have hPositive := isPositive_iff.1 (hWidths hint hMem)
      exact not_lt.2 (hZero _ (List.mem_map_of_mem hMem)) hPositive
    rw [if_pos (List.all_eq_true.2 hWidths), apportion_eq_none_iff, List.length_map,
      or_iff_right hNone, or_iff_left]
    rintro ⟨hint, hMem, hLacks⟩
    exact hLacks (hAll hint hMem)
  · have hLacks : ∃ hint ∈ hints, ¬∃ width, hint.widthPx = some width ∧ 0 < width := by
      push Not at hAll ⊢
      exact hAll
    rw [if_neg]
    · exact iff_of_true rfl (.inr hLacks)
    · intro hWidths
      obtain ⟨hint, hMem, hNot⟩ := hLacks
      exact hNot (isPositive_pixelWidth_iff.1 (List.all_eq_true.1 hWidths hint hMem))

end Exact

end Shares

open Shares

/-- A row has no shares exactly if it has no column or more than a hundred, or no column
has a percent and the hints are of no use: grow weights with none above zero, or no grow
weights and a column without a width above zero. In a row of up to a hundred columns
with a percent, every step of the computation has a result. -/
theorem columnShares_eq_none_iff (hints : List (SizeHint Rat)) :
    (columnShares hints = none ↔
      hints = [] ∨ 100 < hints.length ∨
        (∀ hint ∈ hints, hint.widthPercent = none) ∧
          ((∃ hint ∈ hints, hint.flexGrow ≠ none) ∧
              (∀ hint ∈ hints, ∃ grow, hint.flexGrow = some grow ∧ grow ≤ 0) ∨
            (∀ hint ∈ hints, hint.flexGrow = none) ∧
              ∃ hint ∈ hints, ¬∃ width, hint.widthPx = some width ∧ 0 < width)) ∧
    ((∃ hint ∈ hints, hint.widthPercent ≠ none) → hints.length ≤ 100 →
      ∃ shares, columnShares hints = some shares ∧
        if isTight hints then apportion 100 (percentWeights hints) = some shares
        else ∃ free, apportion (100 - fixedPoints hints) (restWeights hints) = some free ∧
          interleave (hints.map fixedShare) free = some shares) := by
  refine ⟨?_, fun hPercent hLength => ?_⟩
  · by_cases hEmpty : hints = []
    · subst hEmpty
      exact iff_of_true rfl (.inl rfl)
    by_cases hPercent : ∃ hint ∈ hints, hint.widthPercent ≠ none
    · rw [columnShares_of_percent hPercent, byPercent_eq_none_iff hPercent]
      constructor
      · exact fun hMany => .inr (.inl hMany)
      · rintro (hNil | hMany | ⟨hNone, -⟩)
        · exact absurd hNil hEmpty
        · exact hMany
        · obtain ⟨hint, hMem, hValue⟩ := hPercent
          exact absurd (hNone hint hMem) hValue
    push Not at hPercent
    by_cases hGrow : ∃ hint ∈ hints, hint.flexGrow ≠ none
    · rw [columnShares_of_grow hPercent hGrow, apportion_growWeight_eq_none_iff]
      have hNotAll : ¬∀ hint ∈ hints, hint.flexGrow = none := by
        obtain ⟨hint, hMem, hValue⟩ := hGrow
        exact fun hNone => hValue (hNone hint hMem)
      rw [or_iff_right hEmpty, and_iff_right hPercent]
      refine or_congr Iff.rfl ?_
      rw [and_iff_right hGrow, or_iff_left]
      exact fun hWidths => hNotAll hWidths.1
    · have hNoGrow : ∀ hint ∈ hints, hint.flexGrow = none := by
        push Not at hGrow
        exact hGrow
      rw [columnShares_of_width hEmpty hPercent hNoGrow, apportion_pixelWidth_eq_none_iff hEmpty]
      rw [or_iff_right hEmpty, and_iff_right hPercent]
      refine or_congr Iff.rfl ?_
      rw [and_iff_right hNoGrow, or_iff_right]
      exact fun hWeights => hGrow hWeights.1
  · obtain ⟨shares, hShares, hSteps⟩ := exists_byPercent hPercent hLength
    exact ⟨shares, (columnShares_of_percent hPercent).trans hShares, hSteps⟩

end Pagewright.Page
