import Pagewright.Proofs.Number.View
import Pagewright.Proofs.Page.Apportion

/-!
# Shares of a row

Whichever hint decides, a row gets complete shares or none: one for each column,
none empty, one hundred in all. Where only some columns have percents, these keep
their points and the free columns complete what is left.

The shares are computed in words of 32 bits. `SharesRun` follows the computation
step by step: it has a result only if no sum is too large for a word, no difference
is below zero, and the loop that fills empty shares ends. Percents are cut to one
hundred first, so that rows of fewer than forty million columns have one.

## Main results

* `complete_interleave` — fixed and free shares together.
* `complete_columnShares` — the shares of a row are complete.
* `sharesRun_of_length` — the shares of short rows come out step by step.
-/

namespace Pagewright.Page

namespace Shares

/-! ## Fixed and free shares -/

/-- The free shares fill exactly the gaps between the fixed ones. -/
theorem complete_interleave (fixed : List (Option Nat)) :
    ∀ free : List Nat, free.length = fixed.countP Option.isNone →
      ∃ shares, interleave fixed free = some shares ∧ shares.length = fixed.length ∧
        shares.sum = (fixed.filterMap id).sum + free.sum ∧
        ∀ s ∈ shares, s ∈ fixed.filterMap id ∨ s ∈ free := by
  induction fixed with
  | nil =>
    intro free hFree
    have hNil : free = [] := List.length_eq_zero_iff.1 hFree
    subst hNil
    exact ⟨[], rfl, rfl, rfl, fun s hMem => absurd hMem List.not_mem_nil⟩
  | cons first rest ih =>
    intro free hFree
    cases first with
    | some share =>
      have hFixed : (some share :: rest).filterMap id = share :: rest.filterMap id := rfl
      rw [List.countP_cons_of_neg (by simp)] at hFree
      obtain ⟨shares, hRest, hLength, hSum, hMem⟩ := ih free hFree
      refine ⟨share :: shares, by rw [interleave, hRest, Option.map_some], ?_, ?_, ?_⟩
      · rw [List.length_cons, hLength, List.length_cons]
      · rw [List.sum_cons, hSum, hFixed, List.sum_cons]
        omega
      · intro s hs
        rw [hFixed, List.mem_cons]
        rcases List.mem_cons.1 hs with rfl | hTail
        · exact .inl (.inl rfl)
        · rcases hMem s hTail with hOld | hGap
          · exact .inl (.inr hOld)
          · exact .inr hGap
    | none =>
      rw [List.countP_cons_of_pos (by simp)] at hFree
      cases free with
      | nil => cases hFree
      | cons share others =>
        obtain ⟨shares, hRest, hLength, hSum, hMem⟩ := ih others (Nat.succ.inj hFree)
        refine ⟨share :: shares, by rw [interleave, hRest, Option.map_some], ?_, ?_, ?_⟩
        · rw [List.length_cons, hLength, List.length_cons]
        · rw [List.sum_cons, hSum, List.filterMap_cons_none rfl, List.sum_cons]
          omega
        · intro s hs
          rw [List.filterMap_cons_none rfl, List.mem_cons]
          rcases List.mem_cons.1 hs with rfl | hTail
          · exact .inr (.inl rfl)
          · rcases hMem s hTail with hFixed | hGap
            · exact .inl hFixed
            · exact .inr (.inr hGap)

section Row

variable {α : Type} [Measure α]

/-- The points that the percents of a row take. -/
def fixedPoints (hints : List (SizeHint α)) : Nat :=
  ((hints.map fixedShare).filterMap id).foldl (· + ·) 0

/-- The grow weights of the columns of a row that have no percent. -/
def freeWeights (hints : List (SizeHint α)) : List α :=
  (hints.filter fun hint => hint.widthPercent.isNone).map growWeight

theorem fixedPoints_eq (hints : List (SizeHint α)) :
    fixedPoints hints = ((hints.map fixedShare).filterMap id).sum :=
  List.sum_eq_foldl_nat.symm

theorem fixedShare_isNone (hint : SizeHint α) :
    (fixedShare hint).isNone = hint.widthPercent.isNone :=
  Option.isNone_map

theorem length_freeWeights (hints : List (SizeHint α)) :
    (freeWeights hints).length = (hints.map fixedShare).countP Option.isNone := by
  rw [freeWeights, List.length_map, ← List.countP_eq_length_filter, List.countP_map]
  exact List.countP_congr fun hint _ => by rw [← fixedShare_isNone]; rfl

/-- A percent is worth one point at least. -/
theorem one_le_fixedShare {hints : List (SizeHint α)} {share : Nat}
    (hMem : share ∈ (hints.map fixedShare).filterMap id) : 1 ≤ share := by
  obtain ⟨fixed, hFixed, hShare⟩ := List.mem_filterMap.1 hMem
  obtain ⟨hint, -, rfl⟩ := List.mem_map.1 hFixed
  obtain ⟨percent, -, rfl⟩ := Option.map_eq_some_iff.1 hShare
  exact Nat.le_max_left 1 _

/-- Shares by percent are complete. -/
theorem complete_byPercent {hints : List (SizeHint α)} {shares : List Nat}
    (hSome : hints ≠ []) (hShares : byPercent hints = some shares) :
    Complete total hints.length shares := by
  unfold byPercent at hShares
  change (if (freeWeights hints).isEmpty ||
      decide (total < fixedPoints hints + (freeWeights hints).length) then _ else _) = _
    at hShares
  split at hShares
  · have hComplete := complete_apportion (by simpa using hSome) hShares
    rwa [List.length_map, List.length_map] at hComplete
  · rename_i hFree
    simp only [Bool.or_eq_true, List.isEmpty_iff, decide_eq_true_eq, not_or, Nat.not_lt]
      at hFree
    obtain ⟨free, hApportion, hInterleave⟩ := Option.bind_eq_some_iff.1 hShares
    have hFreeComplete : Complete (total - fixedPoints hints) (freeWeights hints).length free := by
      split at hApportion
      · exact complete_apportion hFree.1 hApportion
      · have hOnes := complete_apportion (fun hNil => hFree.1 (List.map_eq_nil_iff.1 hNil))
          hApportion
        rwa [List.length_map] at hOnes
    obtain ⟨result, hResult, hLength, hSum, hMem⟩ := complete_interleave (hints.map fixedShare)
      free (hFreeComplete.length.trans (length_freeWeights hints))
    have hEq : result = shares := Option.some.inj (hResult.symm.trans hInterleave)
    subst hEq
    refine ⟨by rw [hLength, List.length_map], fun s hs => ?_, ?_⟩
    · rcases hMem s hs with hFixed | hGap
      · exact one_le_fixedShare hFixed
      · exact hFreeComplete.positive s hGap
    · rw [hSum, hFreeComplete.sum, ← fixedPoints_eq]
      omega

end Row

end Shares

open Shares

/-- The shares of a row are complete, whatever its hints are. -/
theorem complete_columnShares {α : Type} [Measure α] {hints : List (SizeHint α)}
    {shares : List Nat} (hShares : columnShares hints = some shares) :
    Complete total hints.length shares := by
  unfold columnShares at hShares
  split at hShares
  · cases hShares
  · rename_i hSome
    rw [List.isEmpty_iff] at hSome
    split at hShares
    · exact complete_byPercent hSome hShares
    · split at hShares
      · have hComplete := complete_apportion (by simpa using hSome) hShares
        rwa [List.length_map] at hComplete
      · split at hShares
        · have hComplete := complete_apportion (by simpa using hSome) hShares
          rwa [List.length_map] at hComplete
        · cases hShares

/-! ## Words -/

namespace Shares

/-- The number of values of a word. -/
def wordSize : Nat := 2 ^ 32

/-- Each column counts for one hundred at most. -/
theorem sum_fixed_le {fixed : List (Option Nat)} (hFixed : ∀ share, some share ∈ fixed →
    share ≤ total) :
    (fixed.filterMap id).sum + fixed.countP Option.isNone ≤ total * fixed.length := by
  induction fixed with
  | nil => exact Nat.le_refl 0
  | cons first rest ih =>
    have hRest := ih fun share hMem => hFixed share (List.mem_cons_of_mem first hMem)
    cases first with
    | some share =>
      have hShare := hFixed share List.mem_cons_self
      rw [List.countP_cons_of_neg (by simp), List.length_cons, Nat.mul_add]
      show (share :: rest.filterMap id).sum + _ ≤ _
      rw [List.sum_cons]
      omega
    | none =>
      rw [List.countP_cons_of_pos (by simp), List.length_cons, Nat.mul_add]
      show (rest.filterMap id).sum + _ ≤ _
      have hOne : 1 ≤ total * 1 := by decide
      omega

section Row

variable {α : Type} [Measure α]

/-- Shares by percent step by step. The sums fit a word, and where the free columns
get what is left, something is left. Terms are not negative, so that with a sum all
sums on the way to it fit. -/
def PercentRun (hints : List (SizeHint α)) (result : Option (List Nat)) : Prop :=
  fixedPoints hints + (freeWeights hints).length < wordSize ∧
    if (freeWeights hints).isEmpty || decide (total < fixedPoints hints +
        (freeWeights hints).length) then
      ApportionRun total ((hints.map fixedShare).map fun share =>
        (Measure.ofNat (share.getD 0) : α)) result
    else
      fixedPoints hints ≤ total ∧ ∃ free, ApportionRun (total - fixedPoints hints)
          (if Measure.isPositive (sum (freeWeights hints)) then freeWeights hints
            else (freeWeights hints).map fun _ => Measure.ofNat 1) free ∧
        result = free.bind (interleave (hints.map fixedShare))

/-- The shares of a row step by step, with `result` at the end. -/
def SharesRun (hints : List (SizeHint α)) (result : Option (List Nat)) : Prop :=
  if hints.isEmpty then result = none
  else if hints.any (·.widthPercent.isSome) then PercentRun hints result
  else if hints.any (·.flexGrow.isSome) then
    ApportionRun total (hints.map growWeight) result
  else if hints.all fun hint => Measure.isPositive (pixelWidth hint) then
    ApportionRun total (hints.map pixelWidth) result
  else result = none

theorem percentRun_iff {hints : List (SizeHint α)}
    (hFit : fixedPoints hints + (freeWeights hints).length < wordSize)
    (result : Option (List Nat)) : PercentRun hints result ↔ result = byPercent hints := by
  unfold PercentRun byPercent
  change _ ↔ result = (if (freeWeights hints).isEmpty ||
      decide (total < fixedPoints hints + (freeWeights hints).length) then _ else _)
  split
  · rw [apportionRun_iff]
    exact and_iff_right hFit
  · rename_i hFree
    simp only [Bool.or_eq_true, List.isEmpty_iff, decide_eq_true_eq, not_or, Nat.not_lt]
      at hFree
    constructor
    · rintro ⟨-, -, free, hRun, rfl⟩
      rw [(apportionRun_iff _ _ free).1 hRun]
      rfl
    · intro hResult
      exact ⟨hFit, by omega, _, (apportionRun_iff _ _ _).2 rfl, hResult⟩

/-- In rows whose percents fit a word, shares come out step by step as they are. -/
theorem sharesRun_iff {hints : List (SizeHint α)}
    (hFit : fixedPoints hints + (freeWeights hints).length < wordSize)
    (result : Option (List Nat)) : SharesRun hints result ↔ result = columnShares hints := by
  unfold SharesRun columnShares
  split
  · exact Iff.rfl
  · split
    · exact percentRun_iff hFit result
    · split
      · exact apportionRun_iff _ _ _
      · split
        · exact apportionRun_iff _ _ _
        · exact Iff.rfl

end Row

theorem fixedShare_le (hint : SizeHint Float) {share : Nat}
    (hShare : fixedShare hint = some share) : share ≤ total := by
  obtain ⟨percent, -, rfl⟩ := Option.map_eq_some_iff.1 hShare
  exact Nat.max_le.2 ⟨by decide, Number.nearestNat32_clampTo_percent percent⟩

/-- In rows of fewer than forty million columns, no step leaves the words, whatever
the hints are. -/
theorem sharesRun_of_length {hints : List (SizeHint Float)}
    (hLength : hints.length < 40000000) (result : Option (List Nat)) :
    SharesRun hints result ↔ result = columnShares hints := by
  have hFixed : ∀ share, some share ∈ hints.map fixedShare → share ≤ total := by
    intro share hMem
    obtain ⟨hint, -, hShare⟩ := List.mem_map.1 hMem
    exact fixedShare_le hint hShare
  have hSum := sum_fixed_le hFixed
  rw [← fixedPoints_eq, ← length_freeWeights, List.length_map] at hSum
  have hWord : total * 40000000 < wordSize := by decide
  have hTotal : total * hints.length ≤ total * 40000000 :=
    Nat.mul_le_mul_left total (Nat.le_of_lt hLength)
  exact sharesRun_iff (by omega) result

end Shares

end Pagewright.Page
