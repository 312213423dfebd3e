import Mathlib.Algebra.GroupWithZero.Nat
import Mathlib.Tactic.ByContra
import Pagewright.Page.Shares

/-!
# Apportioned points

`apportion` hands out points in two steps: a running sum is rounded and clipped,
and afterwards empty shares are filled from the largest one. Both steps keep the
total. The second one is a loop in disguise: its fuel is the number of shares,
and every turn leaves one empty share less, because a list with an empty share
and no fewer points than entries has a share of two points or more.

All of this holds for any `Measure`, whatever its rounding gives: the clipping
keeps the running sum within the points and never lets it fall.

## Main results

* `AdvanceSafe.of_le` — no difference of the running sum is negative.
* `filled_fillEmpty` — the fuel suffices, and every point moved was there.
* `apportionRun_iff` — step by step the shares come out as `apportion` gives them.
* `complete_apportion` — shares are complete: one for each weight, none empty,
  and all points handed out.
-/

namespace Pagewright.Page.Shares

/-! ## The running sum -/

section Advance

variable {α : Type} [Measure α]

/-- No subtraction on the way goes below zero, and no range that a sum is clipped
to is empty. -/
def AdvanceSafe (points : Nat) (whole : α) : α → Nat → List α → Prop
  | _, _, [] => True
  | _, assigned, [_] => assigned ≤ points
  | reached, assigned, weight :: rest =>
    let reached := reached + Measure.ofNat points * Measure.raise weight / whole
    let next := max assigned (min points (Measure.round reached))
    assigned ≤ points ∧ assigned ≤ next ∧ AdvanceSafe points whole reached next rest

theorem advance_cons (points : Nat) (whole reached weight next : α) (assigned : Nat)
    (rest : List α) :
    advance points whole reached assigned (weight :: next :: rest) =
      (max assigned (min points (Measure.round
          (reached + Measure.ofNat points * Measure.raise weight / whole))) - assigned) ::
        advance points whole (reached + Measure.ofNat points * Measure.raise weight / whole)
          (max assigned (min points (Measure.round
            (reached + Measure.ofNat points * Measure.raise weight / whole))))
          (next :: rest) :=
  rfl

/-- The running sum stays within the points and never falls. -/
theorem AdvanceSafe.of_le {points : Nat} {whole : α} {weights : List α} :
    ∀ {reached : α} {assigned : Nat}, assigned ≤ points →
      AdvanceSafe points whole reached assigned weights := by
  induction weights with
  | nil => intro reached assigned _; trivial
  | cons weight rest ih =>
    intro reached assigned hAssigned
    cases rest with
    | nil => exact hAssigned
    | cons next others =>
      refine ⟨hAssigned, Nat.le_max_left _ _, ih ?_⟩
      omega

theorem length_advance (points : Nat) (whole : α) (weights : List α) :
    ∀ (reached : α) (assigned : Nat),
      (advance points whole reached assigned weights).length = weights.length := by
  induction weights with
  | nil => intro reached assigned; rfl
  | cons weight rest ih =>
    intro reached assigned
    cases rest with
    | nil => rfl
    | cons next others =>
      rw [advance_cons, List.length_cons, ih]
      rfl

/-- The shares of a running sum make up what was not handed out before. -/
theorem sum_advance (points : Nat) (whole : α) {weights : List α} (hSome : weights ≠ []) :
    ∀ (reached : α) (assigned : Nat), assigned ≤ points →
      (advance points whole reached assigned weights).sum + assigned = points := by
  induction weights with
  | nil => exact absurd rfl hSome
  | cons weight rest ih =>
    intro reached assigned hAssigned
    cases rest with
    | nil =>
      show [points - assigned].sum + assigned = points
      rw [List.sum_singleton]
      omega
    | cons next others =>
      have hRest := ih (List.cons_ne_nil next others)
        (reached + Measure.ofNat points * Measure.raise weight / whole)
        (max assigned (min points (Measure.round
          (reached + Measure.ofNat points * Measure.raise weight / whole)))) (by omega)
      rw [advance_cons, List.sum_cons]
      omega

end Advance

/-! ## Filling empty shares -/

/-- The loop that fills the empty shares, from some shares to the ones it ends
with: while one is empty, a point is taken from the last largest share, which
must have one, and given to the first empty share. -/
inductive Filled : List Nat → List Nat → Prop
  | done {shares : List Nat} (hFull : shares.findIdx? (· == 0) = none) : Filled shares shares
  | move {shares result : List Nat} {empty : Nat}
      (hEmpty : shares.findIdx? (· == 0) = some empty)
      (hPoint : 1 ≤ shares.getD (lastLargest shares) 0)
      (hRest : Filled ((shares.modify (lastLargest shares) (· - 1)).set empty 1) result) :
      Filled shares result

/-- The loop ends in one way only. -/
theorem Filled.unique {shares result other : List Nat} (hResult : Filled shares result)
    (hOther : Filled shares other) : result = other := by
  induction hResult with
  | done hFull =>
    cases hOther with
    | done => rfl
    | move hEmpty => rw [hFull] at hEmpty; cases hEmpty
  | move hEmpty hPoint hRest ih =>
    cases hOther with
    | done hFull => rw [hFull] at hEmpty; cases hEmpty
    | move hSame _ hNext =>
      rw [hEmpty] at hSame
      cases hSame
      exact ih hNext

/-- The largest share stands where `lastLargest` says. -/
theorem lastLargest_spec {shares : List Nat} (hSome : shares ≠ []) :
    ∃ h : lastLargest shares < shares.length,
      ∀ s ∈ shares, s ≤ shares[lastLargest shares] := by
  have hLargest : shares.foldl max 0 = shares.max hSome := by
    rw [List.foldl_max_eq_max hSome, Nat.zero_max]
  have hFound : ∃ s ∈ shares.reverse, (s == shares.foldl max 0) = true :=
    ⟨shares.max hSome, List.mem_reverse.2 (List.max_mem hSome), beq_iff_eq.2 hLargest.symm⟩
  have hIndex := List.findIdx_lt_length_of_exists hFound
  have hAt := @List.findIdx_getElem Nat (· == shares.foldl max 0) shares.reverse hIndex
  rw [List.length_reverse] at hIndex
  have hLast : lastLargest shares < shares.length := by
    show shares.length - 1 - _ < shares.length
    omega
  refine ⟨hLast, fun s hMem => ?_⟩
  have hValue : shares[lastLargest shares] = shares.max hSome := by
    rw [beq_iff_eq, List.getElem_reverse] at hAt
    exact Eq.trans hAt hLargest
  rw [hValue]
  exact List.le_max_of_mem hMem

/-- With an empty share and no fewer points than shares, some share has two points. -/
theorem two_le_lastLargest {shares : List Nat} (hEmpty : 0 ∈ shares)
    (hEnough : shares.length ≤ shares.sum) :
    ∃ h : lastLargest shares < shares.length, 2 ≤ shares[lastLargest shares] := by
  obtain ⟨hLast, hLargest⟩ := lastLargest_spec (List.ne_nil_of_mem hEmpty)
  have hPigeon : ∀ xs : List Nat, (∀ s ∈ xs, s ≤ 1) →
      xs.sum ≤ xs.length ∧ (0 ∈ xs → xs.sum < xs.length) := by
    intro xs
    induction xs with
    | nil => intro _; exact ⟨Nat.le_refl 0, fun hNone => absurd hNone List.not_mem_nil⟩
    | cons x rest ih =>
      intro hSmall
      have hHead := hSmall x List.mem_cons_self
      obtain ⟨hLe, hLt⟩ := ih fun s hMem => hSmall s (List.mem_cons_of_mem x hMem)
      rw [List.sum_cons, List.length_cons]
      refine ⟨by omega, fun hZero => ?_⟩
      rcases List.mem_cons.1 hZero with hHere | hThere
      · omega
      · have hBelow := hLt hThere
        omega
  refine ⟨hLast, ?_⟩
  by_contra hSmall
  have hAll : ∀ s ∈ shares, s ≤ 1 := by
    intro s hMem
    have hLe := hLargest s hMem
    omega
  have hFew := (hPigeon shares hAll).2 hEmpty
  omega

theorem sum_set_add (xs : List Nat) (value : Nat) :
    ∀ (i : Nat) (h : i < xs.length), (xs.set i value).sum + xs[i] = xs.sum + value := by
  induction xs with
  | nil => intro i h; exact absurd h (Nat.not_lt_zero i)
  | cons x rest ih =>
    intro i h
    cases i with
    | zero =>
      rw [List.set_cons_zero, List.sum_cons, List.sum_cons, List.getElem_cons_zero]
      omega
    | succ i =>
      have hRest := ih i (Nat.lt_of_succ_lt_succ h)
      rw [List.set_cons_succ, List.sum_cons, List.sum_cons, List.getElem_cons_succ]
      omega

/-- One turn of the loop keeps the points and the number of shares, and leaves
one empty share less. -/
theorem move_spec {shares : List Nat} {empty : Nat}
    (hEmpty : shares.findIdx? (· == 0) = some empty) (hEnough : shares.length ≤ shares.sum) :
    1 ≤ shares.getD (lastLargest shares) 0 ∧
      ((shares.modify (lastLargest shares) (· - 1)).set empty 1).length = shares.length ∧
      ((shares.modify (lastLargest shares) (· - 1)).set empty 1).sum = shares.sum ∧
      ((shares.modify (lastLargest shares) (· - 1)).set empty 1).count 0 + 1 =
        shares.count 0 := by
  obtain ⟨hIndex, hZero, -⟩ := List.findIdx?_eq_some_iff_getElem.1 hEmpty
  have hValue : shares[empty] = 0 := beq_iff_eq.1 hZero
  have hMem : 0 ∈ shares := hValue ▸ List.getElem_mem hIndex
  obtain ⟨hLast, hTwo⟩ := two_le_lastLargest hMem hEnough
  generalize lastLargest shares = largest at hLast hTwo
  have hNe : largest ≠ empty := by
    rintro rfl
    omega
  have hModify : shares.modify largest (· - 1) = shares.set largest (shares[largest] - 1) := by
    rw [List.modify_eq_set, List.getElem?_eq_getElem hLast, Option.getD_some]
  have hTaken := sum_set_add shares (shares[largest] - 1) largest hLast
  have hCount := List.count_pos_iff.2 hMem
  rw [hModify]
  have hIndex' : empty < (shares.set largest (shares[largest] - 1)).length := by
    rwa [List.length_set]
  have hStill : (shares.set largest (shares[largest] - 1))[empty] = 0 := by
    rw [List.getElem_set_ne hNe, hValue]
  have hGiven := sum_set_add (shares.set largest (shares[largest] - 1)) 1 empty hIndex'
  rw [hStill] at hGiven
  refine ⟨?_, by rw [List.length_set, List.length_set], by omega, ?_⟩
  · rw [List.getD_eq_getElem?_getD, List.getElem?_eq_getElem hLast, Option.getD_some]
    omega
  · have hOther : (shares.set largest (shares[largest] - 1)).count 0 = shares.count 0 := by
      rw [List.count_set hLast, if_neg (by simp; omega), if_neg (by simp; omega)]
      omega
    rw [List.count_set hIndex', hStill, hOther]
    simp
    omega

/-- As much fuel as there are empty shares is enough: the loop ends with what
`fillEmpty` gives, with all points kept and no share empty. -/
theorem filled_fillEmpty (fuel : Nat) :
    ∀ shares : List Nat, shares.count 0 ≤ fuel → shares.length ≤ shares.sum →
      Filled shares (fillEmpty fuel shares) ∧
        (fillEmpty fuel shares).length = shares.length ∧
        (fillEmpty fuel shares).sum = shares.sum ∧
        ∀ s ∈ fillEmpty fuel shares, 1 ≤ s := by
  have hDone : ∀ shares : List Nat, shares.findIdx? (· == 0) = none →
      Filled shares shares ∧ ∀ s ∈ shares, 1 ≤ s := by
    intro shares hFull
    refine ⟨.done hFull, fun s hMem => ?_⟩
    have hNe := beq_eq_false_iff_ne.1 (List.findIdx?_eq_none_iff.1 hFull s hMem)
    omega
  induction fuel with
  | zero =>
    intro shares hFuel hEnough
    have hFull : shares.findIdx? (· == 0) = none := by
      refine List.findIdx?_eq_none_iff.2 fun s hMem => beq_eq_false_iff_ne.2 ?_
      rintro rfl
      have hCount := List.count_pos_iff.2 hMem
      omega
    obtain ⟨hFilled, hPositive⟩ := hDone shares hFull
    exact ⟨hFilled, rfl, rfl, hPositive⟩
  | succ fuel ih =>
    intro shares hFuel hEnough
    cases hEmpty : shares.findIdx? (· == 0) with
    | none =>
      obtain ⟨hFilled, hPositive⟩ := hDone shares hEmpty
      rw [fillEmpty, hEmpty]
      exact ⟨hFilled, rfl, rfl, hPositive⟩
    | some empty =>
      obtain ⟨hPoint, hLength, hSum, hCount⟩ := move_spec hEmpty hEnough
      obtain ⟨hFilled, hLength', hSum', hPositive⟩ :=
        ih ((shares.modify (lastLargest shares) (· - 1)).set empty 1) (by omega) (by omega)
      rw [fillEmpty, hEmpty]
      exact ⟨.move hEmpty hPoint hFilled, hLength'.trans hLength, hSum'.trans hSum, hPositive⟩

/-! ## Apportioned shares -/

/-- Shares for `count` entries, none of them empty, that make up `points`. -/
structure Complete (points count : Nat) (shares : List Nat) : Prop where
  length : shares.length = count
  positive : ∀ s ∈ shares, 1 ≤ s
  sum : shares.sum = points

section Apportion

variable {α : Type} [Measure α]

/-- Apportioning step by step: no subtraction goes below zero, and the loop over the
empty shares comes to its end with `result`. -/
def ApportionRun (points : Nat) (weights : List α) (result : Option (List Nat)) : Prop :=
  let whole := sum (weights.map Measure.raise)
  if !Measure.isPositive whole || points < weights.length then result = none
  else AdvanceSafe points whole (Measure.ofNat 0) 0 weights ∧
    ∃ shares, Filled (advance points whole (Measure.ofNat 0) 0 weights) shares ∧
      result = some shares

theorem advance_enough {points : Nat} (whole reached : α) {weights : List α}
    (hPoints : weights.length ≤ points) :
    (advance points whole reached 0 weights).length ≤
      (advance points whole reached 0 weights).sum := by
  rw [length_advance]
  cases weights with
  | nil => exact Nat.zero_le _
  | cons weight rest =>
    have hSum := sum_advance points whole (List.cons_ne_nil weight rest) reached 0
      (Nat.zero_le points)
    omega

/-- Apportioning comes to its end, and with one result only. -/
theorem apportionRun_iff (points : Nat) (weights : List α) (result : Option (List Nat)) :
    ApportionRun points weights result ↔ result = apportion points weights := by
  unfold ApportionRun apportion
  dsimp only
  split
  · exact Iff.rfl
  · rename_i hRefused
    have hPoints : weights.length ≤ points := by
      by_contra hMore
      rw [decide_eq_true (Nat.lt_of_not_le hMore), Bool.or_true] at hRefused
      exact hRefused rfl
    have hFilled := (filled_fillEmpty _ _ List.count_le_length
      (advance_enough (sum (weights.map Measure.raise)) (Measure.ofNat 0) hPoints)).1
    constructor
    · rintro ⟨-, shares, hShares, rfl⟩
      rw [hShares.unique hFilled]
    · intro hResult
      exact ⟨AdvanceSafe.of_le (Nat.zero_le points), _, hFilled, hResult⟩

/-- Apportioned shares are complete. -/
theorem complete_apportion {points : Nat} {weights : List α} {shares : List Nat}
    (hSome : weights ≠ []) (hShares : apportion points weights = some shares) :
    Complete points weights.length shares := by
  unfold apportion at hShares
  dsimp only at hShares
  split at hShares
  · cases hShares
  · rename_i hPoints
    simp only [Bool.or_eq_true, Bool.not_eq_true', decide_eq_true_eq, not_or, Nat.not_lt]
      at hPoints
    obtain rfl := Option.some.inj hShares
    have hSum := sum_advance points (sum (weights.map Measure.raise)) hSome
      (Measure.ofNat 0) 0 (Nat.zero_le points)
    obtain ⟨-, hLength, hTotal, hPositive⟩ := filled_fillEmpty _ _ List.count_le_length
      (advance_enough (sum (weights.map Measure.raise)) (Measure.ofNat 0) hPoints.2)
    refine ⟨?_, hPositive, ?_⟩
    · rw [hLength, length_advance]
    · rw [hTotal]
      exact hSum

end Apportion

end Pagewright.Page.Shares
