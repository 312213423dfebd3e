import Pagewright.Number.Form

/-!
# The characters of written numbers

A number in positional form is written with digits, a point and a sign, and one
that is not finite with the letters of its name. So nothing that separates
parts of a text stands in a written number.

## Main results

* `isDigit_of_mem_shortest` — a shortest decimal has digits and nothing else.
* `mem_plainText`, `mem_threePlaces`, `mem_toString` — what written numbers consist of.
-/

namespace Pagewright.Number

/-- The characters that numbers are written with. -/
def IsNumeral (c : Char) : Prop := c.isDigit = true ∨ c ∈ ['-', '.', 'N', 'a', 'i', 'n', 'f']

theorem IsNumeral.ne {c separator : Char} (hNumeral : IsNumeral c)
    (hDigit : separator.isDigit = false)
    (hSign : separator ∉ ['-', '.', 'N', 'a', 'i', 'n', 'f']) : c ≠ separator := by
  rintro rfl
  rcases hNumeral with hOwn | hMem
  · exact Bool.false_ne_true (hDigit.symm.trans hOwn)
  · exact hSign hMem

theorem isNumeral_of_mem_toDigits {c : Char} {n : Nat} (hMem : c ∈ Nat.toDigits 10 n) :
    IsNumeral c :=
  .inl (Nat.isDigit_of_mem_toDigits (by decide) (by decide) hMem)

theorem isNumeral_zero : IsNumeral '0' := .inl rfl

theorem isNumeral_point : IsNumeral '.' := .inr (by decide)

/-! ## Decimals -/

theorem mem_of_mem_trimEnd {c d : Char} {text : List Char} (hMem : c ∈ trimEnd d text) :
    c ∈ text := by
  rw [trimEnd, List.mem_reverse] at hMem
  exact List.mem_reverse.1 ((List.dropWhile_sublist _).subset hMem)

theorem isDigit_of_mem_finish {n : Nat} {point : Int} {count : Nat} {c : Char}
    (hMem : c ∈ (Shortest.finish n point count).digits) : c.isDigit = true :=
  Nat.isDigit_of_mem_toDigits (by decide) (by decide) (mem_of_mem_trimEnd hMem)

theorem isDigit_of_mem_search {tieUp : Bool} {i : Shortest.Interval} {point : Int} {c : Char} :
    ∀ {more count : Nat}, c ∈ (Shortest.search tieUp i point more count).digits →
      c.isDigit = true
  | 0, _, hMem => isDigit_of_mem_finish hMem
  | more + 1, count, hMem => by
    rw [Shortest.search] at hMem
    split at hMem
    · exact isDigit_of_mem_finish hMem
    · exact isDigit_of_mem_search hMem

theorem isDigit_of_mem_shortest {tieUp : Bool} {mantissa : Nat} {exponent : Int} {c : Char}
    (hMem : c ∈ (Decimal.shortest tieUp mantissa exponent).digits) : c.isDigit = true := by
  unfold Decimal.shortest at hMem
  split at hMem
  · cases hMem
  · exact isDigit_of_mem_search hMem

/-- A positional text consists of the digits of the decimal, of zeros and of a point. -/
theorem isNumeral_of_mem_positional {d : Decimal} (hDigits : ∀ c ∈ d.digits, c.isDigit = true)
    {c : Char} (hMem : c ∈ d.positional false) : IsNumeral c := by
  have hZeros {n : Nat} (hMem : c ∈ List.replicate n '0') : IsNumeral c :=
    List.eq_of_mem_replicate hMem ▸ isNumeral_zero
  unfold Decimal.positional at hMem
  simp only [Bool.false_eq_true, if_false, List.append_nil] at hMem
  split at hMem
  · exact List.mem_singleton.1 hMem ▸ isNumeral_zero
  · split at hMem
    · rw [List.cons_append, List.cons_append, List.mem_cons, List.mem_cons, List.mem_append] at hMem
      obtain rfl | rfl | hMem | hMem := hMem
      · exact isNumeral_zero
      · exact isNumeral_point
      · exact hZeros hMem
      · exact .inl (hDigits c hMem)
    · split at hMem
      · rcases List.mem_append.1 hMem with hMem | hMem
        · exact .inl (hDigits c hMem)
        · exact hZeros hMem
      · rw [List.mem_append, List.mem_cons] at hMem
        obtain hMem | rfl | hMem := hMem
        · exact .inl (hDigits c (List.mem_of_mem_take hMem))
        · exact isNumeral_point
        · exact .inl (hDigits c (List.mem_of_mem_drop hMem))

/-! ## Numbers -/

theorem isNumeral_of_mem_withSign {negative : Bool} {text : List Char}
    (hText : ∀ c ∈ text, IsNumeral c) : ∀ c ∈ withSign negative text, IsNumeral c := by
  unfold withSign
  split
  · exact List.forall_mem_cons.2 ⟨.inr (by decide), hText⟩
  · exact hText

theorem isNumeral_of_mem_name {name : String}
    (hName : name.toList ∈ [['N', 'a', 'N'], ['i', 'n', 'f']]) :
    ∀ c ∈ name.toList, IsNumeral c := by
  have hNames : ∀ text ∈ [['N', 'a', 'N'], ['i', 'n', 'f']],
      text ⊆ ['-', '.', 'N', 'a', 'i', 'n', 'f'] := by
    simp [List.cons_subset]
  exact fun c hMem => .inr (hNames _ hName hMem)

/-- A plain text of a number is made of numerals. -/
theorem mem_plainText {x : Float} {c : Char} (hMem : c ∈ (plainText x).toList) : IsNumeral c := by
  unfold plainText write at hMem
  split at hMem
  · exact isNumeral_of_mem_name (by decide) c hMem
  · rw [String.toList_ofList] at hMem
    exact isNumeral_of_mem_withSign (isNumeral_of_mem_name (by decide)) c hMem
  · rw [String.toList_ofList] at hMem
    refine isNumeral_of_mem_withSign (fun c hDigit => ?_) c hMem
    exact isNumeral_of_mem_positional (fun _ => isDigit_of_mem_shortest) hDigit

/-- A text of a number with three places is made of numerals. -/
theorem mem_threePlaces {x : Float} {c : Char} (hMem : c ∈ (threePlaces x).toList) :
    IsNumeral c := by
  unfold threePlaces at hMem
  split at hMem
  · exact isNumeral_of_mem_name (by decide) c hMem
  · rw [String.toList_ofList] at hMem
    exact isNumeral_of_mem_withSign (isNumeral_of_mem_name (by decide)) c hMem
  · rw [String.toList_ofList] at hMem
    refine isNumeral_of_mem_withSign (fun c hMem => ?_) c
      (mem_of_mem_trimEnd (mem_of_mem_trimEnd hMem))
    rw [List.mem_append, List.mem_cons, List.mem_append] at hMem
    obtain hMem | rfl | hMem | hMem := hMem
    · exact isNumeral_of_mem_toDigits hMem
    · exact isNumeral_point
    · exact List.eq_of_mem_replicate hMem ▸ isNumeral_zero
    · exact isNumeral_of_mem_toDigits hMem

theorem mem_toString_nat {n : Nat} {c : Char} (hMem : c ∈ (toString n).toList) : IsNumeral c := by
  rw [Nat.toString_eq_ofList_toDigits, String.toList_ofList] at hMem
  exact isNumeral_of_mem_toDigits hMem

theorem mem_toString {n : Int} {c : Char} (hMem : c ∈ (toString n).toList) : IsNumeral c := by
  cases n with
  | ofNat n => exact mem_toString_nat hMem
  | negSucc n =>
    have hText : (toString (Int.negSucc n)).toList = '-' :: (toString (n + 1)).toList := by
      show ("-" ++ toString (n + 1)).toList = _
      rw [String.toList_append]
      rfl
    rw [hText, List.mem_cons] at hMem
    obtain rfl | hMem := hMem
    · exact .inr (by decide)
    · exact mem_toString_nat hMem

end Pagewright.Number
