import Pagewright.Hash.Sha256

/-!
# Element ids

An id is eight lower-case hexadecimal digits: the first word of the
SHA-256 digest of a path, so equal paths have equal ids in every run. Two
paths can share an id. Within one export ids are handed out from the list of
those already `issued`; a path whose id is taken is tried again as `path#1`,
`path#2`, … until one is free.

## Main results

* `makeId_length` — every id has eight characters.
* `isHex_of_mem_makeId` — and all of them are lower-case hexadecimal digits.
-/

namespace Pagewright.Page

/-- A lower-case hexadecimal digit. -/
def hexDigit (n : Nat) : Char :=
  if n < 10 then Char.ofNat (48 + n) else Char.ofNat (87 + n)

/-- The `count` low hexadecimal digits of a number, the highest first. -/
def hexDigits : Nat → Nat → List Char
  | 0, _ => []
  | count + 1, n => hexDigit (n / Nat.pow 16 count % 16) :: hexDigits count n

/-- The id of a path. -/
def makeId (path : String) : String :=
  String.ofList (hexDigits 8 (Hash.Sha256.leadingWord (Text.Utf8.encodeAll path.toList)).toNat)

/-- The lower-case hexadecimal digits. -/
def isHex (c : Char) : Bool := c.isDigit || ('a' ≤ c && c ≤ 'f')

theorem hexDigits_length (count n : Nat) : (hexDigits count n).length = count := by
  induction count with
  | zero => rfl
  | succ count ih => simp [hexDigits, ih]

theorem isHex_hexDigit {n : Nat} (h : n < 16) : isHex (hexDigit n) = true := by
  have hAll : ∀ m : Fin 16, isHex (hexDigit m.val) = true := by decide
  exact hAll ⟨n, h⟩

theorem isHex_of_mem_hexDigits {count n : Nat} {c : Char} (h : c ∈ hexDigits count n) :
    isHex c = true := by
  induction count with
  | zero => simp [hexDigits] at h
  | succ count ih =>
    rw [hexDigits, List.mem_cons] at h
    cases h with
    | inl hHead => exact hHead ▸ isHex_hexDigit (Nat.mod_lt _ (by decide))
    | inr hTail => exact ih hTail

theorem makeId_length (path : String) : (makeId path).toList.length = 8 := by
  rw [makeId, String.toList_ofList, hexDigits_length]

theorem isHex_of_mem_makeId {path : String} {c : Char} (h : c ∈ (makeId path).toList) :
    isHex c = true := by
  rw [makeId, String.toList_ofList] at h
  exact isHex_of_mem_hexDigits h

/-! ## Handing out ids -/

/-- The spelling of a path that is hashed at a given attempt. -/
def attemptPath (path : String) : Nat → String
  | 0 => path
  | attempt + 1 => path ++ "#" ++ toString (attempt + 1)

/-- The id tried at a given attempt. -/
def attemptId (path : String) (attempt : Nat) : String := makeId (attemptPath path attempt)

/-- The ids handed out so far, newest first. -/
structure Issued where
  ids : List String := []
  deriving DecidableEq, Repr, Inhabited

/-- How many attempts a path has. -/
def attemptLimit : Nat := 0x80000000

/-- The first of `count` attempts, from `attempt` on, whose id is free. -/
def firstFree (issued : List String) (path : String) : Nat → Nat → String
  | 0, attempt => attemptId path attempt
  | count + 1, attempt =>
    if issued.contains (attemptId path attempt) then firstFree issued path count (attempt + 1)
    else attemptId path attempt

/-- Hands out an id for a path. -/
def Issued.allocate (issued : Issued) (path : String) : String × Issued :=
  let id := firstFree issued.ids path attemptLimit 0
  (id, ⟨id :: issued.ids⟩)

end Pagewright.Page
