import Pagewright.Number.Literal

/-!
# JSON values

A value keeps whole numbers apart from floating-point ones, because they are
written differently, and keeps the fields of an object in a list. A document
read from text has its fields in ascending key order, each key once; a record
written by this library has them in the order of the record.

## Main results

* `lookup_insert_self`, `lookup_insert_ne` — `insert` changes one key.
* `lookup_erase_self`, `lookup_erase_ne` — `erase` removes one key.
-/

namespace Pagewright

/-- A JSON value. -/
inductive Json where
  | null
  | bool (b : Bool)
  | int (n : Int)
  | float (x : Float)
  | str (s : String)
  | arr (items : List Json)
  | obj (fields : List (String × Json))
  deriving BEq, Repr, Inhabited

namespace Json

/-- The fields of an object. -/
abbrev Fields := List (String × Json)

/-! ## Fields -/

/-- The value of a key. -/
def lookup (key : String) : Fields → Option Json
  | [] => none
  | (k, v) :: rest => if k = key then some v else lookup key rest

/-- Sets a key, at its place in ascending key order where it is new. -/
def insert (key : String) (value : Json) : Fields → Fields
  | [] => [(key, value)]
  | (k, v) :: rest =>
    if k = key then (key, value) :: rest
    else if key < k then (key, value) :: (k, v) :: rest
    else (k, v) :: insert key value rest

/-- Removes a key. -/
def erase (key : String) (fields : Fields) : Fields :=
  fields.filter fun field => field.1 != key

/-- Sets a key that is not there yet. -/
def insertNew (key : String) (value : Json) (fields : Fields) : Fields :=
  if (lookup key fields).isSome then fields else insert key value fields

mutual

/-- A value with the fields of each object in ascending key order. -/
def sorted : Json → Json
  | .arr items => .arr (sortedItems items)
  | .obj fields => .obj (sortedFields fields)
  | value => value

/-- Values with the fields of each object in ascending key order. -/
def sortedItems : List Json → List Json
  | [] => []
  | item :: rest => item.sorted :: sortedItems rest

/-- Fields in ascending key order; of a repeated key the last value stays. -/
def sortedFields : Fields → Fields
  | [] => []
  | (key, value) :: rest => insertNew key value.sorted (sortedFields rest)

end

theorem lookup_insert_self (key : String) (value : Json) (fields : Fields) :
    lookup key (insert key value fields) = some value := by
  induction fields with
  | nil => simp [insert, lookup]
  | cons field rest ih =>
    obtain ⟨k, v⟩ := field
    unfold insert
    split
    · simp [lookup]
    · split
      · simp [lookup]
      · simp [lookup, *]

theorem lookup_insert_ne {key other : String} (h : key ≠ other) (value : Json)
    (fields : Fields) : lookup other (insert key value fields) = lookup other fields := by
  induction fields with
  | nil => simp [insert, lookup, h]
  | cons field rest ih =>
    obtain ⟨k, v⟩ := field
    unfold insert
    split
    · subst_vars; simp [lookup, h]
    · split
      · simp [lookup, h]
      · simp only [lookup]; split
        · rfl
        · exact ih

theorem lookup_erase_self (key : String) (fields : Fields) :
    lookup key (erase key fields) = none := by
  induction fields with
  | nil => rfl
  | cons field rest ih =>
    obtain ⟨k, v⟩ := field
    by_cases hk : k = key
    · simpa [erase, hk] using ih
    · have hStep : erase key ((k, v) :: rest) = (k, v) :: erase key rest := by
        simp [erase, hk]
      rw [hStep, lookup, if_neg hk, ih]

theorem lookup_erase_ne {key other : String} (h : key ≠ other) (fields : Fields) :
    lookup other (erase key fields) = lookup other fields := by
  induction fields with
  | nil => rfl
  | cons field rest ih =>
    obtain ⟨k, v⟩ := field
    by_cases hk : k = key
    · have hStep : erase key ((k, v) :: rest) = erase key rest := by simp [erase, hk]
      have hNe : k ≠ other := fun hEq => h (hk ▸ hEq)
      rw [hStep, ih, lookup, if_neg hNe]
    · have hStep : erase key ((k, v) :: rest) = (k, v) :: erase key rest := by
        simp [erase, hk]
      rw [hStep, lookup, lookup, ih]

/-! ## Views -/

/-- The value of a key of an object. -/
def get? (key : String) : Json → Option Json
  | .obj fields => lookup key fields
  | _ => none

/-- The fields of an object. -/
def asFields? : Json → Option Fields
  | .obj fields => some fields
  | _ => none

/-- The items of an array. -/
def asItems? : Json → Option (List Json)
  | .arr items => some items
  | _ => none

/-- The text of a string. -/
def asText? : Json → Option String
  | .str s => some s
  | _ => none

/-- A truth value. -/
def asBool? : Json → Option Bool
  | .bool b => some b
  | _ => none

/-- A number, whole or not. -/
def asNumber? : Json → Option Float
  | .int n => some (Number.ofInt n)
  | .float x => some x
  | _ => none

/-- Whether a value is an object. -/
def isObject : Json → Bool
  | .obj _ => true
  | _ => false

end Json

end Pagewright
