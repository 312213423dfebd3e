import Mathlib.Data.List.Basic
import Pagewright.Json.Printer

/-!
# What is left of a value when it is written out

A number that is not finite has no written form: `null` stands for it. So what
is written for a value is what is written for the value with `null` in the
place of such numbers, `Json.stored`, and a reader never sees more than that.
Nothing is lost where all numbers of the value are finite.

## Main results

* `compact_stored`, `pretty_stored` — both forms of text are of the stored value.
* `stored_eq_self` — a value of finite numbers is stored as it is.
-/

namespace Pagewright.Json

/-! ## Stored values -/

mutual

/-- The value with `null` for the numbers that are not finite. -/
def stored : Json → Json
  | .float x => if x.isFinite then .float x else .null
  | .arr items => .arr (storedItems items)
  | .obj fields => .obj (storedFields fields)
  | value => value

/-- Values with `null` for the numbers that are not finite. -/
def storedItems : List Json → List Json
  | [] => []
  | item :: rest => item.stored :: storedItems rest

/-- Fields with `null` for the numbers that are not finite. -/
def storedFields : Fields → Fields
  | [] => []
  | (key, value) :: rest => (key, value.stored) :: storedFields rest

end

/-! ## Written values -/

theorem compactItems_cons (item second : Json) (rest : List Json) :
    compactItems (item :: second :: rest) =
      item.compact ++ "," ++ compactItems (second :: rest) := by
  rw [compactItems]
  exact nofun

theorem compactFields_cons (key : String) (value : Json) (second : String × Json)
    (rest : Fields) :
    compactFields ((key, value) :: second :: rest) =
      quote key ++ ":" ++ value.compact ++ "," ++ compactFields (second :: rest) := by
  rw [compactFields]
  exact nofun

mutual

theorem compact_stored : ∀ value : Json, value.stored.compact = value.compact
  | .float x => by
    rw [stored, compact, floatText]
    split
    · rename_i hFinite
      rw [compact, floatText, if_pos hFinite]
    · rw [compact]
  | .arr items => by rw [stored, compact, compact, compactItems_stored]
  | .obj fields => by rw [stored, compact, compact, compactFields_stored]
  | .null | .bool _ | .int _ | .str _ => by rw [stored] <;> exact nofun

theorem compactItems_stored : ∀ items : List Json,
    compactItems (storedItems items) = compactItems items
  | [] => rfl
  | [item] => by rw [storedItems, storedItems, compactItems, compactItems, compact_stored]
  | item :: second :: rest => by
    have hRest := compactItems_stored (second :: rest)
    rw [storedItems] at hRest
    rw [storedItems, storedItems, compactItems_cons, compactItems_cons, compact_stored, hRest]

theorem compactFields_stored : ∀ fields : Fields,
    compactFields (storedFields fields) = compactFields fields
  | [] => rfl
  | [(key, value)] => by
    rw [storedFields, storedFields, compactFields, compactFields, compact_stored]
  | (key, value) :: second :: rest => by
    have hRest := compactFields_stored (second :: rest)
    rw [storedFields] at hRest
    rw [storedFields, storedFields, compactFields_cons, compactFields_cons, compact_stored,
      hRest]

end

mutual

theorem prettyAt_stored : ∀ (level : Nat) (value : Json),
    value.stored.prettyAt level = value.prettyAt level
  | level, .float x => by
    rw [stored, prettyAt, floatText]
    split
    · rename_i hFinite
      rw [prettyAt, floatText, if_pos hFinite]
    · rw [prettyAt]
  | _, .arr [] | _, .obj [] => by rw [stored] ; rfl
  | level, .arr (item :: rest) => by
    rw [stored, storedItems, prettyAt, prettyAt, prettyAt_stored, prettyItems_stored]
  | level, .obj ((key, value) :: rest) => by
    rw [stored, storedFields, prettyAt, prettyAt, prettyAt_stored, prettyFields_stored]
  | _, .null | _, .bool _ | _, .int _ | _, .str _ => by rw [stored] <;> exact nofun

theorem prettyItems_stored : ∀ (level : Nat) (items : List Json),
    prettyItems level (storedItems items) = prettyItems level items
  | _, [] => rfl
  | level, item :: rest => by
    rw [storedItems, prettyItems, prettyItems, prettyAt_stored, prettyItems_stored]

theorem prettyFields_stored : ∀ (level : Nat) (fields : Fields),
    prettyFields level (storedFields fields) = prettyFields level fields
  | _, [] => rfl
  | level, (key, value) :: rest => by
    rw [storedFields, prettyFields, prettyFields, prettyAt_stored, prettyFields_stored]

end

/-- The indented text of a value is that of what is stored. -/
theorem pretty_stored (value : Json) : value.stored.pretty = value.pretty :=
  prettyAt_stored 0 value

/-! ## Finite numbers -/

mutual

/-- The floating-point numbers of a value. -/
def floats : Json → List Float
  | .float x => [x]
  | .arr items => floatsOfItems items
  | .obj fields => floatsOfFields fields
  | _ => []

/-- The floating-point numbers of values. -/
def floatsOfItems : List Json → List Float
  | [] => []
  | item :: rest => item.floats ++ floatsOfItems rest

/-- The floating-point numbers in fields. -/
def floatsOfFields : Fields → List Float
  | [] => []
  | (_, value) :: rest => value.floats ++ floatsOfFields rest

end

theorem floats_arr (items : List Json) : (Json.arr items).floats = items.flatMap floats := by
  rw [floats]
  induction items with
  | nil => rfl
  | cons item rest ih => rw [floatsOfItems, ih, List.flatMap_cons]

theorem floats_obj (fields : Fields) :
    (Json.obj fields).floats = fields.flatMap fun field => field.2.floats := by
  rw [floats]
  induction fields with
  | nil => rfl
  | cons field rest ih => rw [floatsOfFields, ih, List.flatMap_cons]

mutual

/-- A value of finite numbers is stored as it is. -/
theorem stored_eq_self : ∀ value : Json, (∀ x ∈ value.floats, x.isFinite = true) →
    value.stored = value
  | .float x, hFinite => by
    rw [stored, if_pos (hFinite x (by rw [floats]; exact List.mem_singleton_self x))]
  | .arr items, hFinite => by
    rw [floats] at hFinite
    rw [stored, storedItems_eq_self items hFinite]
  | .obj fields, hFinite => by
    rw [floats] at hFinite
    rw [stored, storedFields_eq_self fields hFinite]
  | .null, _ | .bool _, _ | .int _, _ | .str _, _ => by rw [stored] <;> exact nofun

theorem storedItems_eq_self : ∀ items : List Json,
    (∀ x ∈ floatsOfItems items, x.isFinite = true) → storedItems items = items
  | [], _ => rfl
  | item :: rest, hFinite => by
    rw [floatsOfItems, List.forall_mem_append] at hFinite
    rw [storedItems, stored_eq_self item hFinite.1, storedItems_eq_self rest hFinite.2]

theorem storedFields_eq_self : ∀ fields : Fields,
    (∀ x ∈ floatsOfFields fields, x.isFinite = true) → storedFields fields = fields
  | [], _ => rfl
  | (key, value) :: rest, hFinite => by
    rw [floatsOfFields, List.forall_mem_append] at hFinite
    rw [storedFields, stored_eq_self value hFinite.1, storedFields_eq_self rest hFinite.2]

end

end Pagewright.Json
