import Mathlib.Data.List.Nodup
import Pagewright.Json.Shape

/-!
# The fields of written objects

A record is written as slots, one for each field in the order of the record,
and a slot that holds nothing is left out. As no key has two slots, every slot
can be looked up by its key again, and so it can when the fields are put into
ascending key order.

`Within` says that a value stands in another one, at any depth, and `induct` is
induction over values with one motive.

## Main results

* `insert_insert`, `erase_erase` — setting or removing a key twice is no more
  than once.
* `nodup_keys_sortedFields`, `sorted_of_lookup` — what being in order means for
  the keys and for the values inside.
* `lookup_written`, `lookup_sorted_written` — every slot is found by its key.
* `field_of_slot` — a record reads back what a slot was written from.
* `mapM_map_eq_ok`, `mem_of_mapM_eq_ok` — an array is read item by item.
-/

namespace Pagewright.Json

/-! ## Setting and removing twice -/

theorem insert_insert (key : String) (value : Json) (fields : Fields) :
    insert key value (insert key value fields) = insert key value fields := by
  induction fields with
  | nil => rw [insert, insert, if_pos rfl]
  | cons field rest ih =>
    obtain ⟨k, v⟩ := field
    by_cases hSame : k = key
    · rw [insert, if_pos hSame, insert, if_pos rfl]
    · by_cases hBefore : key < k
      · rw [insert, if_neg hSame, if_pos hBefore, insert, if_pos rfl]
      · rw [insert, if_neg hSame, if_neg hBefore, insert, if_neg hSame, if_neg hBefore, ih]

theorem erase_erase (key : String) (fields : Fields) :
    erase key (erase key fields) = erase key fields := by
  rw [erase, erase, List.filter_filter]
  simp only [Bool.and_self]

/-! ## Ascending key order -/

theorem lookup_insertNew (key other : String) (value : Json) (fields : Fields) :
    lookup other (insertNew key value fields) =
      if other = key then (lookup key fields).or (some value) else lookup other fields := by
  unfold insertNew
  by_cases hOther : other = key
  · rw [if_pos hOther, hOther]
    cases hLookup : lookup key fields with
    | none => exact lookup_insert_self key value fields
    | some found => exact hLookup
  · rw [if_neg hOther]
    split
    · rfl
    · exact lookup_insert_ne (fun hSame => hOther hSame.symm) value fields

theorem lookup_eq_none_iff {key : String} {fields : Fields} :
    lookup key fields = none ↔ key ∉ fields.map Prod.fst := by
  induction fields with
  | nil => exact ⟨fun _ => List.not_mem_nil, fun _ => rfl⟩
  | cons field rest ih =>
    rw [lookup, List.map_cons, List.mem_cons, not_or, ← ih]
    by_cases hSame : field.1 = key
    · rw [if_pos hSame]
      exact iff_of_false (Option.some_ne_none _) fun h => h.1 hSame.symm
    · rw [if_neg hSame]
      exact ⟨fun h => ⟨fun hKey => hSame hKey.symm, h⟩, And.right⟩

/-- Putting fields into order sorts the values inside, if no key stands twice. -/
theorem lookup_sortedFields {fields : Fields} (hKeys : (fields.map Prod.fst).Nodup) :
    ∀ key, lookup key (sortedFields fields) = (lookup key fields).map sorted := by
  induction fields with
  | nil => exact fun _ => rfl
  | cons field rest ih =>
    intro key
    obtain ⟨k, v⟩ := field
    obtain ⟨hFirst, hRest⟩ := List.nodup_cons.1 hKeys
    rw [sortedFields, lookup_insertNew, ih hRest, ih hRest, lookup]
    by_cases hSame : key = k
    · rw [if_pos hSame, if_pos hSame.symm, lookup_eq_none_iff.2 hFirst]
      rfl
    · rw [if_neg hSame, if_neg fun h => hSame h.symm]

/-- A new key is put between the fields that are there. -/
theorem insert_perm {key : String} {fields : Fields} (hNew : key ∉ fields.map Prod.fst)
    (value : Json) : (insert key value fields).Perm ((key, value) :: fields) := by
  induction fields with
  | nil => exact .refl _
  | cons field rest ih =>
    obtain ⟨k, v⟩ := field
    rw [List.map_cons, List.mem_cons, not_or] at hNew
    rw [insert, if_neg fun hSame => hNew.1 hSame.symm]
    split
    · exact .refl _
    · exact ((ih hNew.2).cons (k, v)).trans (.swap _ _ rest)

/-- No key stands twice in fields that have been put into order. -/
theorem nodup_keys_sortedFields (fields : Fields) :
    ((sortedFields fields).map Prod.fst).Nodup := by
  induction fields with
  | nil => exact List.nodup_nil
  | cons field rest ih =>
    obtain ⟨key, value⟩ := field
    rw [sortedFields, insertNew]
    split
    · exact ih
    · rename_i hMissing
      have hNew := lookup_eq_none_iff.1 (Option.not_isSome_iff_eq_none.1 hMissing)
      refine ((insert_perm hNew value.sorted).map Prod.fst).nodup_iff.2 ?_
      exact List.nodup_cons.2 ⟨hNew, ih⟩

/-- The values inside fields that are in order are so, too. -/
theorem sorted_of_lookup {key : String} {value : Json} {fields : Fields}
    (hSorted : sortedFields fields = fields) (hLookup : lookup key fields = some value) :
    value.sorted = value := by
  have hKeys : (fields.map Prod.fst).Nodup := hSorted ▸ nodup_keys_sortedFields fields
  have hInside := lookup_sortedFields hKeys key
  rw [hSorted, hLookup, Option.map_some] at hInside
  exact (Option.some.inj hInside).symm

theorem sortedItems_eq (items : List Json) : sortedItems items = items.map sorted := by
  induction items with
  | nil => rfl
  | cons item rest ih => rw [sortedItems, ih, List.map_cons]

/-- The items of an array that is in order are so, too. -/
theorem sorted_of_mem {items : List Json} (hSorted : sortedItems items = items) :
    ∀ item ∈ items, item.sorted = item := by
  rw [sortedItems_eq] at hSorted
  exact List.map_inj_left.1 (hSorted.trans (List.map_id items).symm)

/-! ## Forms of values -/

/-- A form of values that leaves those without fields as they are. -/
structure Plain (form : Json → Json) : Prop where
  str : ∀ text, form (.str text) = .str text
  float : ∀ x, form (.float x) = .float x
  int : ∀ n, form (.int n) = .int n
  bool : ∀ b, form (.bool b) = .bool b

theorem plain_id : Plain id := ⟨fun _ => rfl, fun _ => rfl, fun _ => rfl, fun _ => rfl⟩

theorem plain_sorted : Plain sorted := by
  constructor <;> intro value <;> simp only [sorted]

/-! ## Slots -/

/-- The fields that are written for slots. -/
def written (slots : List (String × Option Json)) : Fields :=
  slots.flatMap fun slot => (slot.2.map (slot.1, ·)).toList

theorem written_nil : written [] = [] := rfl

theorem written_cons (slot : String × Option Json) (slots : List (String × Option Json)) :
    written (slot :: slots) = (slot.2.map (slot.1, ·)).toList ++ written slots :=
  List.flatMap_cons

/-- Only keys of slots are written, and in the order of the slots. -/
theorem keys_written_sublist (slots : List (String × Option Json)) :
    ((written slots).map Prod.fst).Sublist (slots.map Prod.fst) := by
  induction slots with
  | nil => exact List.Sublist.refl []
  | cons slot rest ih =>
    rw [written_cons, List.map_append, List.map_cons]
    cases slot.2 with
    | none => exact ih.cons slot.1
    | some value => exact ih.cons_cons slot.1

variable {slots : List (String × Option Json)} {key : String} {value : Option Json}

/-- Every slot is found by its key. -/
theorem lookup_written (hKeys : (slots.map Prod.fst).Nodup) (hSlot : (key, value) ∈ slots) :
    lookup key (written slots) = value := by
  induction slots with
  | nil => cases hSlot
  | cons slot rest ih =>
    obtain ⟨hFirst, hRest⟩ := List.nodup_cons.1 hKeys
    rw [written_cons]
    rcases List.mem_cons.1 hSlot with rfl | hLater
    · cases value with
      | some value => exact if_pos rfl
      | none =>
        refine lookup_eq_none_iff.2 fun hMem => hFirst ?_
        exact (keys_written_sublist rest).subset hMem
    · have hNe : slot.1 ≠ key := by
        rintro rfl
        exact hFirst (List.mem_map.2 ⟨_, hLater, rfl⟩)
      rw [← ih hRest hLater]
      cases slot.2 with
      | none => rfl
      | some value => exact if_neg hNe

theorem lookup_written_id (hKeys : (slots.map Prod.fst).Nodup) (hSlot : (key, value) ∈ slots) :
    lookup key (written slots) = value.map id := by
  rw [Option.map_id_fun, id]
  exact lookup_written hKeys hSlot

theorem lookup_sorted_written (hKeys : (slots.map Prod.fst).Nodup)
    (hSlot : (key, value) ∈ slots) :
    lookup key (sortedFields (written slots)) = value.map sorted := by
  rw [lookup_sortedFields ((keys_written_sublist slots).nodup hKeys),
    lookup_written hKeys hSlot]

/-- What an optional field was written from is read back. -/
theorem field_of_slot {α : Type} {fields : Fields} {write : α → Json} {field? : Option α}
    {read : Reader (Option α)} (hLookup : lookup key fields = field?.map write)
    (hRead : ∀ x, read (write x) = .ok (some x)) :
    field fields key read none = .ok field? := by
  cases field? with
  | none => exact field_of_missing hLookup read none
  | some x => rw [field_of_lookup hLookup read none, hRead]

/-- A reader that refuses null reads the same where null is allowed. -/
theorem readOption_of_read {α : Type} {read : Reader α} {x : Json} {result : α}
    (hRead : read x = .ok result) (hNull : ∀ other, read .null ≠ .ok other) :
    readOption read x = .ok (some result) := by
  cases x with
  | null => exact absurd hRead (hNull result)
  | bool | int | float | str | arr | obj =>
    show (read _).map some = .ok (some result)
    rw [hRead]
    rfl

/-! ## Readings that succeed -/

/-- A reading in two steps succeeds when both do. -/
theorem bind_eq_ok {ε α β : Type} {first : Except ε α} {next : α → Except ε β} {result : β} :
    first >>= next = .ok result ↔ ∃ x, first = .ok x ∧ next x = .ok result := by
  cases first with
  | error cause => exact ⟨nofun, nofun⟩
  | ok x => exact ⟨fun h => ⟨x, rfl, h⟩, fun ⟨_, hFirst, h⟩ => Except.ok.inj hFirst ▸ h⟩

/-- A field that is read is there or has its default. -/
theorem field_eq_ok {α : Type} {fields : Fields} {key : String} {read : Reader α}
    {absent result : α} (hField : field fields key read absent = .ok result) :
    (∃ value, lookup key fields = some value ∧ read value = .ok result) ∨ result = absent := by
  unfold field at hField
  split at hField
  · exact .inl ⟨_, ‹_›, hField⟩
  · exact .inr (Except.ok.inj hField).symm

/-! ## Items -/

/-- Written items are read back when each of them is. -/
theorem mapM_map_eq_ok {α β : Type} {write : α → Json} {read : Reader β} {result : α → β}
    {items : List α} (hRead : ∀ item ∈ items, read (write item) = .ok (result item)) :
    (items.map write).mapM read = .ok (items.map result) := by
  induction items with
  | nil => rfl
  | cons item rest ih =>
    rw [List.map_cons, List.mapM_cons, hRead item List.mem_cons_self,
      ih fun other hOther => hRead other (List.mem_cons_of_mem item hOther)]
    rfl

/-- What is read from items is read from one of them. -/
theorem mem_of_mapM_eq_ok {β : Type} {read : Reader β} {items : List Json} {results : List β}
    (hRead : items.mapM read = .ok results) {x : β} (hMem : x ∈ results) :
    ∃ item ∈ items, read item = .ok x := by
  induction items generalizing results with
  | nil =>
    cases hRead
    cases hMem
  | cons item rest ih =>
    rw [List.mapM_cons] at hRead
    obtain ⟨first, hFirst, hRead⟩ := bind_eq_ok.1 hRead
    obtain ⟨others, hOthers, hRead⟩ := bind_eq_ok.1 hRead
    cases hRead
    rcases List.mem_cons.1 hMem with rfl | hLater
    · exact ⟨item, List.mem_cons_self, hFirst⟩
    · obtain ⟨found, hFound, hResult⟩ := ih hOthers hLater
      exact ⟨found, List.mem_cons_of_mem item hFound, hResult⟩

/-! ## Values inside values -/

/-- A value is another one or stands in it. -/
inductive Within (x : Json) : Json → Prop where
  | self : Within x x
  | item {items : List Json} {item : Json} (hItem : item ∈ items) (hInside : Within x item) :
      Within x (.arr items)
  | field {fields : Fields} {key : String} {value : Json}
      (hField : lookup key fields = some value) (hInside : Within x value) :
      Within x (.obj fields)

theorem Within.trans {x y z : Json} (hInner : x.Within y) (hOuter : y.Within z) : x.Within z := by
  induction hOuter with
  | self => exact hInner
  | item hItem _ ih => exact .item hItem ih
  | field hField _ ih => exact .field hField ih

/-- Whether a value holds others. -/
def isBranch : Json → Bool
  | .arr _ | .obj _ => true
  | _ => false

/-- What passes from the items of an array and from the values of the keys of an object
to the whole holds of every value. -/
@[elab_as_elim]
theorem induct {motive : Json → Prop}
    (inArray : ∀ items, (∀ item ∈ items, motive item) → motive (.arr items))
    (inObject : ∀ fields, (∀ key value, lookup key fields = some value → motive value) →
      motive (.obj fields))
    (atLeaf : ∀ leaf : Json, leaf.isBranch = false → motive leaf)
    (value : Json) : motive value := by
  refine @Json.rec motive (fun items => ∀ item ∈ items, motive item)
    (fun fields => ∀ key value, lookup key fields = some value → motive value)
    (fun field => motive field.2) ?_ ?_ ?_ ?_ ?_ inArray inObject ?_ ?_ ?_ ?_ ?_ value
  -- The five kinds of values that hold no others.
  iterate 5 intros; exact atLeaf _ rfl
  · exact fun item hMem => absurd hMem List.not_mem_nil
  · intro first rest ihFirst ihRest item hMem
    rcases List.mem_cons.1 hMem with rfl | hRest
    · exact ihFirst
    · exact ihRest item hRest
  · exact fun key value hLookup => nomatch hLookup
  · intro first rest ihFirst ihRest key value hLookup
    obtain ⟨firstKey, firstValue⟩ := first
    rw [lookup] at hLookup
    split at hLookup
    · exact Option.some.inj hLookup ▸ ihFirst
    · exact ihRest key value hLookup
  · exact fun _ _ ih => ih

end Pagewright.Json
