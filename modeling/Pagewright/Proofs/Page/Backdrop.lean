import Mathlib.Data.List.Basic
import Pagewright.Page.Dialect

/-!
# Backdrops

The background and the padding of a layout node are the settings that an
exported wrapper takes from its style. A wrapper may carry other settings too,
such as a direction or a width; its *backdrop* is what remains without them.

## Main results

* `backdrop_wrapperSettings` — the settings of a style are all backdrop.
* `backdrop_containerSettings` — the direction of a container is not.
* `backdrop_inheritSettings` — a row that takes over the settings of a section
  has its own backdrop and what it leaves unset of the other.
-/

namespace Pagewright.Page

/-- The settings that make up a backdrop, in key order. -/
def backdropKeys : List String := ["background_background", "background_color", "padding"]

/-- The background and padding among some settings. -/
def backdrop (settings : Settings) : Settings :=
  backdropKeys.filterMap fun key =>
    (Json.lookup key settings).map fun value => (key, value)

/-- The backdrop of `inner`, with the settings of `outer` that it leaves unset. -/
def sharedBackdrop (outer inner : Settings) : Settings :=
  backdropKeys.filterMap fun key =>
    ((Json.lookup key inner).or (Json.lookup key outer)).map fun value => (key, value)

theorem backdrop_congr {settings other : Settings}
    (h : ∀ key ∈ backdropKeys, Json.lookup key settings = Json.lookup key other) :
    backdrop settings = backdrop other := by
  refine List.filterMap_congr fun key hKey => ?_
  rw [h key hKey]

@[simp] theorem backdrop_nil : backdrop [] = [] := rfl

/-- The settings of a style are all backdrop. -/
@[simp] theorem backdrop_wrapperSettings (style : Option Layout.Style) :
    backdrop (wrapperSettings style) = wrapperSettings style := by
  cases style with
  | none => rfl
  | some style =>
    simp only [wrapperSettings, backgroundSettings]
    cases style.backgroundColor with
    | none => cases style.padding <;> rfl
    | some color =>
      by_cases hColor : color = ""
      · simp only [if_pos hColor]
        cases style.padding <;> rfl
      · simp only [if_neg hColor]
        cases style.padding <;> rfl

/-- The settings of a style set nothing but its backdrop. -/
theorem lookup_wrapperSettings {key : String} (hKey : key ∉ backdropKeys)
    (style : Option Layout.Style) : Json.lookup key (wrapperSettings style) = none := by
  have hKeys : "background_background" ≠ key ∧ "background_color" ≠ key ∧ "padding" ≠ key := by
    simpa [backdropKeys, eq_comm] using hKey
  cases style with
  | none => rfl
  | some style =>
    simp only [wrapperSettings, backgroundSettings]
    cases style.padding <;> cases style.backgroundColor with
    | none => simp [Json.lookup, hKeys]
    | some color => by_cases hColor : color = "" <;> simp [Json.lookup, hKeys, hColor]

/-- The settings of a container set its backdrop and a direction only. -/
theorem lookup_containerSettings {key : String} (hKey : key ∉ backdropKeys)
    (hDirection : "flex_direction" ≠ key) (style : Option Layout.Style) (isRow : Bool) :
    Json.lookup key (containerSettings style isRow) = none := by
  unfold containerSettings
  dsimp only
  split
  · rw [Json.lookup_insert_ne hDirection, lookup_wrapperSettings hKey]
  · exact lookup_wrapperSettings hKey style

/-- Setting another key leaves the backdrop alone. -/
theorem backdrop_insert {key : String} (hKey : key ∉ backdropKeys) (value : Json)
    (settings : Settings) : backdrop (Json.insert key value settings) = backdrop settings := by
  refine backdrop_congr fun other hOther => ?_
  have hNe : key ≠ other := fun hEq => hKey (hEq ▸ hOther)
  exact Json.lookup_insert_ne hNe value settings

/-- The direction of a container is not part of its backdrop. -/
@[simp] theorem backdrop_containerSettings (style : Option Layout.Style) (isRow : Bool) :
    backdrop (containerSettings style isRow) = wrapperSettings style := by
  unfold containerSettings
  dsimp only
  split
  · rw [backdrop_insert (by decide), backdrop_wrapperSettings]
  · exact backdrop_wrapperSettings style

/-! ## Taking over settings -/

theorem lookup_insertNew (key other : String) (value : Json) (settings : Settings) :
    Json.lookup other (Json.insertNew key value settings) =
      (Json.lookup other settings).or (if key = other then some value else none) := by
  unfold Json.insertNew
  by_cases hEq : key = other
  · subst hEq
    cases hOld : Json.lookup key settings with
    | some old => simp [hOld]
    | none => simp [Json.lookup_insert_self]
  · rw [if_neg hEq, Option.or_none]
    split
    · rfl
    · exact Json.lookup_insert_ne hEq value settings

theorem lookup_inheritSettings (key : String) (outer : Settings) :
    ∀ inner : Settings, Json.lookup key (inheritSettings outer inner) =
      (Json.lookup key inner).or (Json.lookup key outer) := by
  induction outer with
  | nil => intro inner; rw [Json.lookup, Option.or_none]; rfl
  | cons entry rest ih =>
    intro inner
    obtain ⟨k, v⟩ := entry
    have hStep : inheritSettings ((k, v) :: rest) inner =
        inheritSettings rest (Json.insertNew k v inner) := rfl
    rw [hStep, ih, lookup_insertNew, Option.or_assoc, Json.lookup]
    by_cases hKey : k = key <;> simp [hKey]

/-- Nothing is set only if neither side sets anything. -/
theorem isEmpty_inheritSettings (outer : Settings) :
    ∀ inner : Settings,
      (inheritSettings outer inner).isEmpty = (outer.isEmpty && inner.isEmpty) := by
  induction outer with
  | nil => intro inner; rfl
  | cons entry rest ih =>
    intro inner
    obtain ⟨key, value⟩ := entry
    have hStep : inheritSettings ((key, value) :: rest) inner =
        inheritSettings rest (Json.insertNew key value inner) := rfl
    have hSet : (Json.insertNew key value inner).isEmpty = false := by
      cases hNew : Json.insertNew key value inner with
      | cons first others => rfl
      | nil =>
        have hLookup := lookup_insertNew key key value inner
        rw [hNew, if_pos rfl] at hLookup
        cases hOld : Json.lookup key inner <;> simp [hOld, Json.lookup] at hLookup
    rw [hStep, ih, hSet, Bool.and_false, List.isEmpty_cons, Bool.false_and]

/-- A wrapper that takes over settings has its own backdrop and what it leaves
unset of the other. -/
theorem backdrop_inheritSettings (outer inner : Settings) :
    backdrop (inheritSettings outer inner) = sharedBackdrop outer inner := by
  refine List.filterMap_congr fun key _ => ?_
  rw [lookup_inheritSettings]

end Pagewright.Page
