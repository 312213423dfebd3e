import Pagewright.Proofs.Config.Layers

/-!
# Keys in another order

A loader keeps the keys of a layer, those of the tables in it and its overrides without
an order: which of them is applied first is not known. Two loaders are the same but for
this order if one is `Reordered` to the other. What a layer or the overrides do to a
setting is the same for both.

## Main results

* `Assignment.Matched.effect_eq` — tables in another order do the same to a setting.
* `Layer.Reordered.layerEffect_eq`, `Reordered.soleEffect_eq` — and so do layers and
  overrides in another order.
-/

namespace Pagewright.Config

/-! ## Other orders -/

mutual

/-- The same value, with the entries of its tables in another order. -/
inductive Value.Reordered : Value → Value → Prop
  | same (value : Value) : Value.Reordered value value
  | table {origin : Origin} {entries matched others : Entries} :
    Entries.Matched entries matched → matched.Perm others →
    Value.Reordered (.table origin entries) (.table origin others)

/-- The same names in the same order, with values that are reordered. -/
inductive Entries.Matched : Entries → Entries → Prop
  | nil : Entries.Matched [] []
  | cons {name : String} {value other : Value} {entries others : Entries} :
    Value.Reordered value other → Entries.Matched entries others →
    Entries.Matched ((name, value) :: entries) ((name, other) :: others)

end

/-- The same key with a value that is reordered. -/
structure Assignment.Matched (assignment other : Assignment) : Prop where
  key : assignment.key = other.key
  value : assignment.value.Reordered other.value

/-- The same assignments in another order. -/
def Reordered (assignments others : List Assignment) : Prop :=
  ∃ matched, List.Forall₂ Assignment.Matched assignments matched ∧ matched.Perm others

/-- The same layer with its assignments in another order. -/
inductive Layer.Reordered :
    Except ConfigError (List Assignment) → Except ConfigError (List Assignment) → Prop
  | error (cause : ConfigError) : Layer.Reordered (.error cause) (.error cause)
  | ok {assignments others : List Assignment} :
    Config.Reordered assignments others → Layer.Reordered (.ok assignments) (.ok others)

/-- The same loader: its layers have their order, and nothing else has one. -/
structure Loader.Reordered (loader other : Loader) : Prop where
  layers : List.Forall₂ Layer.Reordered loader.layers other.layers
  overrides : Config.Reordered loader.overrides other.overrides

theorem Assignment.Matched.refl (assignment : Assignment) : assignment.Matched assignment :=
  ⟨rfl, .same assignment.value⟩

theorem Reordered.refl (assignments : List Assignment) : Reordered assignments assignments :=
  ⟨assignments, List.forall₂_same.2 fun a _ => .refl a, .refl assignments⟩

theorem Layer.Reordered.refl (layer : Except ConfigError (List Assignment)) :
    Layer.Reordered layer layer := by
  cases layer with
  | error cause => exact .error cause
  | ok assignments => exact .ok (.refl assignments)

theorem Loader.Reordered.refl (loader : Loader) : loader.Reordered loader :=
  ⟨List.forall₂_same.2 fun layer _ => .refl layer, .refl loader.overrides⟩

/-! ## Effects in another order -/

theorem Value.Reordered.valueEffect_eq {value other : Value} (hValue : value.Reordered other) :
    valueEffect value = valueEffect other := by
  cases hValue <;> rfl

theorem Value.Reordered.entryEffect_eq {value other : Value} (hValue : value.Reordered other)
    (name key : String) : entryEffect name (key, value) = entryEffect name (key, other) := by
  rw [entryEffect, entryEffect, hValue.valueEffect_eq]

theorem Entries.Matched.map_entryEffect {entries matched : Entries}
    (hMatched : Entries.Matched entries matched) (name : String) :
    entries.map (entryEffect name) = matched.map (entryEffect name) := by
  induction entries generalizing matched with
  | nil =>
    cases hMatched
    rfl
  | cons entry rest ih =>
    cases hMatched with
    | cons hValue hRest => rw [List.map_cons, List.map_cons, hValue.entryEffect_eq, ih hRest]

/-- The entries of a group touch a setting in any order alike. -/
theorem Value.Reordered.groupEffect_eq {value other : Value} (hValue : value.Reordered other)
    (name : String) : groupEffect name value = groupEffect name other := by
  cases hValue with
  | same => rfl
  | table hMatched hPerm =>
    simp only [groupEffect]
    rw [hMatched.map_entryEffect]
    exact soleEffect_perm (hPerm.map (entryEffect name))

theorem Value.Reordered.innerEffect_eq {value other : Value} (hValue : value.Reordered other)
    (name : String) (rest : Key) : innerEffect name value rest = innerEffect name other rest := by
  match rest with
  | [] => exact hValue.groupEffect_eq name
  | [.child key] => exact hValue.entryEffect_eq name key
  | .child _ :: _ :: _ => rfl
  | .item _ :: _ => rfl

theorem Assignment.Matched.effect_eq {assignment other : Assignment}
    (hMatched : assignment.Matched other) (s : Setting) :
    assignment.effect s = other.effect s := by
  obtain ⟨key, value⟩ := assignment
  obtain ⟨otherKey, otherValue⟩ := other
  obtain rfl : key = otherKey := hMatched.key
  match key with
  | [] => rfl
  | .item _ :: _ => rfl
  | .child group :: rest =>
    simp only [Assignment.effect]
    rw [hMatched.value.innerEffect_eq]

theorem map_eq_of_forall₂ {α β : Type} {R : α → α → Prop} {f : α → β} {xs ys : List α}
    (hAll : List.Forall₂ R xs ys) (hSame : ∀ x y, R x y → f x = f y) : xs.map f = ys.map f := by
  induction hAll with
  | nil => rfl
  | cons hHead _ ih => rw [List.map_cons, List.map_cons, hSame _ _ hHead, ih]

/-- Assignments touch a setting in any order alike. -/
theorem Reordered.soleEffect_eq {assignments others : List Assignment}
    (hOrder : Reordered assignments others) (s : Setting) :
    soleEffect (assignments.map (Assignment.effect s)) =
      soleEffect (others.map (Assignment.effect s)) := by
  obtain ⟨matched, hMatched, hPerm⟩ := hOrder
  rw [map_eq_of_forall₂ hMatched fun _ _ hSame => hSame.effect_eq s]
  exact soleEffect_perm (hPerm.map (Assignment.effect s))

theorem Layer.Reordered.layerEffect_eq {layer other : Except ConfigError (List Assignment)}
    (hLayer : Layer.Reordered layer other) (s : Setting) :
    layerEffect s layer = layerEffect s other := by
  cases hLayer with
  | error => rfl
  | ok hOrder => exact hOrder.soleEffect_eq s

/-- Layers do the same to a setting, whatever the order of their keys. -/
theorem Loader.Reordered.map_layerEffect {loader other : Loader}
    (hOrder : loader.Reordered other) (s : Setting) :
    loader.layers.map (layerEffect s) = other.layers.map (layerEffect s) :=
  map_eq_of_forall₂ hOrder.layers fun _ _ hLayer => hLayer.layerEffect_eq s

end Pagewright.Config
