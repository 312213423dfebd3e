import Pagewright.Proofs.Config.Setting

/-!
# What layers do to a setting

An assignment leaves a setting as it is, gives it a value, or does to it something
else: it puts another thing in the place of the whole group, merges a table into the
value, or sets a part of it. Of a row of assignments, the last that does not leave the
setting as it is decides. The assignments of a layer and the entries of a table have no
order of their own, so of these only one may touch the setting.

## Main results

* `lastEffect_of_last`, `lastEffect_without` — which effect of a row decides, and which
  may be left out.
* `soleEffect_perm`, `soleEffect_eq_lastEffect` — of effects without an order only one
  decides, and does so in every order.
* `Effect.Left.apply` — one assignment leaves behind what its effect says.
* `Effect.Left.foldl_apply`, `Effect.Left.foldlM_applyLayer` — and so do the assignments
  of one layer, and those of all layers.
-/

namespace Pagewright.Config

open Json (bind_eq_ok)

/-- What something does to a setting. -/
inductive Effect where
  | untouched
  | set (value : Value)
  /-- Neither: what the setting has afterwards depends on what was there before. -/
  | unsettled

namespace Effect

/-- One effect and then another. -/
def andThen (first : Effect) : Effect → Effect
  | untouched => first
  | second => second

/-- Two effects whose order is not known. -/
def beside : Effect → Effect → Effect
  | untouched, second => second
  | first, untouched => first
  | _, _ => unsettled

/-- Whether an effect leaves behind what is found, if `base` was there before. -/
def Left (base found : Option Value) : Effect → Prop
  | untouched => found = base
  | set value => found = some value
  | unsettled => True

instance decidableEqUnsettled (effect : Effect) : Decidable (effect = unsettled) :=
  match effect with
  | untouched | set _ => isFalse nofun
  | unsettled => isTrue rfl

@[simp] theorem andThen_untouched (first : Effect) : first.andThen untouched = first := rfl

@[simp] theorem untouched_andThen (second : Effect) : untouched.andThen second = second := by
  cases second <;> rfl

@[simp] theorem beside_untouched (first : Effect) : first.beside untouched = first := by
  cases first <;> rfl

@[simp] theorem untouched_beside (second : Effect) : untouched.beside second = second := rfl

theorem beside_left_comm (first second third : Effect) :
    first.beside (second.beside third) = second.beside (first.beside third) := by
  cases first <;> cases second <;> cases third <;> rfl

theorem beside_eq_unsettled {first second : Effect} (hFirst : first ≠ untouched)
    (hSecond : second ≠ untouched) : first.beside second = unsettled := by
  cases first with
  | untouched => exact absurd rfl hFirst
  | set | unsettled =>
    cases second with
    | untouched => exact absurd rfl hSecond
    | set | unsettled => rfl

theorem andThen_assoc (first second third : Effect) :
    (first.andThen second).andThen third = first.andThen (second.andThen third) := by
  cases third <;> rfl

end Effect

/-- What effects come to, one after the other. -/
def lastEffect : List Effect → Effect
  | [] => .untouched
  | effect :: rest => effect.andThen (lastEffect rest)

theorem lastEffect_append (effects others : List Effect) :
    lastEffect (effects ++ others) = (lastEffect effects).andThen (lastEffect others) := by
  induction effects with
  | nil => rw [List.nil_append, lastEffect, Effect.untouched_andThen]
  | cons effect rest ih => rw [List.cons_append, lastEffect, ih, lastEffect, Effect.andThen_assoc]

theorem lastEffect_eq_untouched_iff {effects : List Effect} :
    lastEffect effects = .untouched ↔ ∀ effect ∈ effects, effect = .untouched := by
  induction effects with
  | nil => simp [lastEffect]
  | cons effect rest ih =>
    rw [lastEffect, List.forall_mem_cons, ← ih]
    cases lastEffect rest <;> simp [Effect.andThen]

theorem lastEffect_eq_set_iff {effects : List Effect} {value : Value} :
    lastEffect effects = .set value ↔
      ∃ before after, effects = before ++ .set value :: after ∧
        ∀ effect ∈ after, effect = .untouched := by
  constructor
  · intro hLast
    induction effects with
    | nil => cases hLast
    | cons effect rest ih =>
      rw [lastEffect] at hLast
      cases hRest : lastEffect rest with
      | untouched =>
        rw [hRest, Effect.andThen_untouched] at hLast
        exact ⟨[], rest, by rw [hLast, List.nil_append], lastEffect_eq_untouched_iff.1 hRest⟩
      | set other =>
        rw [hRest] at hLast
        obtain ⟨before, after, rfl, hAfter⟩ := ih (hRest.trans hLast)
        exact ⟨effect :: before, after, rfl, hAfter⟩
      | unsettled =>
        rw [hRest] at hLast
        cases hLast
  · rintro ⟨before, after, rfl, hAfter⟩
    rw [lastEffect_append, lastEffect, lastEffect_eq_untouched_iff.2 hAfter]
    rfl

theorem lastEffect_ne_set {effects : List Effect} (h : ∀ effect ∈ effects, ∀ v, effect ≠ .set v)
    (value : Value) : lastEffect effects ≠ .set value := by
  intro hLast
  obtain ⟨before, after, rfl, -⟩ := lastEffect_eq_set_iff.1 hLast
  exact h (.set value) (by simp) value rfl

/-- An effect decides if behind it nothing sets a value and all is settled. -/
theorem lastEffect_of_last {before after : List Effect} {effect : Effect}
    (hSettled : lastEffect (before ++ effect :: after) ≠ .unsettled)
    (hEffect : effect ≠ .untouched) (hAfter : ∀ later ∈ after, ∀ v, later ≠ .set v) :
    lastEffect (before ++ effect :: after) = effect := by
  rw [lastEffect_append, lastEffect] at hSettled ⊢
  cases hLast : lastEffect after with
  | set value => exact absurd hLast (lastEffect_ne_set hAfter value)
  | unsettled =>
    rw [hLast] at hSettled
    exact absurd rfl hSettled
  | untouched =>
    rw [Effect.andThen_untouched]
    cases effect with
    | untouched => exact absurd rfl hEffect
    | set value => rfl
    | unsettled => rfl

/-- An effect that sets no value may be left out if all is settled with it. -/
theorem lastEffect_without {before after : List Effect} {effect : Effect}
    (hSettled : lastEffect (before ++ effect :: after) ≠ .unsettled)
    (hEffect : ∀ v, effect ≠ .set v) :
    lastEffect (before ++ after) = lastEffect (before ++ effect :: after) := by
  rw [lastEffect_append, lastEffect] at hSettled
  rw [lastEffect_append, lastEffect_append, lastEffect]
  cases hLast : lastEffect after with
  | set value => rfl
  | unsettled => rfl
  | untouched =>
    rw [hLast, Effect.andThen_untouched] at hSettled
    rw [Effect.andThen_untouched, Effect.andThen_untouched]
    cases effect with
    | untouched => rfl
    | set value => exact absurd rfl (hEffect value)
    | unsettled => exact absurd rfl hSettled

/-! ## Effects without an order -/

/-- What effects come to whose order is not known: nothing is settled where more than one
of them touches the setting. -/
def soleEffect : List Effect → Effect
  | [] => .untouched
  | effect :: rest => effect.beside (soleEffect rest)

theorem soleEffect_perm {effects others : List Effect} (hPerm : effects.Perm others) :
    soleEffect effects = soleEffect others := by
  induction hPerm with
  | nil => rfl
  | cons effect _ ih => rw [soleEffect, ih, soleEffect]
  | swap first second rest => exact Effect.beside_left_comm second first (soleEffect rest)
  | trans _ _ ihFirst ihSecond => exact ihFirst.trans ihSecond

theorem soleEffect_eq_untouched_iff {effects : List Effect} :
    soleEffect effects = .untouched ↔ ∀ effect ∈ effects, effect = .untouched := by
  induction effects with
  | nil => simp [soleEffect]
  | cons effect rest ih =>
    rw [soleEffect, List.forall_mem_cons, ← ih]
    cases effect <;> cases soleEffect rest <;> simp [Effect.beside]

/-- Where all is settled, an effect that touches the setting decides. -/
theorem soleEffect_eq_of_mem {effects : List Effect} {effect : Effect}
    (hSettled : soleEffect effects ≠ .unsettled) (hMem : effect ∈ effects)
    (hEffect : effect ≠ .untouched) : soleEffect effects = effect := by
  induction effects with
  | nil => cases hMem
  | cons first rest ih =>
    rw [soleEffect] at hSettled ⊢
    rcases List.mem_cons.1 hMem with rfl | hMem
    · have hRest : soleEffect rest = .untouched := by
        by_contra hTouched
        exact hSettled (Effect.beside_eq_unsettled hEffect hTouched)
      rw [hRest, Effect.beside_untouched]
    · have hRest : soleEffect rest ≠ .untouched := fun hNone =>
        hEffect (soleEffect_eq_untouched_iff.1 hNone effect hMem)
      have hFirst : first = .untouched := by
        by_contra hTouched
        exact hSettled (Effect.beside_eq_unsettled hTouched hRest)
      rw [hFirst, Effect.untouched_beside] at hSettled ⊢
      exact ih hSettled hMem

/-- What is set is set by one of the effects. -/
theorem mem_of_soleEffect_eq_set {effects : List Effect} {value : Value}
    (hSet : soleEffect effects = .set value) : .set value ∈ effects := by
  by_contra hNot
  have hNone : ∀ effect ∈ effects, effect = .untouched := by
    intro effect hMem
    by_contra hTouched
    have hSole := soleEffect_eq_of_mem (by rw [hSet]; nofun) hMem hTouched
    rw [hSet] at hSole
    exact hNot (hSole ▸ hMem)
  rw [soleEffect_eq_untouched_iff.2 hNone] at hSet
  cases hSet

/-- Where all is settled, the order in which the effects come about does not matter. -/
theorem soleEffect_eq_lastEffect {effects : List Effect}
    (hSettled : soleEffect effects ≠ .unsettled) : soleEffect effects = lastEffect effects := by
  induction effects with
  | nil => rfl
  | cons effect rest ih =>
    rw [soleEffect] at hSettled
    rw [soleEffect, lastEffect]
    by_cases hEffect : effect = .untouched
    · rw [hEffect, Effect.untouched_beside] at hSettled
      rw [hEffect, Effect.untouched_beside, Effect.untouched_andThen, ih hSettled]
    · have hRest : soleEffect rest = .untouched := by
        by_contra hTouched
        exact hSettled (Effect.beside_eq_unsettled hEffect hTouched)
      have hLast := lastEffect_eq_untouched_iff.2 (soleEffect_eq_untouched_iff.1 hRest)
      rw [hRest, hLast, Effect.beside_untouched, Effect.andThen_untouched]

theorem Effect.Left.ofLast {base found : Option Value} {first : Effect} {effects : List Effect}
    (hLeft : (first.andThen (lastEffect effects)).Left base found) :
    (first.andThen (soleEffect effects)).Left base found := by
  by_cases hSettled : soleEffect effects = .unsettled
  · rw [hSettled]
    trivial
  · rwa [soleEffect_eq_lastEffect hSettled]

/-! ## Effects of assignments -/

/-- The effect of a value at the name of a setting: a table is merged into what is there. -/
def valueEffect : Value → Effect
  | .table .. => .unsettled
  | value => .set value

/-- The effect of an entry of a group on the setting of a name. -/
def entryEffect (name : String) (entry : String × Value) : Effect :=
  if Text.small entry.1 = name then valueEffect entry.2 else .untouched

/-- The effect of a value for the whole group. -/
def groupEffect (name : String) : Value → Effect
  | .table _ entries => soleEffect (entries.map (entryEffect name))
  | _ => .unsettled

/-- The effect of a key with a value that begins in the group of a setting. -/
def innerEffect (name : String) (value : Value) : Key → Effect
  | [] => groupEffect name value
  | [.child other] => entryEffect name (other, value)
  | .child other :: _ => if Text.small other = name then .unsettled else .untouched
  | .item _ :: _ => .unsettled

/-- The effect of an assignment on a setting. -/
def Assignment.effect (s : Setting) (assignment : Assignment) : Effect :=
  match assignment.key with
  | .child group :: rest =>
    if Text.small group = s.group then innerEffect s.name assignment.value rest else .untouched
  | _ => .unsettled

/-! ## What assignments leave behind -/

theorem inside_eq_entryAt (name : String) (here : Value) :
    inside name here = entryAt name here.entries := by
  cases here <;> rfl

/-- The value of a setting, with a stand-in where the group is not there. -/
theorem slot_eq_inside (s : Setting) (root : Value) {absent : Value}
    (hAbsent : absent.entries = []) :
    slot s root = inside s.name ((entryAt s.group root.entries).getD absent) := by
  unfold slot
  cases entryAt s.group root.entries with
  | none => rw [Option.bind_none, Option.getD_none, inside_eq_entryAt, hAbsent, entryAt]
  | some group => rfl

theorem entryAt_mergeEntry_ne {name other : String} (hName : Text.small other ≠ name)
    (value : Value) (entries : Entries) :
    entryAt name (mergeEntry other value entries) = entryAt name entries := by
  cases value <;> exact entryAt_setEntry_ne hName _ entries

namespace Effect.Left

variable {base : Option Value} {here root : Value} {effect : Effect} {name : String}

/-- An entry that is merged into a group. -/
theorem mergeEntry (hLeft : effect.Left base (inside name here)) (other : String)
    (value : Value) :
    (effect.andThen (entryEffect name (other, value))).Left base
      (inside name (.ofEntries (mergeEntry other value here.entries))) := by
  unfold entryEffect
  by_cases hName : Text.small other = name
  · rw [if_pos hName]
    subst hName
    cases value with
    | table => trivial
    | scalar | list => exact entryAt_setEntry_self _ _ _
  · rw [inside_eq_entryAt] at hLeft
    rw [if_neg hName, andThen_untouched, inside_eq_entryAt, Value.ofEntries, Value.entries,
      entryAt_mergeEntry_ne hName]
    exact hLeft

/-- A table that is merged into a group. -/
theorem mergeEntries {incoming : Entries} (hLeft : effect.Left base (inside name here)) :
    (effect.andThen (lastEffect (incoming.map (entryEffect name)))).Left base
      (inside name (mergeEntries incoming here)) := by
  induction incoming generalizing effect here with
  | nil => exact hLeft
  | cons entry rest ih =>
    obtain ⟨other, value⟩ := entry
    rw [List.map_cons, lastEffect, ← andThen_assoc, Config.mergeEntries]
    exact ih (hLeft.mergeEntry other value)

/-- A value that is put at a key in the group of a setting. -/
theorem put_inner {s : Setting} {group : String} (hGroup : Text.small group = s.group)
    (hLeft : effect.Left base (slot s root)) (value : Value) (rest : Key) :
    (effect.andThen (innerEffect s.name value rest)).Left base
      (slot s (put (.child group :: rest) value root)) := by
  have hMissing : Value.missing.entries = [] := rfl
  match rest with
  | [] =>
    cases value with
    | scalar | list => trivial
    | table origin incoming =>
      simp only [put, Config.mergeEntry, slot, Value.entries, Value.ofEntries, hGroup,
        entryAt_setEntry_self, Option.bind_some]
      rw [slot_eq_inside s root (show (Value.ofEntries []).entries = [] from rfl)] at hLeft
      exact hLeft.mergeEntries.ofLast
  | [.child other] =>
    simp only [put, slot, Value.entries, Value.ofEntries, hGroup, entryAt_setEntry_self,
      Option.bind_some]
    rw [slot_eq_inside s root hMissing] at hLeft
    exact hLeft.mergeEntry other value
  | .child other :: step :: more =>
    simp only [innerEffect]
    by_cases hName : Text.small other = s.name
    · rw [if_pos hName]
      trivial
    · rw [if_neg hName, andThen_untouched]
      simp only [put, slot, Value.entries, Value.ofEntries, hGroup, entryAt_setEntry_self,
        Option.bind_some, inside, entryAt_setEntry_ne hName]
      rw [slot_eq_inside s root hMissing, inside_eq_entryAt] at hLeft
      exact hLeft
  | .item index :: more => trivial

/-- A value that is put at a key in another group. -/
theorem slot_put_ne {s : Setting} {group : String} (hGroup : Text.small group ≠ s.group)
    (value : Value) (rest : Key) :
    slot s (put (.child group :: rest) value root) = slot s root := by
  cases rest with
  | nil => simp [put, slot, Value.entries, Value.ofEntries, entryAt_mergeEntry_ne hGroup]
  | cons step more =>
    simp [put, slot, Value.entries, Value.ofEntries, entryAt_setEntry_ne hGroup]

/-- An assignment. -/
theorem apply {s : Setting} (hLeft : effect.Left base (slot s root)) (assignment : Assignment) :
    (effect.andThen (assignment.effect s)).Left base (slot s (assignment.apply root)) := by
  obtain ⟨key, value⟩ := assignment
  match key with
  | [] => trivial
  | .item index :: rest => trivial
  | .child group :: rest =>
    simp only [Assignment.effect, Assignment.apply]
    by_cases hGroup : Text.small group = s.group
    · rw [if_pos hGroup]
      exact hLeft.put_inner hGroup value rest
    · rw [if_neg hGroup, andThen_untouched, slot_put_ne hGroup]
      exact hLeft

/-- The assignments of a layer, one after the other. -/
theorem foldl_apply {s : Setting} {assignments : List Assignment}
    (hLeft : effect.Left base (slot s root)) :
    (effect.andThen (lastEffect (assignments.map (Assignment.effect s)))).Left base
      (slot s (assignments.foldl Assignment.apply root)) := by
  induction assignments generalizing effect root with
  | nil => exact hLeft
  | cons assignment rest ih =>
    rw [List.map_cons, lastEffect, ← andThen_assoc, List.foldl_cons]
    exact ih (hLeft.apply assignment)

end Effect.Left

/-! ## Layers -/

/-- The effect of a layer on a setting; a layer that cannot be read has none. -/
def layerEffect (s : Setting) : Except ConfigError (List Assignment) → Effect
  | .ok assignments => soleEffect (assignments.map (Assignment.effect s))
  | .error _ => .untouched

/-- The value that a layer gives to a setting by itself. -/
def layerValue? (s : Setting) : Except ConfigError (List Assignment) → Option Value
  | .ok assignments => slot s (assignments.foldl Assignment.apply .missing)
  | .error _ => none

theorem layerEffect_left (s : Setting) (layer : Except ConfigError (List Assignment)) :
    (layerEffect s layer).Left none (layerValue? s layer) := by
  cases layer with
  | error cause => rfl
  | ok assignments =>
    have hNone : Effect.untouched.Left none (slot s .missing) := rfl
    rw [← Effect.untouched_andThen (layerEffect s (.ok assignments))]
    exact hNone.foldl_apply.ofLast

/-- All layers, one after the other. -/
theorem Effect.Left.foldlM_applyLayer {s : Setting} {base : Option Value} {root layered : Value}
    {effect : Effect}
    {layers : List (Except ConfigError (List Assignment))}
    (hLayers : layers.foldlM Loader.applyLayer root = .ok layered)
    (hLeft : effect.Left base (slot s root)) :
    (effect.andThen (lastEffect (layers.map (layerEffect s)))).Left base (slot s layered) := by
  induction layers generalizing effect root with
  | nil =>
    obtain rfl : root = layered := Except.ok.inj hLayers
    exact hLeft
  | cons layer rest ih =>
    rw [List.foldlM_cons] at hLayers
    obtain ⟨next, hNext, hRest⟩ := bind_eq_ok.1 hLayers
    obtain ⟨assignments, rfl, hApply⟩ := bind_eq_ok.1 hNext
    obtain rfl := Except.ok.inj hApply
    rw [List.map_cons, lastEffect, ← Effect.andThen_assoc]
    exact ih hRest hLeft.foldl_apply.ofLast

end Pagewright.Config
