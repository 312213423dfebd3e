import Pagewright.Format.Registry
import Pagewright.Proofs.Layout.Census

/-!
# Registries after any registrations

Whatever is registered in whatever order, a registry answers as a table from
names to formats in which the last registration under a name counts. Its names
are the registered ones, each once and in ascending order; reading and writing
go to the format that was registered last under the name, and registrations
under other names do not matter.

## Main results

* `names_registerAll`, `find?_registerAll` — the names of a run of
  registrations and what is found under them.
* `registry_keeps_last` — the laws of runs, from an empty registry and from the
  standard one.
-/

namespace Pagewright

open Layout (distinctNames insertName mem_distinctNames)

/-- Whether a format is one of those that come with the library. -/
def Format.IsStandard (format : Format) : Prop :=
  format = layout ∨ format = html ∨ ∃ title dialect, format = pageBuilder title dialect

namespace Registry

/-! ## Runs of registrations -/

/-- Registers formats one after the other. -/
def registerAll (registry : Registry) (formats : List Format) : Registry :=
  formats.foldl register registry

/-- The last format of a name in a list. -/
def lastNamed? (name : String) (formats : List Format) : Option Format :=
  formats.reverse.find? (·.name = name)

/-- The formats of the standard registry in the order of their registration. -/
def standardFormats : List Format :=
  [Format.layout, Format.html, Format.pageBuilder Page.defaultTitle .classic]

theorem registerAll_concat (registry : Registry) (formats : List Format) (format : Format) :
    registry.registerAll (formats ++ [format]) =
      (registry.registerAll formats).register format :=
  List.foldl_concat ..

theorem defaults_registerAll (formats : List Format) :
    defaults.registerAll formats = empty.registerAll (standardFormats ++ formats) := by
  rw [registerAll, registerAll, List.foldl_append]
  rfl

theorem lastNamed?_concat (name : String) (formats : List Format) (format : Format) :
    lastNamed? name (formats ++ [format]) =
      if format.name = name then some format else lastNamed? name formats := by
  rw [lastNamed?, List.reverse_concat, List.find?_cons]
  by_cases hName : format.name = name
  · simp [hName]
  · simp [hName, lastNamed?]

theorem name_of_lastNamed? {name : String} {formats : List Format} {format : Format}
    (hLast : lastNamed? name formats = some format) : format.name = name := by
  have hTest := List.find?_some hLast
  exact of_decide_eq_true hTest

theorem mem_of_lastNamed? {name : String} {formats : List Format} {format : Format}
    (hLast : lastNamed? name formats = some format) : format ∈ formats :=
  List.mem_reverse.1 (List.mem_of_find?_eq_some hLast)

theorem lastNamed?_isSome_iff {name : String} {formats : List Format} :
    (lastNamed? name formats).isSome = true ↔ ∃ format ∈ formats, format.name = name := by
  simp [lastNamed?, List.find?_isSome]

/-- Formats of other names do not matter. -/
theorem lastNamed?_filter (name : String) (formats : List Format) :
    lastNamed? name (formats.filter (·.name = name)) = lastNamed? name formats := by
  rw [lastNamed?, lastNamed?, ← List.filter_reverse, List.find?_filter]
  congr 1
  funext format
  simp

/-! ## What a run leaves -/

theorem names_register (registry : Registry) (format : Format) :
    (registry.register format).names = insertName format.name registry.names := by
  show (place format registry.formats).map (·.name) = insertName format.name
    (registry.formats.map (·.name))
  induction registry.formats with
  | nil => rfl
  | cons other rest ih =>
    rw [List.map_cons, insertName, place]
    by_cases hSame : other.name = format.name
    · rw [if_pos hSame, if_pos hSame, List.map_cons, hSame]
    · rw [if_neg hSame, if_neg hSame]
      by_cases hBefore : format.name < other.name
      · rw [if_pos hBefore, if_pos hBefore, List.map_cons, List.map_cons]
      · rw [if_neg hBefore, if_neg hBefore, List.map_cons, ih]

/-- The names are those that were registered, whatever the order. -/
theorem names_registerAll (formats : List Format) :
    (empty.registerAll formats).names = distinctNames (formats.map (·.name)) := by
  induction formats using List.reverseRecOn with
  | nil => rfl
  | append_singleton formats format ih =>
    rw [registerAll_concat, names_register, ih, List.map_append]
    show distinctNames (format.name :: formats.map (·.name)) = _
    apply Layout.distinctNames_congr
    intro name
    rw [List.mem_cons, List.mem_append, List.map_singleton, List.mem_singleton, or_comm]

/-- What is found under a name is what was registered last under it. -/
theorem find?_registerAll (name : String) (formats : List Format) :
    (empty.registerAll formats).find? name = lastNamed? name formats := by
  induction formats using List.reverseRecOn with
  | nil => rfl
  | append_singleton formats format ih =>
    rw [registerAll_concat, lastNamed?_concat]
    by_cases hName : format.name = name
    · rw [if_pos hName, ← hName, find?_register_self]
    · rw [if_neg hName, find?_register_ne _ hName, ih]

/-! ## Answers -/

theorem get_eq (registry : Registry) (name : String) :
    registry.get name = match registry.find? name with
      | some format => .ok format
      | none => .error (.notFound name) := rfl

/-- Reading fails for a name without a format, or one whose format cannot be read. -/
theorem parse_eq (registry : Registry) (source name : String) :
    registry.parse source name = match registry.find? name with
      | none => .error (.notFound name)
      | some format =>
        if format.canParse then format.parse source else .error (.noParsing name) := by
  rw [parse, get_eq]
  cases registry.find? name with
  | none => rfl
  | some format =>
    simp only [bind, Except.bind, Format.reads?]
    cases format.canParse <;> rfl

/-- Writing fails for a name without a format, or one whose format cannot be written. -/
theorem serialize_eq (registry : Registry) (layout : Layout.Node) (name : String) :
    registry.serialize layout name = match registry.find? name with
      | none => .error (.notFound name)
      | some format =>
        if format.canSerialize then format.serialize layout
        else .error (.noSerialization name) := by
  rw [serialize, get_eq]
  cases registry.find? name with
  | none => rfl
  | some format =>
    simp only [bind, Except.bind, Format.writes?]
    cases format.canSerialize <;> rfl

/-- A registry answers for a name as another one does. -/
structure Agrees (registry other : Registry) (name : String) : Prop where
  has_eq : registry.has name = other.has name
  get_eq : registry.get name = other.get name
  parse_eq : ∀ source, registry.parse source name = other.parse source name
  serialize_eq : ∀ layout, registry.serialize layout name = other.serialize layout name

/-- All answers for a name depend on what is found under it. -/
theorem agrees_of_find? {registry other : Registry} {name : String}
    (hFound : registry.find? name = other.find? name) : registry.Agrees other name where
  has_eq := by rw [has, has, hFound]
  get_eq := by rw [Registry.get_eq, Registry.get_eq, hFound]
  parse_eq source := by rw [Registry.parse_eq, Registry.parse_eq, hFound]
  serialize_eq layout := by rw [Registry.serialize_eq, Registry.serialize_eq, hFound]

/-- A registry answers as a table of the formats of a list, the later over the earlier. -/
structure KeepsLast (registry : Registry) (formats : List Format) : Prop where
  ascending : registry.names.Pairwise (· < ·)
  mem_names : ∀ name, name ∈ registry.names ↔ ∃ format ∈ formats, format.name = name
  has_iff : ∀ name, registry.has name = true ↔ ∃ format ∈ formats, format.name = name
  get_eq : ∀ name, registry.get name = match lastNamed? name formats with
    | some format => .ok format
    | none => .error (.notFound name)
  parse_eq : ∀ name source, registry.parse source name =
    match lastNamed? name formats with
    | none => .error (.notFound name)
    | some format =>
      if format.canParse then format.parse source else .error (.noParsing name)
  serialize_eq : ∀ name layout, registry.serialize layout name =
    match lastNamed? name formats with
    | none => .error (.notFound name)
    | some format =>
      if format.canSerialize then format.serialize layout else .error (.noSerialization name)
  /-- Formats of other names might as well not have been registered. -/
  alone : ∀ name, registry.Agrees (empty.registerAll (formats.filter (·.name = name))) name

theorem keepsLast_registerAll (formats : List Format) :
    (empty.registerAll formats).KeepsLast formats where
  ascending := by
    rw [names_registerAll]
    exact Layout.pairwise_distinctNames _
  mem_names name := by
    rw [names_registerAll, mem_distinctNames, List.mem_map]
  has_iff name := by
    rw [has, find?_registerAll, lastNamed?_isSome_iff]
  get_eq name := by rw [Registry.get_eq, find?_registerAll]
  parse_eq name source := by rw [Registry.parse_eq, find?_registerAll]
  serialize_eq name layout := by rw [Registry.serialize_eq, find?_registerAll]
  alone name := by
    apply agrees_of_find?
    rw [find?_registerAll, find?_registerAll, lastNamed?_filter]

/-! ## The formats of the library -/

/-- A format of the library refuses by itself what it says that it cannot do. -/
theorem refuses_of_isStandard {format : Format} (hStandard : format.IsStandard) :
    (format.canParse = false → ∀ source, format.parse source = .error (.noParsing format.name)) ∧
      (format.canSerialize = false →
        ∀ layout, format.serialize layout = .error (.noSerialization format.name)) := by
  obtain rfl | rfl | ⟨title, dialect, rfl⟩ := hStandard
  · exact ⟨fun hCan => Bool.noConfusion hCan, fun hCan => Bool.noConfusion hCan⟩
  · exact ⟨fun _ _ => rfl, fun hCan => Bool.noConfusion hCan⟩
  · exact ⟨fun _ _ => rfl, fun hCan => Bool.noConfusion hCan⟩

theorem isStandard_of_mem {format : Format} (hMem : format ∈ standardFormats) :
    format.IsStandard := by
  rw [standardFormats, List.mem_cons, List.mem_cons, List.mem_singleton] at hMem
  obtain rfl | rfl | rfl := hMem
  · exact .inl rfl
  · exact .inr (.inl rfl)
  · exact .inr (.inr ⟨_, _, rfl⟩)

/-- Where all formats are those of the library, asking the registry and asking the format
that it finds come to the same. -/
theorem KeepsLast.direct {registry : Registry} {formats : List Format}
    (hKeeps : registry.KeepsLast formats) (hStandard : ∀ format ∈ formats, format.IsStandard)
    (name : String) :
    (∀ source, registry.parse source name =
        registry.get name >>= fun format => format.parse source) ∧
      ∀ layout, registry.serialize layout name =
        registry.get name >>= fun format => format.serialize layout := by
  have hParse := hKeeps.parse_eq name
  have hSerialize := hKeeps.serialize_eq name
  rw [hKeeps.get_eq]
  cases hLast : lastNamed? name formats with
  | none =>
    rw [hLast] at hParse hSerialize
    exact ⟨hParse, hSerialize⟩
  | some format =>
    rw [hLast] at hParse hSerialize
    obtain ⟨hNoParse, hNoSerialize⟩ :=
      refuses_of_isStandard (hStandard format (mem_of_lastNamed? hLast))
    rw [name_of_lastNamed? hLast] at hNoParse hNoSerialize
    refine ⟨fun source => (hParse source).trans ?_, fun layout => (hSerialize layout).trans ?_⟩
    · show (if format.canParse then _ else _) = format.parse source
      cases hCan : format.canParse with
      | true => rfl
      | false => exact (hNoParse hCan source).symm
    · show (if format.canSerialize then _ else _) = format.serialize layout
      cases hCan : format.canSerialize with
      | true => rfl
      | false => exact (hNoSerialize hCan layout).symm

/-- After any registrations a registry answers as the table in which the last registration
under a name counts, whether it was empty before or the standard one. As long as only formats
of the library are registered, with any titles and dialects, it gives for each name and
input what the format of that name gives by itself. -/
theorem registry_keeps_last :
    (∀ registered, (empty.registerAll registered).KeepsLast registered) ∧
    (∀ registered,
      (defaults.registerAll registered).KeepsLast (standardFormats ++ registered)) ∧
    ∀ registered : List Format, (∀ format ∈ registered, format.IsStandard) →
      ∀ registry ∈ [empty.registerAll registered, defaults.registerAll registered],
      ∀ name,
        (∀ source, registry.parse source name =
            registry.get name >>= fun format => format.parse source) ∧
          ∀ layout, registry.serialize layout name =
            registry.get name >>= fun format => format.serialize layout := by
  have hDefaults : ∀ registered,
      (defaults.registerAll registered).KeepsLast (standardFormats ++ registered) := by
    intro registered
    rw [defaults_registerAll]
    exact keepsLast_registerAll _
  refine ⟨keepsLast_registerAll, hDefaults, fun registered hStandard registry hMem => ?_⟩
  rw [List.mem_cons, List.mem_singleton] at hMem
  rcases hMem with rfl | rfl
  · exact (keepsLast_registerAll registered).direct hStandard
  · apply (hDefaults registered).direct
    intro format hFormat
    rcases List.mem_append.1 hFormat with hOwn | hAdded
    · exact isStandard_of_mem hOwn
    · exact hStandard format hAdded

end Registry

end Pagewright
