import Mathlib.Data.List.Chain
import Pagewright.Import.Reference
import Pagewright.Proofs.Url.Written

/-!
# What a design URL says

A design URL names a frame by the first key of its path and the first `node-id`
of its query. How the URL is spelled otherwise does not matter: what stands
around the key, which other parameters there are, and how the two numbers of
the node are joined. Whatever text is given, it is read as these two, or the
error says which of them is missing or what the node id was. This is so with
any library of URLs: a path is taken as what stands after its slashes, and a
query as the text that the library gives.

## Main results

* `keyAmong?_eq_some_iff`, `parameter?_eq_some_iff` — the key and the node id
  that are found are the first ones.
* `Reference.parse_spellings` — the usual spellings are accepted, and every
  text is accepted or refused for its reason.
-/

namespace Pagewright.Import

open Text (splitOn)

/-! ## The first key -/

/-- Whether `key` is the first segment, not empty, behind one that announces a key: none of
the neighbours before it are of this kind. -/
def IsFirstKey (segments : List (List Char)) (key : List Char) : Prop :=
  ∃ before announcer after, segments = before ++ announcer :: key :: after ∧
    announcesKey announcer = true ∧ key ≠ [] ∧
    (before ++ [announcer]).IsChain fun segment next => announcesKey segment = true → next = []

theorem isFirstKey_here {announcer key : List Char} (hAnnouncer : announcesKey announcer = true)
    (hKey : key ≠ []) (rest : List (List Char)) : IsFirstKey (announcer :: key :: rest) key :=
  ⟨[], announcer, rest, rfl, hAnnouncer, hKey, List.isChain_singleton _⟩

theorem keyAmong?_cons {segment next : List Char} {rest : List (List Char)}
    (hPass : announcesKey segment = true → next = []) :
    keyAmong? (segment :: next :: rest) = keyAmong? (next :: rest) := by
  rw [keyAmong?, if_neg]
  intro hFound
  obtain ⟨hAnnouncer, hNext⟩ := Bool.and_eq_true_iff.1 hFound
  rw [hPass hAnnouncer] at hNext
  exact absurd hNext (by decide)

theorem IsFirstKey.cons {segment next key : List Char} {rest : List (List Char)}
    (hPass : announcesKey segment = true → next = []) (hFirst : IsFirstKey (next :: rest) key) :
    IsFirstKey (segment :: next :: rest) key := by
  obtain ⟨before, announcer, after, hSegments, hAnnouncer, hKey, hChain⟩ := hFirst
  refine ⟨segment :: before, announcer, after, by rw [hSegments, List.cons_append],
    hAnnouncer, hKey, ?_⟩
  cases before with
  | nil =>
    obtain ⟨rfl, -⟩ := List.cons.inj hSegments
    exact List.isChain_pair.2 hPass
  | cons first before =>
    obtain ⟨rfl, -⟩ := List.cons.inj hSegments
    exact List.isChain_cons_cons.2 ⟨hPass, hChain⟩

theorem isFirstKey_of_keyAmong? {segments : List (List Char)} {key : List Char}
    (hFound : keyAmong? segments = some key) : IsFirstKey segments key := by
  fun_induction keyAmong? segments with
  | case1 => cases hFound
  | case2 segment => cases hFound
  | case3 segment next rest hHere =>
    obtain ⟨hAnnouncer, hNext⟩ := Bool.and_eq_true_iff.1 hHere
    rw [← Option.some.inj hFound]
    refine isFirstKey_here hAnnouncer ?_ rest
    rintro rfl
    exact absurd hNext (by decide)
  | case4 segment next rest hNot ih =>
    refine (ih hFound).cons fun hAnnouncer => ?_
    by_contra hNext
    exact hNot (Bool.and_eq_true_iff.2 ⟨hAnnouncer, by simpa using hNext⟩)

/-- The key that is found is the first one. -/
theorem keyAmong?_eq_some_iff {segments : List (List Char)} {key : List Char} :
    keyAmong? segments = some key ↔ IsFirstKey segments key := by
  refine ⟨isFirstKey_of_keyAmong?, ?_⟩
  rintro ⟨before, announcer, after, rfl, hAnnouncer, hKey, hChain⟩
  induction before with
  | nil =>
    rw [List.nil_append, keyAmong?, if_pos]
    exact Bool.and_eq_true_iff.2 ⟨hAnnouncer, by simpa using hKey⟩
  | cons segment before ih =>
    cases before with
    | nil =>
      rw [List.cons_append, List.nil_append, keyAmong?_cons (List.isChain_pair.1 hChain)]
      exact ih (List.isChain_singleton _)
    | cons next before =>
      obtain ⟨hPass, hChain⟩ := List.isChain_cons_cons.1 hChain
      rw [List.cons_append, List.cons_append, keyAmong?_cons hPass]
      exact ih hChain

/-! ## The first node id -/

/-- Whether the first parameter with a name has a value. -/
def IsFirstParameter (name query value : List Char) : Prop :=
  ∃ before parameter after, splitOn '&' query = before ++ parameter :: after ∧
    Url.formPair parameter = (name, value) ∧
    ∀ earlier ∈ before, (Url.formPair earlier).1 ≠ name

/-- Text without plus signs and escapes stands for itself. -/
theorem formText_of_not_mem {text : List Char} (hPlus : '+' ∉ text) (hPercent : '%' ∉ text) :
    Url.formText text = text := by
  rw [Url.formText, Text.replaceChar_of_not_mem hPlus, Text.Percent.decode_of_not_mem hPercent]

/-- Empty parameters have no name, so that they are passed over does not matter. -/
theorem parameter?_eq {name query : List Char} (hName : name ≠ []) :
    Url.parameter? name query =
      ((splitOn '&' query).find? fun parameter => (Url.formPair parameter).1 = name).map
        fun parameter => (Url.formPair parameter).2 := by
  rw [Url.parameter?, Url.formPairs, List.find?_map, List.find?_filter, Option.map_map]
  congr 1
  congr 1
  funext parameter
  cases parameter with
  | nil =>
    have hEmpty : (Url.formPair []).1 = [] :=
      formText_of_not_mem List.not_mem_nil List.not_mem_nil
    simp [hEmpty, Ne.symm hName]
  | cons c rest => simp

theorem parameter?_eq_some_iff {name query value : List Char} (hName : name ≠ []) :
    Url.parameter? name query = some value ↔ IsFirstParameter name query value := by
  rw [parameter?_eq hName, Option.map_eq_some_iff]
  constructor
  · rintro ⟨parameter, hFound, rfl⟩
    obtain ⟨hOwn, before, after, hSplit, hBefore⟩ := List.find?_eq_some_iff_append.1 hFound
    refine ⟨before, parameter, after, hSplit, Prod.ext (of_decide_eq_true hOwn) rfl, ?_⟩
    intro earlier hMem
    simpa using hBefore earlier hMem
  · rintro ⟨before, parameter, after, hSplit, hPair, hBefore⟩
    refine ⟨parameter, List.find?_eq_some_iff_append.2 ⟨?_, before, after, hSplit, ?_⟩, ?_⟩
    · rw [hPair]
      exact decide_eq_true rfl
    · intro earlier hMem
      simpa using hBefore earlier hMem
    · rw [hPair]

/-! ## Spellings of a node id -/

/-- What may stand between the two numbers of a node id in a URL. -/
def idSeparators : List (List Char) := [['-'], [':'], ['%', '3', 'A']]

/-- The name of the parameter that holds the node id. -/
def nodeIdName : List Char := "node-id".toList

/-- Whether a text is one or more of the digits `0` to `9`. -/
def IsAsciiDigits (text : List Char) : Prop := text ≠ [] ∧ ∀ c ∈ text, c.isDigit = true

instance (text : List Char) : Decidable (IsAsciiDigits text) :=
  decidable_of_iff (text ≠ [] ∧ text.all Char.isDigit = true) (by rw [List.all_eq_true]; rfl)

theorem IsAsciiDigits.not_mem {text : List Char} (hDigits : IsAsciiDigits text) {c : Char}
    (hOther : c.isDigit = false) : c ∉ text := by
  intro hMem
  rw [hDigits.2 c hMem] at hOther
  cases hOther

theorem IsAsciiDigits.isDigits {text : List Char} (hDigits : IsAsciiDigits text) :
    isDigits text = true := by
  refine Bool.and_eq_true_iff.2 ⟨by simpa using hDigits.1, List.all_eq_true.2 fun c hMem => ?_⟩
  exact Text.isDecimalDigit_of_isDigit (hDigits.2 c hMem)

/-- The three spellings stand for a dash or a colon. -/
theorem formText_id {first second separator : List Char} (hFirst : IsAsciiDigits first)
    (hSecond : IsAsciiDigits second) (hSeparator : separator ∈ idSeparators) :
    Url.formText (first ++ separator ++ second) = first ++ '-' :: second ∨
      Url.formText (first ++ separator ++ second) = first ++ ':' :: second := by
  have hOther : ∀ {c : Char}, c.isDigit = false → c ∉ separator →
      c ∉ first ++ separator ++ second := by
    intro c hDigit hNot
    simp [hFirst.not_mem hDigit, hSecond.not_mem hDigit, hNot]
  simp only [idSeparators, List.mem_cons, List.not_mem_nil, or_false] at hSeparator
  rcases hSeparator with rfl | rfl | rfl
  · left
    rw [formText_of_not_mem (hOther (by decide) (by decide)) (hOther (by decide) (by decide)),
      List.append_assoc]
    rfl
  · right
    rw [formText_of_not_mem (hOther (by decide) (by decide)) (hOther (by decide) (by decide)),
      List.append_assoc]
    rfl
  · right
    have hBytes : Text.Percent.decodeBytes (first ++ ['%', '3', 'A'] ++ second) =
        Text.Utf8.encodeAll (first ++ ':' :: second) := by
      rw [List.append_assoc, Text.Percent.decodeBytes_append (hFirst.not_mem (by decide)),
        show ['%', '3', 'A'] = Text.Percent.escapeByte 0x3a by decide,
        Text.Percent.decodeBytes_escapeByte_append,
        Text.Percent.decodeBytes_of_not_mem (hSecond.not_mem (by decide)),
        Text.Utf8.encodeAll_append]
      rfl
    rw [Url.formText, Text.replaceChar_of_not_mem (hOther (by decide) (by decide)),
      Text.Percent.decode, hBytes, Text.Utf8.decodeLossy_encodeAll]

/-- Each spelling becomes the two numbers with a colon between them. -/
theorem replaceChar_formText_id {first second separator : List Char}
    (hFirst : IsAsciiDigits first) (hSecond : IsAsciiDigits second)
    (hSeparator : separator ∈ idSeparators) :
    Text.replaceChar '-' ':' (Url.formText (first ++ separator ++ second)) =
      first ++ ':' :: second := by
  have hDigits : ∀ c, Text.replaceChar '-' ':' (first ++ c :: second) =
      first ++ (if c = '-' then ':' else c) :: second := by
    intro c
    rw [Text.replaceChar_append, Text.replaceChar_of_not_mem (hFirst.not_mem (by decide))]
    have hRest : Text.replaceChar '-' ':' second = second :=
      Text.replaceChar_of_not_mem (hSecond.not_mem (by decide))
    exact congrArg (first ++ _ :: ·) hRest
  rcases formText_id hFirst hSecond hSeparator with hText | hText
  · rw [hText, hDigits, if_pos rfl]
  · rw [hText, hDigits, if_neg (by decide)]

/-- A node id is two runs of digits of any scripts with one colon between them. -/
theorem isNodeId_iff {text : List Char} : isNodeId text = true ↔
    ∃ first second, text = first ++ ':' :: second ∧
      isDigits first = true ∧ isDigits second = true := by
  constructor
  · intro hId
    unfold isNodeId at hId
    split at hId
    · rename_i first second hSplit
      have hText : [':'].intercalate (text.splitOn ':') = text := List.intercalate_splitOn ':'
      rw [← Text.splitOn_eq, hSplit] at hText
      refine ⟨first, second, ?_, Bool.and_eq_true_iff.1 hId⟩
      rw [← hText]
      simp [List.intercalate]
    · cases hId
  · rintro ⟨first, second, rfl, hFirst, hSecond⟩
    have hColon : ∀ {digits : List Char}, isDigits digits = true → ':' ∉ digits := by
      intro digits hDigits hMem
      have hColon := List.all_eq_true.1 (Bool.and_eq_true_iff.1 hDigits).2 ':' hMem
      exact absurd hColon (by decide)
    rw [isNodeId, Text.splitOn_eq, List.splitOn_append_cons_self_of_not_mem (hColon hFirst),
      List.splitOn_eq_singleton (hColon hSecond)]
    exact Bool.and_eq_true_iff.2 ⟨hFirst, hSecond⟩

/-! ## URLs of frames -/

variable {library : Url.Library} {given : String} {url : Url} {key raw first second : List Char}

/-- A URL in a usual spelling: a segment that announces a key, the first of its kind, and
the key behind it; a first parameter `node-id` with two numbers; anything around them. -/
structure IsFrameUrl (url : Url) (key first second : List Char) : Prop where
  path : ∃ before announcer after, url.path.pieces = before ++ announcer :: key :: after ∧
    announcesKey announcer = true ∧ ∀ segment ∈ before, announcesKey segment = false
  query : ∃ query before separator after, url.query = some query ∧
    splitOn '&' query =
      before ++ (nodeIdName ++ '=' :: (first ++ separator ++ second)) :: after ∧
    separator ∈ idSeparators ∧ ∀ earlier ∈ before, (Url.formPair earlier).1 ≠ nodeIdName
  key_ne_nil : key ≠ []
  first_digits : IsAsciiDigits first
  second_digits : IsAsciiDigits second

/-- Whether a library reads a text as a URL with a key and a node id, be they well-formed
or not. -/
def Addresses (library : Url.Library) (given : String) (key raw : List Char) : Prop :=
  ∃ url, library.parse? (Text.trim given.toList) = some url ∧ IsFirstKey url.path.pieces key ∧
    IsFirstParameter nodeIdName (url.query.getD []) raw ∧ raw ≠ []

theorem isFirstKey_of_quiet {before after : List (List Char)} {announcer : List Char}
    (hBefore : ∀ segment ∈ before, announcesKey segment = false)
    (hAnnouncer : announcesKey announcer = true) (hKey : key ≠ []) :
    IsFirstKey (before ++ announcer :: key :: after) key := by
  induction before with
  | nil => exact isFirstKey_here hAnnouncer hKey after
  | cons segment before ih =>
    obtain ⟨hSegment, hBefore⟩ := List.forall_mem_cons.1 hBefore
    have hPass : ∀ {next : List Char}, announcesKey segment = true → next = [] := by
      intro next hAnnounces
      rw [hSegment] at hAnnounces
      cases hAnnounces
    cases before with
    | nil => exact (ih hBefore).cons hPass
    | cons next before => exact (ih hBefore).cons hPass

theorem formPair_nodeId (spelled : List Char) :
    Url.formPair (nodeIdName ++ '=' :: spelled) = (nodeIdName, Url.formText spelled) := by
  have hSplit : Text.splitFirst '=' (nodeIdName ++ '=' :: spelled) = (nodeIdName, some spelled) :=
    Text.splitFirst_append_cons (by decide) spelled
  rw [Url.formPair, hSplit]
  exact congrArg (·, _) (formText_of_not_mem (by decide) (by decide))

/-- A URL in a usual spelling has the key and some form of the node id. -/
theorem IsFrameUrl.addresses (hUrl : library.parse? (Text.trim given.toList) = some url)
    (hFrame : IsFrameUrl url key first second) : ∃ raw, Addresses library given key raw ∧
      Text.replaceChar '-' ':' raw = first ++ ':' :: second := by
  obtain ⟨before, announcer, after, hPath, hAnnouncer, hBefore⟩ := hFrame.path
  obtain ⟨query, earlier, separator, later, hQuery, hSplit, hSeparator, hEarlier⟩ := hFrame.query
  have hRaw := replaceChar_formText_id hFrame.first_digits hFrame.second_digits hSeparator
  refine ⟨Url.formText (first ++ separator ++ second), ⟨url, hUrl, ?_, ?_, ?_⟩, hRaw⟩
  · rw [hPath]
    exact isFirstKey_of_quiet hBefore hAnnouncer hFrame.key_ne_nil
  · rw [hQuery]
    exact ⟨earlier, _, later, hSplit, formPair_nodeId _, hEarlier⟩
  · intro hNil
    rw [hNil] at hRaw
    exact absurd hRaw.symm (by simp [Text.replaceChar])

/-! ## Reading references -/

/-- The parts of a well-formed node id: digits of any scripts around one colon. -/
def IsNodeId (raw first second : List Char) : Prop :=
  Text.replaceChar '-' ':' raw = first ++ ':' :: second ∧
    isDigits first = true ∧ isDigits second = true

theorem Reference.parse_of_addresses (hAddresses : Addresses library given key raw) :
    Reference.parse given library =
      if isNodeId (Text.replaceChar '-' ':' raw) then
        .ok ⟨String.ofList key, String.ofList (Text.replaceChar '-' ':' raw)⟩
      else .error (.invalidNodeId (String.ofList raw)) := by
  obtain ⟨url, hUrl, hKey, hRaw, hNonempty⟩ := hAddresses
  have hFound : fileKey? url.path.text = some key := keyAmong?_eq_some_iff.2 hKey
  have hNode : (Url.parameter? "node-id".toList (url.query.getD [])).filter (!·.isEmpty) =
      some raw := by
    have hValue : Url.parameter? "node-id".toList (url.query.getD []) = some raw :=
      (parameter?_eq_some_iff (by decide)).2 hRaw
    rw [hValue, Option.filter_some, if_pos (by simpa using hNonempty)]
  simp only [Reference.parse, hUrl, hFound, hNode]

theorem Reference.parse_of_not_addresses (hNot : ¬ ∃ key raw, Addresses library given key raw) :
    Reference.parse given library = .error (.invalidReference given) := by
  unfold Reference.parse
  cases hUrl : library.parse? (Text.trim given.toList) with
  | none => rfl
  | some url =>
    cases hKey : fileKey? url.path.text with
    | none => simp only [hKey]
    | some key =>
      cases hFiltered :
          (Url.parameter? "node-id".toList (url.query.getD [])).filter (!·.isEmpty) with
      | none => simp only [hKey, hFiltered]
      | some raw =>
        obtain ⟨hRaw, hNonempty⟩ := Option.filter_eq_some_iff.1 hFiltered
        have hAddresses : Addresses library given key raw :=
          ⟨url, hUrl, keyAmong?_eq_some_iff.1 hKey,
            (parameter?_eq_some_iff (by decide)).1 hRaw, by simpa using hNonempty⟩
        exact absurd ⟨key, raw, hAddresses⟩ hNot

/-- A text addresses nothing if it is no URL, has no key, or has no first node id. -/
theorem not_addresses_iff : (¬ ∃ key raw, Addresses library given key raw) ↔
    ∀ url, library.parse? (Text.trim given.toList) = some url →
      (∀ key, ¬ IsFirstKey url.path.pieces key) ∨
        ∀ raw, IsFirstParameter nodeIdName (url.query.getD []) raw → raw = [] := by
  constructor
  · intro hNot url hUrl
    by_contra hBoth
    push Not at hBoth
    obtain ⟨⟨key, hKey⟩, raw, hRaw, hNonempty⟩ := hBoth
    exact hNot ⟨key, raw, url, hUrl, hKey, hRaw, hNonempty⟩
  · rintro hMissing ⟨key, raw, url, hUrl, hKey, hRaw, hNonempty⟩
    rcases hMissing url hUrl with hNoKey | hNoNode
    · exact hNoKey key hKey
    · exact hNonempty (hNoNode raw hRaw)

theorem Addresses.noSlash (hAddresses : Addresses library given key raw) :
    key ≠ [] ∧ '/' ∉ key := by
  obtain ⟨url, -, ⟨before, announcer, after, hPieces, -, hKey, -⟩, -⟩ := hAddresses
  have hMem : key ∈ url.path.pieces := by simp [hPieces]
  exact ⟨hKey, Url.Path.noSlash_of_mem_pieces hMem⟩

theorem Reference.parse_eq_ok_iff {reference : Reference} :
    Reference.parse given library = .ok reference ↔
      ∃ key raw first second, Addresses library given key raw ∧ IsNodeId raw first second ∧
        reference = ⟨String.ofList key, String.ofList (first ++ ':' :: second)⟩ := by
  constructor
  · intro hParse
    by_cases hSome : ∃ key raw, Addresses library given key raw
    · obtain ⟨key, raw, hAddresses⟩ := hSome
      rw [Reference.parse_of_addresses hAddresses] at hParse
      split at hParse
      · rename_i hId
        obtain ⟨first, second, hText, hFirst, hSecond⟩ := isNodeId_iff.1 hId
        rw [hText] at hParse
        exact ⟨key, raw, first, second, hAddresses, ⟨hText, hFirst, hSecond⟩,
          (Except.ok.inj hParse).symm⟩
      · cases hParse
    · rw [Reference.parse_of_not_addresses hSome] at hParse
      cases hParse
  · rintro ⟨key, raw, first, second, hAddresses, ⟨hText, hFirst, hSecond⟩, rfl⟩
    have hId : isNodeId (Text.replaceChar '-' ':' raw) = true :=
      isNodeId_iff.2 ⟨first, second, hText, hFirst, hSecond⟩
    rw [Reference.parse_of_addresses hAddresses, if_pos hId, hText]

/-- URLs in a usual spelling are read as their key and numbers. -/
theorem Reference.parse_of_isFrameUrl
    (hUrl : library.parse? (Text.trim given.toList) = some url)
    (hFrame : IsFrameUrl url key first second) :
    Reference.parse given library =
      .ok ⟨String.ofList key, String.ofList (first ++ ':' :: second)⟩ := by
  obtain ⟨raw, hAddresses, hText⟩ := hFrame.addresses hUrl
  have hId : IsNodeId raw first second :=
    ⟨hText, hFrame.first_digits.isDigits, hFrame.second_digits.isDigits⟩
  exact Reference.parse_eq_ok_iff.2 ⟨key, raw, first, second, hAddresses, hId, rfl⟩

theorem Reference.parse_eq_error_iff {cause : ImportError} :
    Reference.parse given library = .error cause ↔
      ((¬ ∃ key raw, Addresses library given key raw) ∧ cause = .invalidReference given) ∨
        ∃ key raw, Addresses library given key raw ∧ (¬ ∃ first second, IsNodeId raw first second) ∧
          cause = .invalidNodeId (String.ofList raw) := by
  constructor
  · intro hParse
    by_cases hSome : ∃ key raw, Addresses library given key raw
    · obtain ⟨key, raw, hAddresses⟩ := hSome
      rw [Reference.parse_of_addresses hAddresses] at hParse
      split at hParse
      · cases hParse
      · rename_i hId
        have hNot : ¬ ∃ first second, IsNodeId raw first second :=
          fun hParts => hId (isNodeId_iff.2 hParts)
        exact .inr ⟨key, raw, hAddresses, hNot, (Except.error.inj hParse).symm⟩
    · rw [Reference.parse_of_not_addresses hSome] at hParse
      exact .inl ⟨hSome, (Except.error.inj hParse).symm⟩
  · rintro (⟨hNone, rfl⟩ | ⟨key, raw, hAddresses, hNot, rfl⟩)
    · exact Reference.parse_of_not_addresses hNone
    · have hId : ¬ isNodeId (Text.replaceChar '-' ':' raw) = true :=
        fun hId => hNot (isNodeId_iff.1 hId)
      rw [Reference.parse_of_addresses hAddresses, if_neg hId]

/-- Whatever library reads the URLs: a URL with a key and two numbers as node id is read as
these, however it is spelled. Any text is read as the first key and the first node id of its
URL; if it has none, or the node id is not two numbers, the error says so with the text or
the node id as it stood. -/
theorem Reference.parse_spellings (library : Url.Library) (given : String) :
    (∀ url key first second, library.parse? (Text.trim given.toList) = some url →
      IsFrameUrl url key first second →
      Reference.parse given library =
        .ok ⟨String.ofList key, String.ofList (first ++ ':' :: second)⟩) ∧
    (∀ reference, Reference.parse given library = .ok reference ↔
      ∃ key raw first second, Addresses library given key raw ∧ key ≠ [] ∧ '/' ∉ key ∧
        IsNodeId raw first second ∧
        reference = ⟨String.ofList key, String.ofList (first ++ ':' :: second)⟩) ∧
    ∀ cause, Reference.parse given library = .error cause ↔
      ((∀ url, library.parse? (Text.trim given.toList) = some url →
        (∀ key, ¬ IsFirstKey url.path.pieces key) ∨
          ∀ raw, IsFirstParameter nodeIdName (url.query.getD []) raw → raw = []) ∧
        cause = .invalidReference given) ∨
      ∃ key raw, Addresses library given key raw ∧ (¬ ∃ first second, IsNodeId raw first second) ∧
        cause = .invalidNodeId (String.ofList raw) := by
  refine ⟨?_, ?_, ?_⟩
  · intro url key first second
    exact Reference.parse_of_isFrameUrl
  · intro reference
    rw [Reference.parse_eq_ok_iff]
    constructor
    · rintro ⟨key, raw, first, second, hAddresses, hId, hReference⟩
      obtain ⟨hKey, hSlash⟩ := hAddresses.noSlash
      exact ⟨key, raw, first, second, hAddresses, hKey, hSlash, hId, hReference⟩
    · rintro ⟨key, raw, first, second, hAddresses, -, -, hId, hReference⟩
      exact ⟨key, raw, first, second, hAddresses, hId, hReference⟩
  · intro cause
    rw [Reference.parse_eq_error_iff, not_addresses_iff]

/-- A URL of a page host with a title behind the key, parameters around the node id, and
a coded colon. -/
theorem Reference.parse_spellings_coded :
    Reference.parse "https://www.figma.com/file/XyZ/Title?type=design&node-id=10%3A20&m=dev" =
      .ok ⟨"XyZ", "10:20"⟩ :=
  (Reference.parse_spellings .standard _).1
    { scheme := "https".toList
      authority := some ⟨[], "www.figma.com".toList, none⟩
      path := .segments ["file".toList, "XyZ".toList, "Title".toList]
      query := some "type=design&node-id=10%3A20&m=dev".toList
      fragment := none }
    "XyZ".toList "10".toList "20".toList (by decide +kernel)
    { path := ⟨[], "file".toList, ["Title".toList], by decide, rfl, List.forall_mem_nil _⟩
      query := ⟨_, ["type=design".toList], "%3A".toList, ["m=dev".toList], rfl, by decide,
        by decide, by decide +kernel⟩
      key_ne_nil := by decide
      first_digits := by decide
      second_digits := by decide }

end Pagewright.Import
