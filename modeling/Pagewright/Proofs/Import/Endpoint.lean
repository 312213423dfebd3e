import Pagewright.Import.Endpoint
import Pagewright.Proofs.Import.Reference
import Pagewright.Proofs.Url.Library

/-!
# Which file is requested

The path of a request is that of the base, `files`, one segment for the key and
`nodes`. The segment is the key coded once more: a reference holds its key in
the form that it has in the path of the design URL, escapes included, and the
percent signs of these are escaped in turn. So the file of the URL is addressed
only if its key holds no escape. Of the library that reads the URLs and writes
the path nothing is used but what is documented.

## Main results

* `Endpoint.nodesUrl_path_of_printable` — the segments that a request adds to its base.
* `Endpoint.nodesUrl_of_reference` — what is requested for a design URL, and
  when this is its file.
-/

namespace Pagewright.Import

open Url (appendBase dotNames)
open Text.Percent (HasEscape decode encode)

variable {library : Url.Library}

/-! ## Endpoints -/

/-- An endpoint has a token and the parts of a base URL with segments. -/
theorem Endpoint.ofSettings_eq_ok_iff {baseUrl token : String} {endpoint : Endpoint} :
    Endpoint.ofSettings baseUrl token library = .ok endpoint ↔
      Text.isBlankText token = false ∧
        library.parse? (Text.trim baseUrl.toList) = some endpoint.base ∧
        endpoint.base.path = .segments endpoint.segments := by
  constructor
  · intro hSettings
    unfold Endpoint.ofSettings at hSettings
    split at hSettings
    · cases hSettings
    · rename_i hToken
      split at hSettings
      · cases hSettings
      · rename_i url hUrl
        split at hSettings
        · rename_i segments hPath
          rw [← Except.ok.inj hSettings]
          exact ⟨Bool.eq_false_iff.2 hToken, hUrl, hPath⟩
        · cases hSettings
  · rintro ⟨hToken, hUrl, hPath⟩
    simp only [Endpoint.ofSettings, hToken, hUrl, hPath, Bool.false_eq_true, if_false]

/-- The segments of the base that every request begins with: not an empty one at its end,
nor an empty one that then stands alone. -/
def Endpoint.stem (endpoint : Endpoint) : List (List Char) :=
  appendBase (Url.withoutEmptyEnd endpoint.segments)

/-! ## Paths of requests -/

/-- The path of a request is the stem of its endpoint, `files`, the pushed key and `nodes`. -/
theorem Endpoint.nodesUrl_path (hLibrary : library.IsDocumented) (endpoint : Endpoint)
    (fileKey : String) :
    (endpoint.nodesUrl fileKey library).path = .segments (appendBase
      (library.push endpoint.base (endpoint.stem ++ ["files".toList]) fileKey.toList) ++
        ["nodes".toList]) := by
  have hFiles : ∀ c ∈ "files".toList, c.isAlphanum = true :=
    List.all_eq_true.1 (by decide)
  have hNodes : ∀ c ∈ "nodes".toList, c.isAlphanum = true :=
    List.all_eq_true.1 (by decide)
  simp only [Endpoint.nodesUrl, nodeSegments, List.foldl_cons, List.foldl_nil]
  rw [hLibrary.push_word _ _ hNodes, hLibrary.push_word _ _ hFiles, hLibrary.popEmpty_eq]
  rfl

/-- What stands behind `files` is not lost when more is pushed. -/
theorem Endpoint.appendBase_files (endpoint : Endpoint) (segments : List (List Char)) :
    appendBase (endpoint.stem ++ "files".toList :: segments) =
      endpoint.stem ++ "files".toList :: segments :=
  Url.appendBase_of_mem (List.mem_append_right _ List.mem_cons_self) (by decide)

/-- A key adds three segments, the middle one its coded form. -/
theorem Endpoint.nodesUrl_path_of_printable (hLibrary : library.IsDocumented)
    (endpoint : Endpoint) {fileKey : String} (hDots : fileKey.toList ∉ dotNames)
    (hPrintable : ∀ c ∈ fileKey.toList, Url.isPrintable c = true) :
    ∃ permitted, Url.IsSegmentSet permitted ∧
      (endpoint.nodesUrl fileKey library).path = .segments (endpoint.stem ++
        ["files".toList, encode permitted fileKey.toList, "nodes".toList]) := by
  obtain ⟨permitted, hSet, hPush⟩ := hLibrary.push_text endpoint.base
  have hPushed : Url.IsPushed (endpoint.stem ++ ["files".toList]) fileKey.toList := by
    refine ⟨hPrintable, hDots, fun hFront => ?_⟩
    rw [endpoint.appendBase_files] at hFront
    exact absurd hFront (List.append_ne_nil_of_right_ne_nil _ (List.cons_ne_nil _ _))
  refine ⟨permitted, hSet, ?_⟩
  rw [endpoint.nodesUrl_path hLibrary, hPush _ _ hPushed, endpoint.appendBase_files,
    List.append_assoc, List.singleton_append, endpoint.appendBase_files, List.append_assoc]
  rfl

/-- A key that names a place by dots adds no segment of its own. -/
theorem Endpoint.nodesUrl_path_of_dots (hLibrary : library.IsDocumented) (endpoint : Endpoint)
    {fileKey : String} (hDots : fileKey.toList ∈ dotNames) :
    (endpoint.nodesUrl fileKey library).path =
      .segments (endpoint.stem ++ ["files".toList, "nodes".toList]) := by
  rw [endpoint.nodesUrl_path hLibrary, hLibrary.push_dots _ _ _ hDots, endpoint.appendBase_files,
    List.append_assoc]
  rfl

/-! ## Keys of design URLs -/

/-- The key of a reference is the first one in the path of the URL, as it is written there. -/
theorem Reference.isFirstKey_of_parse {given : String} {reference : Reference}
    (hReference : Reference.parse given library = .ok reference) :
    ∃ url, library.parse? (Text.trim given.toList) = some url ∧
      IsFirstKey url.path.pieces reference.fileKey.toList := by
  obtain ⟨key, raw, first, second, ⟨url, hUrl, hKey, -⟩, -, rfl⟩ :=
    Reference.parse_eq_ok_iff.1 hReference
  refine ⟨url, hUrl, ?_⟩
  rw [String.toList_ofList]
  exact hKey

theorem IsFirstKey.mem {segments : List (List Char)} {key : List Char}
    (hFirst : IsFirstKey segments key) : key ∈ segments := by
  obtain ⟨before, announcer, after, rfl, -⟩ := hFirst
  simp

/-- Only the path of a URL that is no list of segments holds dots between slashes. -/
theorem isPlain_of_dots {key : List Char} {url : Url} (hWritten : url.path.IsWritten)
    (hKey : key ∈ url.path.pieces) (hDots : key ∈ dotNames) :
    ∃ text, url.path = .plain text := by
  cases hPath : url.path with
  | plain text => exact ⟨text, rfl⟩
  | segments list =>
    rw [hPath] at hWritten hKey
    rw [Url.Path.pieces_segments hWritten] at hKey
    exact absurd hDots (hWritten key hKey).noDots

/-- A request for the reference of a design URL has, after the segments of the base, `files`,
one segment and `nodes`. The segment stands for the key as the URL writes it, so it stands
for the file that the URL means exactly when that key holds no escape. Dots, which only the
path of a URL without segments can hold as a key, leave no segment. This holds with every
library that reads URLs and writes paths as documented. -/
theorem Endpoint.nodesUrl_of_reference (hLibrary : library.IsDocumented)
    {given baseUrl token : String} {reference : Reference} {endpoint : Endpoint}
    (hReference : Reference.parse given library = .ok reference)
    (hEndpoint : Endpoint.ofSettings baseUrl token library = .ok endpoint) :
    ∃ url, library.parse? (Text.trim given.toList) = some url ∧
      IsFirstKey url.path.pieces reference.fileKey.toList ∧
      library.parse? (Text.trim baseUrl.toList) = some endpoint.base ∧
      endpoint.base.path = .segments endpoint.segments ∧
      (reference.fileKey.toList ∉ dotNames → ∃ written,
        (endpoint.nodesUrl reference.fileKey library).path =
          .segments (endpoint.stem ++ ["files".toList, written, "nodes".toList]) ∧
        '/' ∉ written ∧ decode written = reference.fileKey.toList ∧
        (decode written = decode reference.fileKey.toList ↔
          ¬ HasEscape reference.fileKey.toList)) ∧
      (reference.fileKey.toList ∈ dotNames →
        (∃ text, url.path = .plain text) ∧
        (endpoint.nodesUrl reference.fileKey library).path =
          .segments (endpoint.stem ++ ["files".toList, "nodes".toList])) := by
  obtain ⟨url, hUrl, hFirst⟩ := Reference.isFirstKey_of_parse hReference
  obtain ⟨-, hBase, hSegments⟩ := Endpoint.ofSettings_eq_ok_iff.1 hEndpoint
  have hWritten := hLibrary.isWritten hUrl
  have hPiece := hFirst.mem
  have hPrintable := hWritten.isPrintable_piece hPiece
  refine ⟨url, hUrl, hFirst, hBase, hSegments, ?_, ?_⟩
  · intro hDots
    obtain ⟨permitted, hSet, hPath⟩ :=
      endpoint.nodesUrl_path_of_printable hLibrary hDots hPrintable
    have hDecode := Text.Percent.decode_encode hSet.percent reference.fileKey.toList
    refine ⟨_, hPath, hSet.noSlash_encode, hDecode, ?_⟩
    rw [hDecode, eq_comm]
    apply Text.Percent.decode_eq_self_iff
    intro c hMem
    have hRange := Url.isPrintable_iff.1 (hPrintable c hMem)
    omega
  · intro hDots
    exact ⟨isPlain_of_dots hWritten hPiece hDots, endpoint.nodesUrl_path_of_dots hLibrary hDots⟩

/-! ## A key with an escape -/

/-- A design URL whose key is written with an accent. -/
def accentedUrl : Url where
  scheme := "https".toList
  authority := some ⟨[], "www.figma.com".toList, none⟩
  path := .segments ["design".toList, "%C3%A9".toList, "T".toList]
  query := some "node-id=1-2".toList
  fragment := none

theorem isFrameUrl_accented : IsFrameUrl accentedUrl "%C3%A9".toList "1".toList "2".toList where
  path := ⟨[], "design".toList, ["T".toList], by decide, rfl, List.forall_mem_nil _⟩
  query := ⟨_, [], "-".toList, [], rfl, by decide, by decide, List.forall_mem_nil _⟩
  key_ne_nil := by decide
  first_digits := by decide
  second_digits := by decide

theorem parse_accented : Reference.parse "https://www.figma.com/design/é/T?node-id=1-2" =
    .ok ⟨"%C3%A9", "1:2"⟩ := by
  have hUrl : Url.Library.standard.parse?
      (Text.trim "https://www.figma.com/design/é/T?node-id=1-2".toList) = some accentedUrl := by
    decide +kernel
  exact Reference.parse_of_isFrameUrl hUrl isFrameUrl_accented

/-- An endpoint of this machine. -/
def localEndpoint : Endpoint where
  base := {
    scheme := "http".toList
    authority := some ⟨[], "localhost".toList, some 9⟩
    path := .segments ["v1".toList]
    query := none
    fragment := none }
  segments := ["v1".toList]

theorem ofSettings_local : Endpoint.ofSettings "http://localhost:9/v1" "t" = .ok localEndpoint :=
  Endpoint.ofSettings_eq_ok_iff.2 ⟨by decide, by decide +kernel, rfl⟩

/-- The percent signs of an accented key are escaped, and another file is requested. -/
theorem accentedKey_escaped_twice :
    Reference.parse "https://www.figma.com/design/é/T?node-id=1-2" = .ok ⟨"%C3%A9", "1:2"⟩ ∧
      Endpoint.ofSettings "http://localhost:9/v1" "t" = .ok localEndpoint ∧
      (localEndpoint.nodesUrl "%C3%A9").path = .segments
        ["v1".toList, "files".toList, "%25C3%25A9".toList, "nodes".toList] ∧
      decode "%25C3%25A9".toList ≠ decode "%C3%A9".toList :=
  ⟨parse_accented, ofSettings_local, by decide, by decide +kernel⟩

/-- A key with an escape is requested under another name than the file has. -/
theorem Endpoint.nodesUrl_of_accented :
    ∃ written, (localEndpoint.nodesUrl "%C3%A9").path =
        .segments (localEndpoint.stem ++ ["files".toList, written, "nodes".toList]) ∧
      '/' ∉ written ∧ decode written = "%C3%A9".toList ∧
      decode written ≠ decode "%C3%A9".toList := by
  obtain ⟨_, -, -, -, -, hNames, -⟩ :=
    Endpoint.nodesUrl_of_reference Url.isDocumented_standard parse_accented ofSettings_local
  obtain ⟨written, hPath, hSlash, hDecode, hSame⟩ := hNames (by decide)
  have hEscape : HasEscape "%C3%A9".toList :=
    ⟨[], 'C', '3', "%A9".toList, rfl, by decide, by decide⟩
  exact ⟨written, hPath, hSlash, hDecode, fun hEqual => hSame.1 hEqual hEscape⟩

end Pagewright.Import
