import Pagewright.Import.Reference

/-!
# The address of a request

The service answers for the nodes of a file under its base URL. A base without
segments, such as a mail address, cannot be one, and without a token no
request is made at all.
-/

namespace Pagewright.Import

/-- Where requests go, in the parts that a path is appended to. -/
structure Endpoint where
  base : Url
  segments : List (List Char)

/-- The endpoint of a base URL and a token, the token checked first. -/
def Endpoint.ofSettings (baseUrl token : String) (library : Url.Library := .standard) :
    Except ImportError Endpoint :=
  if Text.isBlankText token then .error .missingToken
  else match library.parse? (Text.trim baseUrl.toList) with
    | none => .error (.invalidBaseUrl baseUrl)
    | some url =>
      match url.path with
      | .segments segments => .ok ⟨url, segments⟩
      | .plain _ => .error (.invalidBaseUrl baseUrl)

/-- The segments that address the nodes of a file. -/
def nodeSegments (fileKey : List Char) : List (List Char) :=
  ["files".toList, fileKey, "nodes".toList]

/-- The URL of the nodes of a file. -/
def Endpoint.nodesUrl (endpoint : Endpoint) (fileKey : String)
    (library : Url.Library := .standard) : Url :=
  let segments := (nodeSegments fileKey.toList).foldl (library.push endpoint.base)
    (library.popEmpty endpoint.segments)
  { endpoint.base with path := .segments segments }

end Pagewright.Import
