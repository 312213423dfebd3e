import Pagewright.Url.Path

/-!
# URLs

A URL in its parts, each in its written form, and the text of the whole.
-/

namespace Pagewright

/-- The place of a URL: who, where, and at which port. -/
structure Url.Authority where
  user : List Char
  host : List Char
  port : Option Nat
  deriving DecidableEq, Repr, Inhabited

/-- A URL. -/
structure Url where
  scheme : List Char
  authority : Option Url.Authority
  path : Url.Path
  query : Option (List Char)
  fragment : Option (List Char)
  deriving DecidableEq, Repr, Inhabited

namespace Url

/-- The schemes of the web, whose URLs always have a host and segments. -/
def webSchemes : List String := ["http", "https", "ws", "wss", "ftp"]

/-- Whether a scheme is one of the web. -/
def isWeb (scheme : List Char) : Bool := webSchemes.contains (String.ofList scheme)

/-- Whether a scheme is that of files. -/
def isFile (scheme : List Char) : Bool := scheme == ['f', 'i', 'l', 'e']

/-- Schemes of the web and of files, under which a backslash is a slash. -/
def isSpecial (scheme : List Char) : Bool := isWeb scheme || isFile scheme

/-- The port that a scheme uses without being told. -/
def defaultPort? (scheme : List Char) : Option Nat :=
  match String.ofList scheme with
  | "http" | "ws" => some 80
  | "https" | "wss" => some 443
  | "ftp" => some 21
  | _ => none

/-- The text of an authority. -/
def Authority.text (authority : Authority) : List Char :=
  (if authority.user.isEmpty then [] else authority.user ++ ['@']) ++ authority.host ++
    match authority.port with
    | some port => ':' :: (toString port).toList
    | none => []

/-- What stands before the path; a path of two slashes is kept apart from a host. -/
def placeText (url : Url) : List Char :=
  match url.authority with
  | some authority => ['/', '/'] ++ authority.text
  | none => if ['/', '/'].isPrefixOf url.path.text then ['/', '.'] else []

/-- The text of a URL. -/
def text (url : Url) : List Char :=
  url.scheme ++ [':'] ++ url.placeText ++ url.path.text
    ++ (match url.query with
      | some query => '?' :: query
      | none => [])
    ++ (match url.fragment with
      | some fragment => '#' :: fragment
      | none => [])

end Url

end Pagewright
