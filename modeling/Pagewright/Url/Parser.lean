import Pagewright.Url.Basic
import Pagewright.Url.Host

/-!
# Reading URLs

Reading follows the URL standard. Surrounding blanks and all tabs and line
ends are dropped; the fragment and the query are cut off at the first `#` and
`?`; the scheme decides how the rest divides into place and path.

Who uses URLs does not depend on this. The URLs of designs and of the service are
read by a library, and the path of a request is written by it too: `Library` is
what is used of one, and is taken as the last argument. `Library.standard`, which
reads as this module does, is the one that the program runs with.
-/

namespace Pagewright.Url

open Text (splitFirst)

/-! ## Scheme, query and fragment -/

/-- Whether a character may stand in a scheme after the first one. -/
def isSchemeChar (c : Char) : Bool := c.isAlphanum || c == '+' || c == '-' || c == '.'

/-- The scheme in lower case and the text after its colon. -/
def splitScheme? (text : List Char) : Option (List Char × List Char) :=
  match splitFirst ':' text with
  | (first :: scheme, some rest) =>
    if first.isAlpha && scheme.all isSchemeChar then
      some ((first :: scheme).map Char.toLower, rest)
    else none
  | _ => none

/-- Whether blanks at the ends of a URL include a character: all controls and the space. -/
def isOuterBlank (c : Char) : Bool := c ≤ ' '

/-- The characters of a URL that count. -/
def significant (text : List Char) : List Char :=
  let front := text.dropWhile isOuterBlank
  (front.reverse.dropWhile isOuterBlank).reverse.filter (!isStripped ·)

/-! ## Authority -/

/-- The texts before and after the last `@`, if there is one. -/
def splitUser (text : List Char) : Option (List Char) × List Char :=
  match splitFirst '@' text.reverse with
  | (host, some user) => (some user.reverse, host.reverse)
  | (host, none) => (none, host.reverse)

/-- The written form of a user name with a password. -/
def writeUser (user : List Char) : List Char :=
  let escape := Text.Percent.encode (printableExcept userEscapes)
  match splitFirst ':' user with
  | (name, some (c :: password)) => escape name ++ [':'] ++ escape (c :: password)
  | (name, _) => escape name

/-- The host and the text from the colon of the port on; colons in brackets do not count. -/
def splitHost : Bool → List Char → List Char × List Char
  | _, [] => ([], [])
  | inside, c :: rest =>
    if c = ':' ∧ inside = false then ([], c :: rest)
    else
      let inside := if c = '[' then true else if c = ']' then false else inside
      let (host, after) := splitHost inside rest
      (c :: host, after)

/-- A port in decimal digits, of which the default of the scheme is dropped. -/
def port? (scheme digits : List Char) : Option (Option Nat) :=
  if digits.isEmpty then some none
  else if digits.all Char.isDigit then
    match numberIn? 10 digits with
    | some port =>
      if 65535 < port then none
      else some (if defaultPort? scheme = some port then none else some port)
    | none => none
  else none

/-- The authority of a URL that is no file. -/
def authority? (scheme text : List Char) : Option Authority := do
  let (user, place) := splitUser text
  let (host, after) := splitHost false place
  if host.isEmpty && (isWeb scheme || user.isSome || !after.isEmpty) then none
  let host ← if isWeb scheme then webHost? host else plainHost? host
  let port ← port? scheme (after.drop 1)
  some ⟨writeUser (user.getD []), host, port⟩

/-! ## Place and path -/

/-- Whether a character divides segments. -/
def isSlash (special : Bool) (c : Char) : Bool := c == '/' || (special && c == '\\')

/-- The text with one kind of slash. -/
def withSlashes (special : Bool) (text : List Char) : List Char :=
  text.map fun c => if isSlash special c then '/' else c

/-- The segments of a path text that begins with a slash, or of none. -/
def readSegments (file : Bool) (text : List Char) : List (List Char) :=
  resolve file [] (Text.splitOn '/' (if text.head? = some '/' then text.drop 1 else text))

/-- The place and path of a web address, however many slashes follow the scheme. -/
def webPlace? (scheme text : List Char) : Option (Option Authority × Path) := do
  let text := (withSlashes true text).dropWhile (· == '/')
  let authority ← authority? scheme (text.takeWhile (· != '/'))
  some (some authority, .segments (readSegments false (text.dropWhile (· != '/'))))

/-- The host of a file, none for this machine. -/
def fileHost? (text : List Char) : Option (List Char) :=
  if text.isEmpty then some []
  else (webHost? text).map fun host =>
    if host = "localhost".toList then [] else host

/-- The place and path of a file. -/
def filePlace? (text : List Char) : Option (Option Authority × Path) :=
  match withSlashes true text with
  | '/' :: '/' :: rest =>
    let host := rest.takeWhile (· != '/')
    if isDrive host then some (some ⟨[], [], none⟩, path rest)
    else (fileHost? host).map fun written =>
      (some ⟨[], written, none⟩, path (rest.dropWhile (· != '/')))
  | text => some (some ⟨[], [], none⟩, path text)
where
  path (text : List Char) : Path := .segments (withoutEmptyFront (readSegments true text))

/-- The place and path under any other scheme. -/
def plainPlace? (scheme : List Char) : List Char → Option (Option Authority × Path)
  | '/' :: '/' :: rest => do
    let authority ← authority? scheme (rest.takeWhile (· != '/'))
    match rest.dropWhile (· != '/') with
    | [] => some (some authority, .segments [])
    | path => some (some authority, .segments (readSegments false path))
  | '/' :: rest => some (none, .segments (readSegments false ('/' :: rest)))
  | text => some (none, .plain (Text.Percent.encode isPrintable text))

/-- The place and path after a scheme. -/
def place? (scheme text : List Char) : Option (Option Authority × Path) :=
  if isFile scheme then filePlace? text
  else if isWeb scheme then webPlace? scheme text
  else plainPlace? scheme text

/-- The URL of a text. -/
def parse? (text : List Char) : Option Url := do
  let (scheme, rest) ← splitScheme? (significant text)
  let (rest, fragment) := splitFirst '#' rest
  let (rest, query) := splitFirst '?' rest
  let (authority, path) ← place? scheme rest
  some {
    scheme, authority, path
    query := query.map (Text.Percent.encode (printableExcept (queryEscapes (isSpecial scheme))))
    fragment := fragment.map (Text.Percent.encode (printableExcept fragmentEscapes)) }

/-! ## Libraries -/

/-- What is used of a library of URLs. A path is given by its segments. -/
structure Library where
  /-- The URL of a text. -/
  parse? : List Char → Option Url
  /-- A path without an empty segment at its end. -/
  popEmpty : List (List Char) → List (List Char)
  /-- A path of a URL with one more segment, which is given as plain text. -/
  push : Url → List (List Char) → List Char → List (List Char)

/-- The library of this project. -/
def Library.standard : Library where
  parse? := Url.parse?
  popEmpty := withoutEmptyEnd
  push url := appendSegment (isSpecial url.scheme)

end Pagewright.Url
