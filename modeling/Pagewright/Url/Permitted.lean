/-!
# Characters that each part of a URL permits

A part of a URL holds printable ASCII characters, without those that would end
the part or that the standard escapes in it. Whatever is not permitted is
percent-coded.
-/

namespace Pagewright.Url

/-- Printable ASCII characters, the space among them. -/
def isPrintable (c : Char) : Bool := ' ' ≤ c && c ≤ '~'

/-- A printable character outside a list. -/
def printableExcept (excluded : List Char) (c : Char) : Bool :=
  isPrintable c && !excluded.contains c

/-- What a fragment escapes. -/
def fragmentEscapes : List Char := [' ', '"', '<', '>', '\x60']

/-- What a path escapes. -/
def pathEscapes : List Char := fragmentEscapes ++ ['#', '?', '\x7b', '\x7d']

/-- What a user name or password escapes. -/
def userEscapes : List Char :=
  pathEscapes ++ ['/', ':', ';', '=', '@', '[', '\\', ']', '^', '|']

/-- What a segment escapes that is appended to a path as plain text. -/
def segmentEscapes (special : Bool) : List Char :=
  pathEscapes ++ ['/', '%'] ++ if special then ['\\'] else []

/-- What a query escapes. -/
def queryEscapes (special : Bool) : List Char :=
  [' ', '"', '#', '<', '>'] ++ if special then ['\''] else []

end Pagewright.Url
