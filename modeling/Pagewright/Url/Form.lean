import Pagewright.Text.Percent
import Pagewright.Text.Search

/-!
# Queries as forms

A query is a list of parameters with `&` between them, each a name and a value
with `=` between. A plus stands for a space, and escapes are resolved.
-/

namespace Pagewright.Url

/-- The text of a name or value. -/
def formText (text : List Char) : List Char :=
  Text.Percent.decode (Text.replaceChar '+' ' ' text)

/-- The name and value of one parameter. -/
def formPair (text : List Char) : List Char × List Char :=
  let (name, value) := Text.splitFirst '=' text
  (formText name, formText (value.getD []))

/-- The parameters of a query; empty ones do not count. -/
def formPairs (query : List Char) : List (List Char × List Char) :=
  ((Text.splitOn '&' query).filter (!·.isEmpty)).map formPair

/-- The value of the first parameter with a name. -/
def parameter? (name : List Char) (query : List Char) : Option (List Char) :=
  ((formPairs query).find? (·.1 = name)).map (·.2)

end Pagewright.Url
