import Pagewright.Number.Shortest

/-!
# How numbers are written

Numbers appear in two written forms. Inside JSON a whole number keeps `.0`,
and very large or small numbers use an exponent with an explicit sign. Inside
style declarations and messages numbers are always positional and a whole
number has no point. Both start from the shortest decimal; `Form` records
what differs. A third form, `threePlaces`, is for shares and opacities.
-/

namespace Pagewright.Number

/-- What a written form decides beyond the digits. -/
structure Form where
  /-- An exact tie between two shortest decimals takes the upper one. -/
  tieUp : Bool
  /-- A whole number is written with `.0`. -/
  markWhole : Bool
  /-- Numbers outside `10 ^ low … 10 ^ high` use an exponent. -/
  positional : Option (Int × Int)

/-- JSON text: positional from `10⁻⁵` up to below `10¹⁶`. -/
def Form.json : Form := ⟨false, true, some (-5, 16)⟩

/-- Style declarations and messages: positional always. -/
def Form.plain : Form := ⟨true, false, none⟩

/-- Positional text of a decimal. -/
def Decimal.positional (markWhole : Bool) (d : Decimal) : List Char :=
  let whole := if markWhole then ['.', '0'] else []
  if d.digits.isEmpty then '0' :: whole
  else if d.point ≤ 0 then
    '0' :: '.' :: List.replicate (-d.point).toNat '0' ++ d.digits
  else
    let places := d.point.toNat
    if d.digits.length ≤ places then
      d.digits ++ List.replicate (places - d.digits.length) '0' ++ whole
    else d.digits.take places ++ '.' :: d.digits.drop places

/-- Text `d.dd…e±x` of a decimal with a digit. -/
def Decimal.scientific (d : Decimal) : List Char :=
  let exponent := d.point - 1
  let lead := match d.digits with
    | [] => ['0']
    | [c] => [c]
    | c :: rest => c :: '.' :: rest
  let sign := if exponent < 0 then '-' else '+'
  lead ++ 'e' :: sign :: Nat.toDigits 10 exponent.natAbs

/-- Text of a decimal in a form. -/
def Form.text (form : Form) (d : Decimal) : List Char :=
  match form.positional with
  | some (low, high) =>
    if d.digits.isEmpty || (low ≤ d.point - 1 && d.point - 1 < high) then
      d.positional form.markWhole
    else d.scientific
  | none => d.positional form.markWhole

/-- A sign in front of a negative number, zero included. -/
def withSign (negative : Bool) (text : List Char) : List Char :=
  if negative then '-' :: text else text

/-- A number in a written form. -/
def write (form : Form) (x : Float) : String :=
  match Binary.ofFloat x with
  | .nan => "NaN"
  | .infinite negative => String.ofList (withSign negative "inf".toList)
  | .finite negative mantissa exponent =>
    String.ofList (withSign negative
      (form.text (Decimal.shortest form.tieUp mantissa exponent)))

/-- A number as JSON text. -/
def jsonText (x : Float) : String := write .json x

/-- A number as plain positional text. -/
def plainText (x : Float) : String := write .plain x

/-! ## Three places -/

/-- Drops a run of a character at the end. -/
def trimEnd (c : Char) (text : List Char) : List Char :=
  (text.reverse.dropWhile (· == c)).reverse

/--
At most three places: the exact value rounded with ties to the even
neighbour, then without the zeros at the end and without a bare point.
-/
def threePlaces (x : Float) : String :=
  match Binary.ofFloat x with
  | .nan => "NaN"
  | .infinite negative => String.ofList (withSign negative "inf".toList)
  | .finite negative mantissa exponent =>
    let value := Ratio.ofBinary mantissa exponent
    let thousandths := roundDiv .toEven (value.num * 1000) value.den
    let part := Nat.toDigits 10 (thousandths % 1000)
    let places := List.replicate (3 - part.length) '0' ++ part
    let text := Nat.toDigits 10 (thousandths / 1000) ++ '.' :: places
    String.ofList (trimEnd '.' (trimEnd '0' (withSign negative text)))

end Pagewright.Number
