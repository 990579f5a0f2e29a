import SchemaQuery.Number.Shortest

/-! How a double-precision number is written.  `Binary64.plain` never uses an exponent and writes
whole numbers without a point; `Binary64.json?` keeps a point or an exponent in every number. -/

namespace SchemaQuery.Binary64

/-- `count` zeros. -/
def zeros (count : Nat) : List Char := List.replicate count '0'

namespace Decimal

def parts (d : Decimal) : List Char × List Char :=
  if d.point ≤ 0 then (['0'], zeros (-d.point).toNat ++ d.digits)
  else
    let whole := d.point.toNat
    (d.digits.take whole ++ zeros (whole - d.digits.length), d.digits.drop whole)

/-- The decimal without an exponent; a whole number has no point. -/
def positional (d : Decimal) : List Char :=
  match d.parts with
  | (whole, []) => whole
  | (whole, fraction) => whole ++ '.' :: fraction

/-- The decimal without an exponent; a whole number ends in `.0`. -/
def pointed (d : Decimal) : List Char :=
  match d.parts with
  | (whole, []) => whole ++ ['.', '0']
  | (whole, fraction) => whole ++ '.' :: fraction

/-- One digit before the point, and an exponent that always has a sign. -/
def scientific (d : Decimal) : List Char :=
  let exponent := d.point - 1
  let sign := if exponent < 0 then '-' else '+'
  let mantissa :=
    match d.digits with
    | [] => ['0']
    | [digit] => [digit]
    | digit :: more => digit :: '.' :: more
  mantissa ++ 'e' :: sign :: Nat.toDigits 10 exponent.natAbs

/-- Numbers from `10 ^ -5` up to `10 ^ 16` are written without an exponent, all others with one. -/
def jsonText (d : Decimal) : List Char :=
  if -5 < d.point ∧ d.point ≤ 16 then d.pointed else d.scientific

end Decimal

/-- The text with a minus sign in front when the number is negative. -/
def signed (x : Binary64) (text : List Char) : String :=
  String.ofList (if x.isNegative then '-' :: text else text)

/-- The number without an exponent, in the fewest digits that read back, a half going up. -/
def plain (x : Binary64) : String :=
  match x.magnitude with
  | .nan => "NaN"
  | .infinite => x.signed ['i', 'n', 'f']
  | .finite 0 _ => x.signed ['0']
  | .finite m q => x.signed (shortest .up m q).positional

/-- The number as a JSON number, in the fewest digits that read back, a half going to the even
digit; NaN and the infinities have no such form. -/
def json? (x : Binary64) : Option String :=
  match x.magnitude with
  | .nan | .infinite => none
  | .finite 0 _ => some (x.signed ['0', '.', '0'])
  | .finite m q => some (x.signed (shortest .toEven m q).jsonText)

end SchemaQuery.Binary64
