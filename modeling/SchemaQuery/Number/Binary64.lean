/-! Double-precision numbers as their 64 bits.  A number is kept and compared by its bits, so that
NaN, the two zeros and the infinities stay apart; `Binary64.magnitude` gives the bits their
meaning. -/

namespace SchemaQuery

/-- A double-precision number, given by its bits. -/
structure Binary64 where
  bits : UInt64
deriving DecidableEq

namespace Binary64

/-- What bits stand for: no number, an infinity, or `mantissa * 2 ^ exponent`. -/
inductive Magnitude
  | nan
  | infinite
  | finite (mantissa : Nat) (exponent : Int)

/-- The weight of the sign bit. -/
def signWeight : Nat := Nat.pow 2 63

/-- The least mantissa of 53 binary digits, which is also the weight of the exponent's last bit. -/
def leastMantissa : Nat := Nat.pow 2 52

/-- The bits of the positive infinity. -/
def infinityBits : Nat := 2047 * leastMantissa

/-- Whether the sign bit is set. -/
def isNegative (x : Binary64) : Bool := signWeight ≤ x.bits.toNat

/-- The number without its sign. -/
def magnitude (x : Binary64) : Magnitude :=
  let fraction : Nat := x.bits.toNat % leastMantissa
  let exponent : Nat := x.bits.toNat / leastMantissa % 2048
  if exponent = 2047 then
    if fraction = 0 then .infinite else .nan
  else if exponent = 0 then .finite fraction (-1074)
  else .finite (leastMantissa + fraction) ((exponent : Int) - 1075)

/-- Bits from a sign and the bits below it. -/
def ofSignBits (negative : Bool) (rest : Nat) : Binary64 :=
  ⟨UInt64.ofNat ((if negative then signWeight else 0) + rest)⟩

/-- The infinity of a sign. -/
def infinity (negative : Bool) : Binary64 := ofSignBits negative infinityBits

/-- The quiet NaN of a sign. -/
def quietNaN (negative : Bool) : Binary64 := ofSignBits negative (infinityBits + leastMantissa / 2)

/-- `numerator / denominator` rounded to a whole number, a half going to the even neighbour. -/
def roundHalfEven (numerator denominator : Nat) : Nat :=
  let whole := numerator / denominator
  let twice := 2 * (numerator % denominator)
  if denominator < twice || (twice == denominator && whole % 2 == 1) then whole + 1 else whole

/-- `numerator * 2 ^ -exponent / denominator` as a fraction. -/
def scaled (numerator denominator : Nat) (exponent : Int) : Nat × Nat :=
  (numerator * Nat.pow 2 (-exponent).toNat, denominator * Nat.pow 2 exponent.toNat)

/-- The exponent that brings `numerator / denominator` to 53 binary digits, as far as the smallest
exponent allows. -/
def exponentFor (numerator denominator : Nat) : Int :=
  let guess : Int := (Nat.log2 numerator : Int) - Nat.log2 denominator - 52
  let (n, d) := scaled numerator denominator guess
  max (if n / d < leastMantissa then guess - 1 else guess) (-1074)

/-- The number nearest to `numerator / denominator`, a half going to the even mantissa; an infinity
when it is too large. -/
def ofFraction (negative : Bool) (numerator denominator : Nat) : Binary64 :=
  if numerator = 0 then ofSignBits negative 0
  else
    let exponent := exponentFor numerator denominator
    let (n, d) := scaled numerator denominator exponent
    let mantissa := roundHalfEven n d
    let rest :=
      if mantissa < leastMantissa then mantissa
      else (exponent + 1075).toNat * leastMantissa + (mantissa - leastMantissa)
    ofSignBits negative (min rest infinityBits)

/-- The number nearest to `digits * 10 ^ exponent`.  An exponent far outside the range of the format
is not carried out. -/
def ofDecimal (negative : Bool) (digits : Nat) (exponent : Int) : Binary64 :=
  let size : Int := (Nat.toDigits 10 digits).length
  if digits = 0 then ofSignBits negative 0
  else if exponent + size < -400 then ofSignBits negative 0
  else if 400 < exponent + size then infinity negative
  else ofFraction negative (digits * Nat.pow 10 exponent.toNat)
      (Nat.pow 10 (-exponent).toNat)

end Binary64

end SchemaQuery
