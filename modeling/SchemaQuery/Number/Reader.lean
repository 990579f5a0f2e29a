import SchemaQuery.Number.Binary64

/-! Reading numbers from text.  Whole numbers are an optional sign and digits, within bounds;
decimal numbers may also have a point and an exponent, or name an infinity or NaN. -/

namespace SchemaQuery.Number

/-- The value of decimal digits read after `value`. -/
def digitsValue (value : Nat) : List Char → Nat
  | [] => value
  | c :: rest => digitsValue (value * 10 + (c.toNat - '0'.toNat)) rest

def readDigits? (text : List Char) : Option Nat :=
  if !text.isEmpty && text.all Char.isDigit then some (digitsValue 0 text) else none

/-- A whole number from `0` to `most`; a plus sign may stand before the digits. -/
def readNat? (most : Nat) (text : List Char) : Option Nat :=
  let digits := match text with
    | '+' :: rest => rest
    | _ => text
  (readDigits? digits).filter (· ≤ most)

/-- A whole number from `least` to `most`; a sign may stand before the digits. -/
def readInt? (least most : Int) (text : List Char) : Option Int :=
  let number : Option Int := match text with
    | '+' :: rest => (readDigits? rest).map Int.ofNat
    | '-' :: rest => (readDigits? rest).map fun n => -(n : Int)
    | _ => (readDigits? text).map Int.ofNat
  number.filter fun n => least ≤ n && n ≤ most

def readInt64? (text : List Char) : Option Int64 :=
  (readInt? Int64.minValue.toInt Int64.maxValue.toInt text).map Int64.ofInt

def readUInt64? (text : List Char) : Option UInt64 :=
  (readNat? (UInt64.size - 1) text).map UInt64.ofNat

def readUInt16? (text : List Char) : Option UInt16 :=
  (readNat? (UInt16.size - 1) text).map UInt16.ofNat

/-- The exponent at the end of a decimal number: nothing, or `e` and a whole number. -/
def readExponent? : List Char → Option Int
  | [] => some 0
  | c :: rest =>
    if c = 'e' ∨ c = 'E' then
      match rest with
      | '+' :: digits => (readDigits? digits).map Int.ofNat
      | '-' :: digits => (readDigits? digits).map fun n => -(n : Int)
      | digits => (readDigits? digits).map Int.ofNat
    else none

/-- An unsigned decimal number: digits with at most one point, at least one digit, and an
exponent. -/
def readDecimal? (negative : Bool) (text : List Char) : Option Binary64 :=
  let whole := text.takeWhile Char.isDigit
  let rest := text.dropWhile Char.isDigit
  let (fraction, tail) := match rest with
    | '.' :: more => (more.takeWhile Char.isDigit, more.dropWhile Char.isDigit)
    | _ => ([], rest)
  if whole.isEmpty && fraction.isEmpty then none
  else (readExponent? tail).map fun exponent =>
    Binary64.ofDecimal negative (digitsValue 0 (whole ++ fraction)) (exponent - fraction.length)

/-- A number without its sign: a decimal number, or a name in any letter case. -/
def readUnsigned? (negative : Bool) (text : List Char) : Option Binary64 :=
  match text.map Char.toLower with
  | ['n', 'a', 'n'] => some (Binary64.quietNaN negative)
  | ['i', 'n', 'f'] => some (Binary64.infinity negative)
  | ['i', 'n', 'f', 'i', 'n', 'i', 't', 'y'] => some (Binary64.infinity negative)
  | _ => readDecimal? negative text

/-- A double-precision number: an optional sign, then a decimal number, `inf`, `infinity` or
`nan`. -/
def readBinary64? (text : List Char) : Option Binary64 :=
  match text with
  | '-' :: rest => readUnsigned? true rest
  | '+' :: rest => readUnsigned? false rest
  | _ => readUnsigned? false text

end SchemaQuery.Number
