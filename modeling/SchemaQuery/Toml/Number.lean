import SchemaQuery.Number.Reader
import SchemaQuery.Toml.Quoted

/-! Numbers of a TOML file.  An underscore may stand between two digits; a decimal number has no
leading zero.  Whole numbers have 64 bits. -/

namespace SchemaQuery.Toml

/-- The digits of a text in which single underscores stand between digits. -/
def digits? (isDigit : Char → Bool) (text : List Char) : Option (List Char) :=
  let groups := Text.cutAll '_' text
  if groups.all fun group => !group.isEmpty && group.all isDigit then some groups.flatten else none

/-- Decimal digits without a leading zero. -/
def decimal? (text : List Char) : Option (List Char) :=
  (digits? Char.isDigit text).filter fun digits => digits.head? != some '0' || digits.length == 1

/-- A sign, if there is one, and what follows it. -/
def takeSign : List Char → List Char × List Char
  | '+' :: rest => (['+'], rest)
  | '-' :: rest => (['-'], rest)
  | text => ([], text)

/-- The number of digits in a base other than ten. -/
def readBased? (base : Nat) (text : List Char) : Option Int64 := do
  let n ← numeral? base (← digits? (fun c => (Text.Hex.digitValue? c).any (· < base)) text)
  if n < Nat.pow 2 63 then some (Int64.ofNat n) else none

/-- A whole number: decimal with an optional sign, or hexadecimal, octal or binary. -/
def readInteger? : List Char → Option Int64
  | '0' :: 'x' :: rest => readBased? 16 rest
  | '0' :: 'o' :: rest => readBased? 8 rest
  | '0' :: 'b' :: rest => readBased? 2 rest
  | text => do
    let (sign, rest) := takeSign text
    Number.readInt64? (sign ++ (← decimal? rest))

/-- Whether a text is an exponent behind its `e`. -/
def isExponent (text : List Char) : Bool := (digits? Char.isDigit (takeSign text).2).isSome

/-- Whether a text is digits with a fraction. -/
def isFraction (text : List Char) : Bool :=
  match Text.cutFirst '.' text with
  | some (whole, fraction) => (decimal? whole).isSome && (digits? Char.isDigit fraction).isSome
  | none => false

/-- Whether a text is a decimal number with a fraction, an exponent or both. -/
def isDecimalFloat (text : List Char) : Bool :=
  match Text.cutFirst 'e' (text.map Char.toLower) with
  | some (mantissa, exponent) =>
    (isFraction mantissa || (decimal? mantissa).isSome) && isExponent exponent
  | none => isFraction text

/-- Whether a text is the name of a number. -/
def isNamedFloat (text : List Char) : Bool := text == ['i', 'n', 'f'] || text == ['n', 'a', 'n']

/-- A number with a fraction or an exponent, or a named one.  A number too large to be kept is
refused. -/
def readFloat? (text : List Char) : Option Binary64 :=
  let unsigned := (takeSign text).2
  if isNamedFloat unsigned then Number.readBinary64? text
  else if isDecimalFloat unsigned then
    (Number.readBinary64? (text.filter (· != '_'))).filter (· ≠ Binary64.infinity false)
  else none

end SchemaQuery.Toml
