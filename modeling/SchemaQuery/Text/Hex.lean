/-! Hexadecimal text: two lower-case digits for each byte, and numbers without leading zeros.
Digits in either case can be read back. -/

namespace SchemaQuery.Text.Hex

/-- The digit for a value below 16, in lower case. -/
def digit (n : Nat) : Char := Nat.digitChar n

def ofByte (b : UInt8) : List Char := [digit (b.toNat / 16), digit (b.toNat % 16)]

/-- The digits of bytes, two for each. -/
def ofBytes (bytes : List UInt8) : String := String.ofList (bytes.flatMap ofByte)

def ofWord (word : UInt64) : String :=
  ofBytes ((List.range 8).map fun place => UInt8.ofNat (word.toNat / Nat.pow 256 (7 - place)))

/-- A number in hexadecimal, without leading zeros. -/
def ofNat (n : Nat) : String := String.ofList (Nat.toDigits 16 n)

def digitValue? (c : Char) : Option Nat :=
  if c.isDigit then some (c.toNat - '0'.toNat)
  else if 'a' ≤ c ∧ c ≤ 'f' then some (c.toNat - 'a'.toNat + 10)
  else if 'A' ≤ c ∧ c ≤ 'F' then some (c.toNat - 'A'.toNat + 10)
  else none

/-- The bytes that digits stand for, two for each. -/
def readBytes? : List Char → Option (List UInt8)
  | [] => some []
  | [_] => none
  | high :: low :: rest => do
    let h ← digitValue? high
    let l ← digitValue? low
    let bytes ← readBytes? rest
    return UInt8.ofNat (16 * h + l) :: bytes

end SchemaQuery.Text.Hex
