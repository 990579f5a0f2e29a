import SchemaQuery.Json
import SchemaQuery.Number.Layout
import SchemaQuery.Number.Reader
import SchemaQuery.Text.Blank
import SchemaQuery.Text.Utf8

/-! Cell values.  Whole numbers are equal when they are the same number, however they are kept;
floats are equal when their bits are; values of different sorts differ. -/

namespace SchemaQuery

/-- A single cell: what a statement carries and what an engine answers. -/
inductive Value
  | null
  | bool (b : Bool)
  | int (n : Int64)
  | uint (n : UInt64)
  | float (x : Binary64)
  | text (s : String)
  | bytes (data : List UInt8)
deriving DecidableEq

namespace Value

/-- Whether the cell is empty. -/
def isNull : Value → Bool
  | .null => true
  | _ => false

def text? : Value → Option String
  | .text s => some s
  | _ => none

/-- The value as a signed 64-bit number, if it is one: whole numbers in range, truth values, and
text that spells such a number between blanks. -/
def int64? : Value → Option Int64
  | .int n => some n
  | .uint n => if n.toNat < Nat.pow 2 63 then some (Int64.ofNat n.toNat) else none
  | .bool b => some (if b then 1 else 0)
  | .text s => Number.readInt64? (Text.trimChars s.toList)
  | _ => none

/-- Equality of values: whole numbers by number, floats by bits. -/
def same : Value → Value → Bool
  | .null, .null => true
  | .bool a, .bool b => a == b
  | .int a, .int b => a == b
  | .uint a, .uint b => a == b
  | .int a, .uint b | .uint b, .int a => a.toInt == (b.toNat : Int)
  | .float a, .float b => a == b
  | .text a, .text b => a == b
  | .bytes a, .bytes b => a == b
  | _, _ => false

/-- A word as bytes, the lowest first. -/
def wordBytes (word : UInt64) : List UInt8 :=
  (List.range 8).map fun place => UInt8.ofNat (word.toNat / Nat.pow 256 place)

/-- The bytes that a value is hashed by: a byte for its sort, then its content.  A whole number that
is not negative has the same bytes however it is kept. -/
def hashBytes : Value → List UInt8
  | .null => [0]
  | .bool b => [1, if b then 1 else 0]
  | .int n => (if 0 ≤ n then 2 else 3) :: wordBytes n.toUInt64
  | .uint n => 2 :: wordBytes n
  | .float x => 4 :: wordBytes x.bits
  | .text s => 5 :: s.toUTF8.toList ++ [0xFF]
  | .bytes data => 6 :: wordBytes (UInt64.ofNat data.length) ++ data

def display : Value → String
  | .null => "NULL"
  | .bool true => "true"
  | .bool false => "false"
  | .int n => toString n.toInt
  | .uint n => toString n.toNat
  | .float x => x.plain
  | .text s => s
  | .bytes data => Text.Utf8.decodeLossy data

/-- The value as a JSON document; NaN and the infinities become `null`, bytes a list of numbers. -/
def toJson : Value → Json
  | .null => .null
  | .bool b => .bool b
  | .int n => .number (toString n.toInt)
  | .uint n => .number (toString n.toNat)
  | .float x => match x.json? with
    | some written => .number written
    | none => .null
  | .text s => .string s
  | .bytes data => .array (data.map fun b => .number (toString b.toNat))

/-- Whether a value equal to `v` is in the list. -/
def isIn (v : Value) (values : List Value) : Bool := values.any v.same

/-- The values, each kept where it first occurs. -/
def distinct (values : List Value) : List Value :=
  values.foldl (fun kept v => if v.isIn kept then kept else kept ++ [v]) []

end Value

end SchemaQuery
