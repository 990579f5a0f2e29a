import SchemaQuery.Text.Hex
import SchemaQuery.Value

/-! Literals in statements.  Text stands in single quotes with backslash escapes, bytes in
hexadecimal, truth values as `1` and `0`. -/

namespace SchemaQuery.MySql

def escapeChar (c : Char) : List Char :=
  match c with
  | '\\' => ['\\', '\\']
  | '\'' => ['\\', '\'']
  | '"' => ['\\', '"']
  | '\n' => ['\\', 'n']
  | '\r' => ['\\', 'r']
  | '\x00' => ['\\', '0']
  | '\x1a' => ['\\', 'Z']
  | _ => [c]

def escape (text : String) : String := String.ofList (text.toList.flatMap escapeChar)

def textLiteral (text : String) : String := "'" ++ escape text ++ "'"

def literal : Value → String
  | .null => "NULL"
  | .bool b => if b then "1" else "0"
  | .int n => toString n.toInt
  | .uint n => toString n.toNat
  | .float x => x.plain
  | .text s => textLiteral s
  | .bytes data => "X'" ++ Text.Hex.ofBytes data ++ "'"

end SchemaQuery.MySql
