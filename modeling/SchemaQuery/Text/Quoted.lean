import SchemaQuery.Text.Hex
import SchemaQuery.Text.Unprintable

/-! Text in double quotes, as diagnostics show it.  Quotes and backslashes are escaped, the usual
control characters have short escapes, and unprintable characters are written by number. -/

namespace SchemaQuery.Text

def quotedChar (c : Char) : List Char :=
  match c with
  | '\x00' => ['\\', '0']
  | '\t' => ['\\', 't']
  | '\r' => ['\\', 'r']
  | '\n' => ['\\', 'n']
  | '\\' => ['\\', '\\']
  | '"' => ['\\', '"']
  | _ =>
    if isUnprintable c then ['\\', 'u', '\x7b'] ++ (Hex.ofNat c.toNat).toList ++ ['\x7d'] else [c]

def quoted (text : String) : String :=
  String.ofList ('"' :: text.toList.flatMap quotedChar ++ ['"'])

end SchemaQuery.Text
