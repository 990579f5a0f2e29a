import SchemaQuery.Text.Cut
import SchemaQuery.Text.Hex

/-! The two sorts of strings of a TOML file that fit on one line.  A basic string has escapes, a
literal string stands for its characters; neither may hold a control character other than a tab. -/

namespace SchemaQuery.Toml

/-- Whether a character may not stand in a file, other than as part of a line end. -/
def isControl (c : Char) : Bool := (c.toNat < 0x20 && c != '\t') || c.toNat == 0x7F

def escape? (c : Char) : Option Char :=
  match c with
  | 'b' => some '\x08'
  | 't' => some '\t'
  | 'n' => some '\n'
  | 'f' => some '\x0c'
  | 'r' => some '\r'
  | '"' => some '"'
  | '\\' => some '\\'
  | _ => none

def numeral? (base : Nat) (digits : List Char) : Option Nat :=
  digits.foldlM (fun n c => do
    let d ← (Text.Hex.digitValue? c).filter (· < base)
    return n * base + d) 0

def numbered? (digits : List Char) : Option Char := do
  let n ← numeral? 16 digits
  if n.isValidChar then some (Char.ofNat n) else none

/-- The characters of a basic string and what follows its closing quote, from behind the opening
one. -/
def readBasic? : List Char → Option (List Char × List Char)
  | [] => none
  | '"' :: rest => some ([], rest)
  | '\\' :: 'u' :: a :: b :: c :: d :: rest => do
    let escaped ← numbered? [a, b, c, d]
    let (more, rest) ← readBasic? rest
    return (escaped :: more, rest)
  | '\\' :: 'U' :: a :: b :: c :: d :: e :: f :: g :: h :: rest => do
    let escaped ← numbered? [a, b, c, d, e, f, g, h]
    let (more, rest) ← readBasic? rest
    return (escaped :: more, rest)
  | '\\' :: c :: rest => do
    let escaped ← escape? c
    let (more, rest) ← readBasic? rest
    return (escaped :: more, rest)
  | c :: rest => do
    let (more, rest) ← readBasic? rest
    if isControl c then none else return (c :: more, rest)

/-- The characters of a literal string and what follows its closing quote, from behind the opening
one. -/
def readLiteral? (text : List Char) : Option (List Char × List Char) :=
  (Text.cutFirst '\'' text).filter fun (content, _) => !content.any isControl

/-- A string at the start of a text, if a quote opens one, and what follows it. -/
def readString? : List Char → Option (List Char × List Char)
  | '"' :: rest => readBasic? rest
  | '\'' :: rest => readLiteral? rest
  | _ => none

end SchemaQuery.Toml
