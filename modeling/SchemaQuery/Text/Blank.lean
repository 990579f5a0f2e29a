/-! Blank characters, and the two operations that depend on them: trimming a text and cutting it
into words.  A character is blank when it has the Unicode property `White_Space`. -/

namespace SchemaQuery.Text

/-- A character with the Unicode property `White_Space`. -/
def isBlank (c : Char) : Bool :=
  let n := c.toNat
  (9 ≤ n && n ≤ 13) || n == 0x20 || n == 0x85 || n == 0xA0 || n == 0x1680
    || (0x2000 ≤ n && n ≤ 0x200A) || n == 0x2028 || n == 0x2029 || n == 0x202F
    || n == 0x205F || n == 0x3000

def trimEnd : List Char → List Char
  | [] => []
  | c :: rest =>
    match trimEnd rest with
    | [] => if isBlank c then [] else [c]
    | kept => c :: kept

def trimChars (text : List Char) : List Char := trimEnd (text.dropWhile isBlank)

def trim (text : String) : String := String.ofList (trimChars text.toList)

/-- The runs of characters between blank ones; the first item is the run that reaches the start. -/
def runs : List Char → List Char × List (List Char)
  | [] => ([], [])
  | c :: rest =>
    let (first, more) := runs rest
    if isBlank c then ([], first :: more) else (c :: first, more)

/-- The words of a text: its longest runs without a blank character. -/
def words (text : String) : List String :=
  let (first, more) := runs text.toList
  ((first :: more).filter (!·.isEmpty)).map String.ofList

end SchemaQuery.Text
