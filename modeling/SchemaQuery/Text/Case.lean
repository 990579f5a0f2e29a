/-! Letter case.  Keywords are compared without regard to the case of the letters `A` to `Z`; every
other character stands for itself. -/

namespace SchemaQuery.Text

/-- The text with `A` to `Z` in lower case. -/
def lower (text : String) : String := String.ofList (text.toList.map Char.toLower)

/-- The text with `a` to `z` in upper case. -/
def upper (text : String) : String := String.ofList (text.toList.map Char.toUpper)

/-- Whether two texts differ only in the case of the letters `A` to `Z`. -/
def sameLetters (a b : String) : Bool := lower a == lower b

end SchemaQuery.Text
