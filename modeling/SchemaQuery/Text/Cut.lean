/-! Cutting a text at a character or at a marker, and looking for a marker inside it. -/

namespace SchemaQuery.Text

/-- What stands before and after the first `mark`. -/
def cutFirst (mark : Char) : List Char → Option (List Char × List Char)
  | [] => none
  | c :: rest =>
    if c = mark then some ([], rest)
    else (cutFirst mark rest).map fun (before, after) => (c :: before, after)

/-- What stands before and after the last `mark`. -/
def cutLast (mark : Char) : List Char → Option (List Char × List Char)
  | [] => none
  | c :: rest =>
    match cutLast mark rest with
    | some (before, after) => some (c :: before, after)
    | none => if c = mark then some ([], rest) else none

/-- What stands before and after the first occurrence of `marker`. -/
def cutAt (marker : List Char) : List Char → Option (List Char × List Char)
  | [] => if marker.isEmpty then some ([], []) else none
  | c :: rest =>
    match marker.isPrefixOf? (c :: rest) with
    | some after => some ([], after)
    | none => (cutAt marker rest).map fun (before, after) => (c :: before, after)

/-- The pieces between the occurrences of `mark`; there is always at least one. -/
def cutAll (mark : Char) : List Char → List (List Char)
  | [] => [[]]
  | c :: rest =>
    if c = mark then [] :: cutAll mark rest
    else
      match cutAll mark rest with
      | [] => [[c]]
      | first :: more => (c :: first) :: more

/-- Whether `marker` occurs in the text. -/
def occursIn (marker : String) (text : String) : Bool :=
  (cutAt marker.toList text.toList).isSome

/-- The two halves of a text around its first `mark`. -/
def splitFirst? (mark : Char) (text : String) : Option (String × String) :=
  (cutFirst mark text.toList).map fun (before, after) => (String.ofList before, String.ofList after)

/-- The rest of a text that starts with `lead`. -/
def after? (lead text : String) : Option String :=
  (lead.toList.isPrefixOf? text.toList).map String.ofList

end SchemaQuery.Text
