import SchemaQuery.Text.Case
import SchemaQuery.Text.Cut
import SchemaQuery.Value

/-! Reading the cells of an answer, which the engine sends as text.  The type of the column decides
what the text means; text that does not fit its type stays text. -/

namespace SchemaQuery.MySql

/-- The types of whole numbers. -/
def integerTypes : List String :=
  ["TINYINT", "SMALLINT", "MEDIUMINT", "INT", "INTEGER", "BIGINT", "YEAR"]

/-- A truth value, which is sent as `0` or `1`. -/
def readTruth? (text : String) : Option Value :=
  if text = "0" then some (.bool false) else if text = "1" then some (.bool true) else none

/-- The value of a text under an upper-case type, if it fits. -/
def readCell? (type text : String) : Option Value :=
  let base := (Text.words type).headD ""
  if integerTypes.contains base then
    if Text.occursIn "UNSIGNED" type then (Number.readUInt64? text.toList).map .uint
    else (Number.readInt64? text.toList).map .int
  else if base = "BOOLEAN" ∨ base = "BOOL" then readTruth? text
  else if base = "FLOAT" ∨ base = "DOUBLE" then (Number.readBinary64? text.toList).map .float
  else none

def valueOfText (type text : String) : Value := (readCell? (Text.upper type) text).getD (.text text)

end SchemaQuery.MySql
