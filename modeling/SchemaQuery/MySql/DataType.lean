import SchemaQuery.Text.Blank
import SchemaQuery.Text.Case

/-! The column types of the engine.  What counts is the base type: the word before any bracket or
blank. -/

namespace SchemaQuery.MySql

/-- The base types that columns may have. -/
def dataTypes : List String :=
  ["bit", "tinyint", "bool", "boolean", "smallint", "mediumint", "int", "integer", "bigint",
    "serial", "decimal", "float", "double", "date", "datetime", "timestamp", "time", "year", "char",
    "varchar", "binary", "varbinary", "tinyblob", "tinytext", "blob", "text", "mediumblob",
    "mediumtext", "longblob", "longtext", "enum", "set", "json"]

/-- The base types whose defaults are written as quoted text. -/
def quotedDefaultTypes : List String :=
  ["char", "varchar", "tinytext", "text", "mediumtext", "longtext", "enum", "set", "date",
    "datetime", "timestamp", "time"]

/-- The base of a type, in lower case. -/
def baseType (type : String) : String :=
  Text.lower (String.ofList (type.toList.takeWhile fun c => !(c == '(' || Text.isBlank c)))

/-- Whether the engine knows the base of the type. -/
def isKnownType (type : String) : Bool := dataTypes.contains (baseType type)

end SchemaQuery.MySql
