/-! The character sets that a connection can ask for.  They are known by their names in lower case,
and by no other spelling. -/

namespace SchemaQuery.MySql

/-- The names of the character sets. -/
def charsets : List String :=
  ["armscii8", "ascii", "big5", "binary", "cp1250", "cp1251", "cp1256", "cp1257", "cp850", "cp852",
    "cp866", "cp932", "dec8", "eucjpms", "euckr", "gb18030", "gb2312", "gbk", "geostd8", "greek",
    "hebrew", "hp8", "keybcs2", "koi8r", "koi8u", "latin1", "latin2", "latin5", "latin7", "macce",
    "macroman", "sjis", "swe7", "tis620", "ucs2", "ujis", "utf16", "utf16le", "utf32", "utf8",
    "utf8mb4"]

/-- Whether a connection can ask for the character set of that name. -/
def isKnownCharset (name : String) : Bool := charsets.contains name

end SchemaQuery.MySql
