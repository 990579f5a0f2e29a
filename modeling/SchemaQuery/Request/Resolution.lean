import SchemaQuery.Catalog
import SchemaQuery.Request

/-! The first part of checking a request: there is a connection, the words name a method, and the
table reference is good for that method.  What comes out is the method and the table it works on. -/

namespace SchemaQuery

/-- A method with the table it works on; creating tables and listing them need none. -/
structure Resolved where
  method : Method
  table? : Option Table
deriving DecidableEq

namespace Resolved

/-- The table, or the error that the method has none. -/
def table (resolved : Resolved) : Except Error Table :=
  match resolved.table? with
  | some table => .ok table
  | none => .error (.internal (.noTable resolved.method.keyword))

end Resolved

namespace Request

/-- The table a method works on.  Joins are not in the catalog and can only be read. -/
def resolveTable (catalog : Catalog) (method : Method) (reference : TableRef) :
    Except Error (Option Table) :=
  let known : Except Error (Option Table) :=
    match catalog.table? reference.name with
    | some table => .ok (some table)
    | none => .error (.table (.unknown reference.name))
  match method with
  | .showTables => .ok none
  | .createTable _ _ =>
    if (Text.trim reference.name).isEmpty then .error (.table .unnamed)
    else if (catalog.table? reference.name).isSome then .error (.table (.exists reference.name))
    else .ok none
  | _ =>
    match reference with
    | .byValue table => if table.joined && method.readsRows then .ok (some table) else known
    | .byName _ => known

/-- The method and the table of a request. -/
def resolve (catalog : Catalog) (request : Request) : Except Error Resolved :=
  if catalog.isOpen then do
    let method ← Method.ofText request.method
    let table? ← resolveTable catalog method request.table
    return { method, table? }
  else .error .connectionNotOpen

end Request

end SchemaQuery
