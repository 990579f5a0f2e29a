import SchemaQuery.Request.Schema
import SchemaQuery.Request.Shape

/-! Checking requests.  The first fault is reported: the connection, the method and the table come
first, then the shape of the request, and the schema last. -/

namespace SchemaQuery.Request

/-- The method and table of a request that passes every check. -/
def validate (catalog : Catalog) (request : Request) : Except Error Resolved := do
  let resolved ← resolve catalog request
  checkShape resolved.method request
  checkSchema catalog resolved request
  return resolved

/-- Whether a request passes every check. -/
def isValid (catalog : Catalog) (request : Request) : Bool :=
  (validate catalog request).toOption.isSome

end SchemaQuery.Request
