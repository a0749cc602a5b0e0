import RequestAtlas.Path
import RequestAtlas.Request.Method
import RequestAtlas.Value.Basic
/-!
# Requests

A request found in a script: the file, the method, the URL template and what is sent.  Requests are put
in order by URL, then method, then path of the file, all by code points.
-/

namespace RequestAtlas

/-- A request (`RequestRecord`).  A body of nothing means that nothing is sent. -/
structure Request where
  source : Path
  method : Method
  url : String
  body : Value := .null
deriving Repr, Inhabited

namespace Request

/-- What requests are ordered by (`RequestRecord.sort_key`). -/
def sortKey (r : Request) : String × String × String := (r.url, r.method.name, r.source.text)

/-- The order of texts in threes, the first difference deciding. -/
def keyLe (a b : String × String × String) : Bool :=
  if a.1 = b.1 then
    if a.2.1 = b.2.1 then Value.keyLe a.2.2 b.2.2 else Value.keyLe a.2.1 b.2.1
  else Value.keyLe a.1 b.1

/-- Requests in order (`sort_records`); those of equal keys stay in the order they came in. -/
def sort (rs : List Request) : List Request := rs.mergeSort fun a b => keyLe a.sortKey b.sortKey

end Request

end RequestAtlas
