import RequestAtlas.Text.Upper
/-!
# Request methods
-/

namespace RequestAtlas

/-- The methods that a client offers as a call of their own (`HttpMethod`). -/
inductive Method where
  | get
  | post
  | put
  | patch
  | delete
  | head
  | options
deriving DecidableEq, Repr, Inhabited

namespace Method

def all : List Method := [get, post, put, patch, delete, head, options]

def name : Method → String
  | get => "GET"
  | post => "POST"
  | put => "PUT"
  | patch => "PATCH"
  | delete => "DELETE"
  | head => "HEAD"
  | options => "OPTIONS"

/-- The method of exactly this name. -/
def ofName? (s : String) : Option Method := all.find? (·.name == s)

/-- The method that a client's function of this name sends, whatever its case (`HttpMethod.from_name`). -/
def ofCall? (s : String) : Option Method := ofName? (Text.upper s)

/-- Whether the second argument of the call is what is sent. -/
def hasBody : Method → Bool
  | post => true
  | put => true
  | patch => true
  | _ => false

end Method

end RequestAtlas
