import RequestAtlas.Numeric.Layout
/-!
# Data values

The values that requests carry and documents are made of: nothing, truth values, numbers, texts, lists
and dictionaries from texts to values.  A dictionary keeps its entries in the order in which their keys
first came.
-/

namespace RequestAtlas

/-- A data value. -/
inductive Value where
  | null
  | bool (b : Bool)
  | int (n : Int)
  | float (x : Binary64)
  | string (s : String)
  | list (items : List Value)
  | dict (entries : List (String × Value))
deriving Repr, Inhabited

namespace Value

/-- Set a key: in place if it is there, else at the end. -/
def put {α : Type} (entries : List (String × α)) (key : String) (value : α) : List (String × α) :=
  match entries with
  | [] => [(key, value)]
  | (k, v) :: rest => if k = key then (k, value) :: rest else (k, v) :: put rest key value

/-- The value of a key. -/
def get? {α : Type} (entries : List (String × α)) (key : String) : Option α :=
  (entries.find? (·.1 == key)).map (·.2)

/-- The order of texts by code points. -/
def keyLe (a b : String) : Bool := !decide (b < a)

/-- Entries in the order of their keys. -/
def sortEntries {α : Type} (entries : List (String × α)) : List (String × α) :=
  entries.mergeSort fun a b => keyLe a.1 b.1

mutual

/-- The value with the entries of every dictionary in it ordered by key (`canonicalize`). -/
def canonical : Value → Value
  | list items => list (canonicalList items)
  | dict entries => dict (sortEntries (canonicalEntries entries))
  | v => v

/-- Apply `canonical` to each item. -/
def canonicalList : List Value → List Value
  | [] => []
  | v :: vs => canonical v :: canonicalList vs

/-- Apply `canonical` to each entry's value. -/
def canonicalEntries : List (String × Value) → List (String × Value)
  | [] => []
  | (k, v) :: es => (k, canonical v) :: canonicalEntries es

end

/-- The largest number of digits an integer may have to be written. -/
def digitLimit : Nat := 4300

/-- Whether an integer has more digits than may be written. -/
def isLong (n : Int) : Bool := Nat.pow 10 digitLimit ≤ n.natAbs

mutual

/-- Whether an integer that is too long occurs in a value. -/
def hasLong : Value → Bool
  | int n => isLong n
  | list items => hasLongList items
  | dict entries => hasLongEntries entries
  | _ => false

/-- Whether `hasLong` holds of some item. -/
def hasLongList : List Value → Bool
  | [] => false
  | v :: vs => hasLong v || hasLongList vs

/-- Whether `hasLong` holds of some entry's value. -/
def hasLongEntries : List (String × Value) → Bool
  | [] => false
  | (_, v) :: es => hasLong v || hasLongEntries es

end

end Value

end RequestAtlas
