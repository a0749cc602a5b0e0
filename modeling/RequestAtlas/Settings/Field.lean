import RequestAtlas.Path
import RequestAtlas.Text.Utf8
import RequestAtlas.Value.Graph
/-!
# Fields and their faults

Input that names its fields, such as a settings file, is checked field by field.  All faults are reported,
each with the place where it was found.
-/

namespace RequestAtlas

/-- A value of a settings file or an option. -/
inductive Datum where
  | scalar (s : Scalar)
  | list (items : List Datum)
  | mapping (entries : List (Datum × Datum))
  /-- Bytes; they count as a text if they are one. -/
  | bytes (content : List UInt8)
  /-- A date, a time or a value inside itself: nothing that a setting could be. -/
  | other
deriving Repr, Inhabited

namespace Datum

def null : Datum := .scalar .null

def string (s : String) : Datum := .scalar (.string s)

def isNull : Datum → Bool
  | .scalar .null => true
  | _ => false

/-- The text that a datum is. -/
def string? : Datum → Option String
  | .scalar (.string s) => some s
  | .bytes content =>
    match Text.decodeUtf8 content with
    | .ok cs => some (String.ofList cs)
    | .error _ => none
  | _ => none

def isBytes : Datum → Bool
  | .bytes _ => true
  | _ => false

end Datum

/-- A step to a place in the input. -/
inductive Place where
  | field (name : String)
  | item (index : Nat)
deriving DecidableEq, Repr, Inhabited

/-- What is wrong at a place. -/
inductive Fault where
  | missing
  | notString
  /-- Bytes that are no text. -/
  | notText
  | emptyString
  | notPath
  | notChoice
  | notList
  | unknownField
  | readOnly
  /-- A rule of the field itself is broken. -/
  | rule (text : String)
deriving DecidableEq, Repr, Inhabited

/-- The short name of a fault. -/
def Fault.code : Fault → String
  | .missing => "missing"
  | .notString => "string_type"
  | .notText => "string_unicode"
  | .emptyString => "string_too_short"
  | .notPath => "path_type"
  | .notChoice => "enum"
  | .notList => "tuple_type"
  | .unknownField => "extra_forbidden"
  | .readOnly => "frozen_instance"
  | .rule _ => "value_error"

/-- The text of a fault, for rules of a field. -/
def Fault.message? : Fault → Option String
  | .rule text => some ("Value error, " ++ text)
  | _ => none

/-- A fault and where it is. -/
structure FieldError where
  place : List Place
  fault : Fault
deriving DecidableEq, Repr, Inhabited

/-- The outcome of a check. -/
abbrev Checked (α : Type) := Except (List FieldError) α

/-- The faults that a check found. -/
def Checked.faults {α : Type} : Checked α → List FieldError
  | .ok _ => []
  | .error es => es

namespace Field

/-- A fault of a whole field. -/
def fail {α : Type} (name : String) (fault : Fault) : Checked α := .error [⟨[.field name], fault⟩]

/-- A field that is a path. -/
def path (name : String) (d : Datum) : Checked Path :=
  match d.string? with
  | some s => .ok (Path.ofString s)
  | none => fail name .notPath

/-- What is wrong with a datum that is no text. -/
def textFault (d : Datum) : Fault := if d.isBytes then .notText else .notString

/-- A field that is a text. -/
def string (name : String) (d : Datum) : Checked String :=
  match d.string? with
  | some s => .ok s
  | none => fail name (textFault d)

/-- The items of a list of texts from an index on, with a fault for each that is none. -/
def items (name : String) (index : Nat) : List Datum → List String × List FieldError
  | [] => ([], [])
  | d :: ds =>
    let (good, bad) := items name (index + 1) ds
    match d.string? with
    | some s => (s :: good, bad)
    | none => (good, ⟨[.field name, .item index], textFault d⟩ :: bad)

/-- A field that is a list of texts. -/
def strings (name : String) : Datum → Checked (List String)
  | .list ds =>
    match items name 0 ds with
    | (good, []) => .ok good
    | (_, bad) => .error bad
  | _ => fail name .notList

/-- What checks that data are of the type of their field (`pydantic`), a library of its own. -/
class Validator where
  path : String → Datum → Checked Path
  string : String → Datum → Checked String
  strings : String → Datum → Checked (List String)

/-- The checks that are described here. -/
@[reducible]
def Validator.lax : Validator := ⟨Field.path, Field.string, Field.strings⟩

end Field

end RequestAtlas
