import RequestAtlas.Request.Record
import RequestAtlas.Settings.Field
/-!
# Requests from fields

A request given by its fields, checked one by one.  Once made, a request cannot be changed.
-/

namespace RequestAtlas.Request

/-- A field that must be there. -/
def needed {α : Type} (name : String) (check : String → Datum → Checked α) : Option Datum → Checked α
  | some d => check name d
  | none => Field.fail name .missing

/-- A field that names a method exactly. -/
def methodField (name : String) (d : Datum) : Checked Method :=
  match d.string?.bind Method.ofName? with
  | some m => .ok m
  | none => Field.fail name .notChoice

variable [Field.Validator]

/-- A field that is a text with something in it. -/
def urlField (name : String) (d : Datum) : Checked String :=
  match Field.Validator.string name d with
  | .ok "" => Field.fail name .emptyString
  | r => r

/-- The request with the given fields (`RequestRecord`). -/
def ofFields (source method url : Option Datum) (body : Value) : Checked Request :=
  let s := needed "source_path" Field.Validator.path source
  let m := needed "method" methodField method
  let u := needed "url_template" urlField url
  match s, m, u with
  | .ok source, .ok method, .ok url => .ok { source, method, url, body }
  | _, _, _ => .error (Checked.faults s ++ Checked.faults m ++ Checked.faults u)

/-- What comes of writing to a field of a request. -/
def assign (_ : Request) (name : String) : Checked Unit := Field.fail name .readOnly

end RequestAtlas.Request
