import RequestAtlas.Calendar.Moment
import RequestAtlas.Document.Collection
/-!
# Environments

The template in which a user fills in the variables of a collection, stamped with the time of its export.
-/

namespace RequestAtlas.Document

def defaultEnvironmentName : String := "Reap API (Template)"

/-- The tool that an environment names as its origin. -/
def exportedUsing : String := "generate_postman_schema"

/-- The environment of the variables of every collection (`build_environment`). -/
def environment (name : String) (exportedAt : Moment) : Except Moment.Error Value := do
  let stamp ← exportedAt.stamp
  return .dict
    [("name", .string name),
     ("values", .list (variableNames.map fun k => .dict
       [("key", .string k), ("value", .string ""), ("enabled", .bool true), ("type", .string "default")])),
     ("_postman_variable_scope", .string "environment"),
     ("_postman_exported_at", .string stamp),
     ("_postman_exported_using", .string exportedUsing)]

end RequestAtlas.Document
