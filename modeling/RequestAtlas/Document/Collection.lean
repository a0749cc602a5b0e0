import RequestAtlas.Request.Record
import RequestAtlas.Value.Printer
import RequestAtlas.Text.Affix
import RequestAtlas.Text.Blank
import RequestAtlas.Literal.Reconstruction
/-!
# Collections

The document that lists requests for an API client: one item per request, in order, each with the same
headers, the parts of its URL and, where something is sent, the text of the body.
-/

namespace RequestAtlas.Document

/-- The format of collections. -/
def collectionSchema : String := "https://schema.getpostman.com/json/collection/v2.1.0/collection.json"

/-- The variable that holds the address of the API. -/
def baseUrl : String := Literal.placeholder "API_BASE_URL"

/-- The headers of every request. -/
def headers : List (String × String) :=
  [("x-reap-api-key", Literal.placeholder "API_KEY"),
   ("Accept-Version", Literal.placeholder "ACCEPT_VERSION"),
   ("Content-Type", "application/json"),
   ("accept", "application/json")]

/-- The variables that requests refer to. -/
def variableNames : List String := ["API_BASE_URL", "API_KEY", "ACCEPT_VERSION", "WEBHOOK_SUBSCRIBE_URL"]

def defaultCollectionName : String := "Reap API Tools (Generated)"

/-- The segments of the path of a URL: what stands between slashes before the first question mark. -/
def urlSegments (cs : List Char) : List (List Char) :=
  (Path.pieces (cs.takeWhile (· != '?'))).filter (· != [])

/-- The parts of a URL (`build_url`).  Host and path are given only for URLs on the base address. -/
def url (raw : String) : Value :=
  match Text.dropStart? baseUrl.toList raw.toList with
  | some rest =>
    .dict [("raw", .string raw), ("host", .list [.string baseUrl]),
      ("path", .list ((urlSegments rest).map fun s => .string (String.ofList s)))]
  | none => .dict [("raw", .string raw)]

/-- The display name of a request (`request_name`). -/
def requestName (cwd : List String) (base : Path) (r : Request) : String :=
  r.method.name ++ " " ++ r.url ++ " (" ++ Path.relative cwd base r.source ++ ")"

/-- The text of a body inside an item: as it is written, without blanks at the end. -/
def bodyText (body : Value) : Except RenderError String :=
  body.render.map fun s => String.ofList (Text.trimEnd s.toList)

/-- The part of an item that holds the body; there is none if nothing is sent. -/
def bodyPart : Value → Except RenderError (List (String × Value))
  | .null => .ok []
  | body => do
    let raw ← bodyText body
    return [("body", .dict [("mode", .string "raw"), ("raw", .string raw),
      ("options", .dict [("raw", .dict [("language", .string "json")])])])]

/-- The item of a request (`build_item`). -/
def item (cwd : List String) (base : Path) (r : Request) : Except RenderError Value := do
  let body ← bodyPart r.body
  return .dict
    [("name", .string (requestName cwd base r)),
     ("request", .dict ([
       ("method", .string r.method.name),
       ("header", .list (headers.map fun (k, v) => .dict [("key", .string k), ("value", .string v)])),
       ("url", url r.url)] ++ body))]

/-- The collection of some requests (`build_collection`). -/
def collection (cwd : List String) (base : Path) (name : String) (rs : List Request) :
    Except RenderError Value := do
  let items ← (Request.sort rs).mapM (item cwd base)
  return .dict
    [("info", .dict [("name", .string name), ("schema", .string collectionSchema)]),
     ("variable", .list (variableNames.map fun k => .dict [("key", .string k), ("value", .string "")])),
     ("item", .list items)]

end RequestAtlas.Document
