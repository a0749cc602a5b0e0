import RequestAtlas.Settings.Basic
import RequestAtlas.Workspace.Files
import RequestAtlas.Yaml.Datum
/-!
# Layers of settings

Settings come from a file, if one is named, and from options, which win.  An option without a value counts as
not given; a field of the file without a value is one that has the wrong type.
-/

namespace RequestAtlas.Settings

/-- What reads the document of a settings file (`yaml.safe_load`), a library of its own. -/
class DocumentReader where
  read : List Char → Except Yaml.Error Datum

/-- The reader that is described here. -/
@[reducible]
def DocumentReader.yaml [Surrogates] : DocumentReader := ⟨Yaml.read⟩

/-- Why settings cannot be loaded. -/
inductive LoadError where
  /-- The file cannot be read as a document. -/
  | unreadable (path : Path)
  /-- The document of the file is no mapping. -/
  | notMapping (path : Path)
  /-- Fields are wrong. -/
  | invalid (faults : List FieldError)
  /-- The file is no text. -/
  | notText (cause : Text.Utf8Error)
  /-- A scalar of the file denotes no value. -/
  | noValue (cause : Yaml.Invalid)
  /-- A key of the file is no text. -/
  | notName
  /-- The name of the file cannot be that of a file. -/
  | badName (fault : PathFault)
deriving DecidableEq, Repr

/-- How many faults there are. -/
def faultCount (n : Nat) : String :=
  toString n ++ " validation error" ++ (if n = 1 then "" else "s") ++ " for GeneratorSettings"

variable [Surrogates]

def LoadError.message : LoadError → String
  | .unreadable p => "Cannot read config file " ++ p.text
  | .notMapping p => "Config file " ++ p.text ++ " must contain a mapping"
  | .invalid faults => "Invalid settings: " ++ faultCount faults.length
  | .notText e => e.message
  | .noValue e => e.message
  | .notName => "keywords must be strings"
  | .badName f => f.message

variable [DocumentReader] [Field.Validator]

/-- The entries of a settings file (`_read_config_file`). -/
def fileEntries (w : Workspace) (path : Path) : Except LoadError (List (Datum × Datum)) :=
  match w.read path with
  | .error (.invalid f) => .error (.badName f)
  | .error _ => .error (.unreadable path)
  | .ok bytes =>
    match Text.decodeUtf8 bytes with
    | .error e => .error (.notText e)
    | .ok cs =>
      match DocumentReader.read cs with
      | .error .malformed => .error (.unreadable path)
      | .error (.invalid e) => .error (.noValue e)
      | .ok (.scalar .null) => .ok []
      | .ok (.mapping es) => .ok es
      | .ok _ => .error (.notMapping path)

/-- The name that a key is. -/
def keyName : Datum × Datum → Except LoadError (String × Datum)
  | (.scalar (.string s), v) => .ok (s, v)
  | _ => .error .notName

/-- Fields with those of options put over them. -/
def layer (file options : List (String × Datum)) : List (String × Datum) :=
  (options.filter (!·.2.isNull)).foldl (fun fs (k, v) => Value.put fs k v) file

/-- Load settings from a file and options (`load_settings`). -/
def load (w : Workspace) (config : Option Path) (options : List (String × Datum)) :
    Except LoadError Settings := do
  let entries ← match config with
    | some path => fileEntries w path
    | none => .ok []
  let file ← entries.mapM keyName
  match ofFields w.here (layer file options) with
  | .ok s => return s
  | .error faults => throw (.invalid faults)

end RequestAtlas.Settings
