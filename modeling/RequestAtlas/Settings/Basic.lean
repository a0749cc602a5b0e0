import RequestAtlas.Document.Environment
import RequestAtlas.Settings.Field
import RequestAtlas.Text.Identifier
/-!
# Settings

Everything that one run needs to know.  `Settings.ofFields` checks fields against the settings there are:
each has a default, each is checked by itself, and unknown fields are refused.
-/

namespace RequestAtlas

/-- The settings of a run (`GeneratorSettings`). -/
structure Settings where
  rootDir : Path
  outDir : Path
  /-- The directory from which other paths start. -/
  baseDir : Path
  collectionName : String
  environmentName : String
  /-- The name of the client object in scripts. -/
  clientName : String
  /-- Endings of the names of scripts. -/
  extensions : List String
  /-- Names of directories and files that are left out. -/
  skipDirs : List String
deriving DecidableEq, Repr, Inhabited

namespace Settings

def defaultClient : String := "axios"

def defaultExtensions : List String := [".js"]

def defaultSkipDirs : List String := ["node_modules"]

/-- The settings without any input. -/
def default (cwd : Path) : Settings where
  rootDir := Path.ofString "tools"
  outDir := Path.ofString "generate_postman_schema"
  baseDir := cwd
  collectionName := Document.defaultCollectionName
  environmentName := Document.defaultEnvironmentName
  clientName := defaultClient
  extensions := defaultExtensions
  skipDirs := defaultSkipDirs

/-- The fields there are, in the order in which they are checked. -/
def fieldNames : List String :=
  ["root_dir", "out_dir", "base_dir", "collection_name", "environment_name", "client_name", "extensions",
    "skip_dirs"]

variable [Surrogates] [Field.Validator]

/-- The name of a client must be an identifier (`_identifier`). -/
def client (name : String) (d : Datum) : Checked String :=
  match Field.Validator.string name d with
  | .ok s =>
    if Text.isIdentifier s then .ok s
    else Field.fail name (.rule (Text.quoted s ++ " is not a valid identifier"))
  | e => e

/-- An ending with a dot in front. -/
def dotted (ext : String) : String := if Text.startsWith ext "." then ext else "." ++ ext

/-- There must be some ending (`_dotted`). -/
def endings (name : String) (d : Datum) : Checked (List String) :=
  match Field.Validator.strings name d with
  | .ok [] => Field.fail name (.rule "at least one extension is required")
  | .ok es => .ok (es.map dotted)
  | e => e

/-- Check a field if it is given. -/
def field {α : Type} (fields : List (String × Datum)) (name : String) (check : String → Datum → Checked α)
    (fallback : α) : Checked α :=
  match Value.get? fields name with
  | some d => check name d
  | none => .ok fallback

/-- The fields that are no settings. -/
def unknown (fields : List (String × Datum)) : List FieldError :=
  (fields.filter fun f => !fieldNames.contains f.1).map fun f => ⟨[.field f.1], .unknownField⟩

/-- The settings that fields give, as seen from the current directory. -/
def ofFields (cwd : Path) (fields : List (String × Datum)) : Checked Settings :=
  let d := default cwd
  let root := field fields "root_dir" Field.Validator.path d.rootDir
  let out := field fields "out_dir" Field.Validator.path d.outDir
  let base := field fields "base_dir" Field.Validator.path d.baseDir
  let collection := field fields "collection_name" Field.Validator.string d.collectionName
  let environment := field fields "environment_name" Field.Validator.string d.environmentName
  let client := field fields "client_name" client d.clientName
  let extensions := field fields "extensions" endings d.extensions
  let skip := field fields "skip_dirs" Field.Validator.strings d.skipDirs
  match root, out, base, collection, environment, client, extensions, skip, unknown fields with
  | .ok r, .ok o, .ok b, .ok c, .ok e, .ok n, .ok x, .ok s, [] => .ok ⟨r, o, b, c, e, n, x, s⟩
  | _, _, _, _, _, _, _, _, _ =>
    .error (Checked.faults root ++ Checked.faults out ++ Checked.faults base ++
      Checked.faults collection ++ Checked.faults environment ++ Checked.faults client ++
      Checked.faults extensions ++ Checked.faults skip ++ unknown fields)

/-! ## Derived paths -/

def collectionFile : String := "postman_collection.json"

def environmentFile : String := "postman_environment.template.json"

/-- The directory that holds the numbered directories (`root_path`). -/
def rootPath (s : Settings) : Path := s.baseDir.join s.rootDir

/-- The directory that documents are written to (`out_path`). -/
def outPath (s : Settings) : Path := s.baseDir.join s.outDir

def collectionPath (s : Settings) : Path := s.outPath.child collectionFile

def environmentPath (s : Settings) : Path := s.outPath.child environmentFile

end Settings

end RequestAtlas
