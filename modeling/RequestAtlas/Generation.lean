import RequestAtlas.Document.Environment
import RequestAtlas.Request.Extraction
import RequestAtlas.Selection
import RequestAtlas.Settings.Basic
import RequestAtlas.Syntax.Source
/-!
# Generating documents

From settings to documents: select the scripts, extract their requests, and write the collection and its
environment.  A script that cannot be read is skipped with a warning.
-/

namespace RequestAtlas.Generation

def extractionLogger : String := "postman_collection_gen.scanner.extract"

def runLogger : String := "postman_collection_gen.pipeline"

variable [Surrogates] [Syntax.Parser]

/-- The requests of one script (`extract_requests_from_file`). -/
def extractFile (client : String) (path : Path) : Work (List Request) := do
  match (← get).read path with
  | .error (.invalid f) => Work.refuse (.invalid f)
  | .error e =>
    Work.note Log.warning extractionLogger
      ("Skipping " ++ path.text ++ ": cannot read file (" ++ e.message ++ ")")
    return []
  | .ok bytes =>
    match Syntax.readBytes bytes with
    | .error e =>
      Work.note Log.warning extractionLogger ("Skipping " ++ path.text ++ ": " ++ e.message)
      return []
    | .ok program =>
      let rs := Request.extract client path program
      Work.note Log.debug extractionLogger
        (path.text ++ ": " ++ toString rs.length ++ " requests")
      return rs

/-- The scripts that settings select, and their requests (`collect_requests`). -/
def collect (s : Settings) : Work (List Path × List Request) := do
  let files ← Selection.select s.rootPath ⟨s.extensions, s.skipDirs⟩
  Work.note Log.info runLogger
    ("Selected " ++ toString files.length ++ " source files under " ++ s.rootPath.text)
  let requests ← files.mapM (extractFile s.clientName)
  return (files, requests.flatten)

/-- What a run did (`GenerationReport`). -/
structure Report where
  rootDir : Path
  fileCount : Nat
  requestCount : Nat
  collectionPath : Path
  environmentPath : Path
deriving DecidableEq, Repr, Inhabited

/-- Run: make the output folder, collect, build both documents, and only then write them (`run_generator`). -/
def run (s : Settings) (exportedAt : Moment) : Work Report := do
  Work.ensureFolders s.outPath
  let (files, requests) ← collect s
  let cwd := (← get).cwd
  let collection ← Work.ofRender (Document.collection cwd s.baseDir s.collectionName requests)
  let environment ← Work.ofMoment (Document.environment s.environmentName exportedAt)
  Work.writeText s.collectionPath (← Work.ofRender collection.render)
  Work.writeText s.environmentPath (← Work.ofRender environment.render)
  Work.note Log.info runLogger
    ("Wrote " ++ toString requests.length ++ " requests to " ++ s.collectionPath.text)
  return {
    rootDir := s.rootPath
    fileCount := files.length
    requestCount := requests.length
    collectionPath := s.collectionPath
    environmentPath := s.environmentPath }

end RequestAtlas.Generation
