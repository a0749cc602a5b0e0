import RequestAtlas.CommandLine.Run
import RequestAtlas.FileTree.Changes
import Std.Time.DateTime.Timestamp
/-!
# The program

The part that touches the disk.  It reads into a file tree what a run will look at, runs on that tree, and
carries the changes of the tree over to the disk.  Every decision is made by `CommandLine.plan` and
`CommandLine.run`.  Names on the disk are taken to be texts.
-/

namespace RequestAtlas.Disk

/-- The text of a place. -/
def placeText (place : List String) : String := Path.text ⟨.root, place⟩

/-- The place that a text of an absolute path stands for. -/
def placeOf (text : String) : List String := (Path.ofString text).parts

/-- The bytes at a place; none if they cannot be read. -/
def bytesAt (place : List String) : IO (List UInt8) := do
  match ← (IO.FS.readBinFile (placeText place)).toBaseIO with
  | .ok bytes => return bytes.toList
  | .error _ => return []

/-- What kind of entry stands at a place, a link not being followed. -/
def kindAt? (place : List String) : IO (Option IO.FS.FileType) := do
  let file := (← IO.currentDir) / placeText place
  match ← file.symlinkMetadata.toBaseIO with
  | .ok m => return some m.type
  | .error _ => return none

/-- The place that a link at a place leads to in the end. -/
def linkedPlace (place : List String) : IO (List String) := do
  return placeOf (← IO.FS.realPath (placeText place)).toString

/-- Put a folder into a tree, unless it is there. -/
def addFolder (tree : Folder) (place : List String) : Folder :=
  if (tree.get? place).isSome then tree else tree.set place (.folder [])

/-- Read the entries on the way from a place along further names. -/
partial def readWay (tree : Folder) (place : List String) : List String → IO Folder
  | [] => return tree
  | name :: rest => do
    if name = ".." then return ← readWay tree place.dropLast rest
    let place := place ++ [name]
    match ← kindAt? place with
    | none => return tree
    | some .dir => readWay (addFolder tree place) place rest
    | some .symlink =>
      let target ← linkedPlace place
      if target = place then return tree.set place (.link (placeText place))
      let tree ← readWay (tree.set place (.link (placeText target))) [] target
      readWay tree target rest
    | some _ => return tree.set place (.file (← bytesAt place))

/-- Read the entries below a folder, but not what is below the names left out.  Only the bytes of scripts are
read. -/
partial def readBelow (f : Selection.Filter) (tree : Folder) (place : List String) : IO Folder := do
  let mut tree := tree
  let folder := (← IO.currentDir) / placeText place
  match ← folder.readDir.toBaseIO with
  | .error _ => return tree
  | .ok entries =>
    for e in entries do
      let inner := place ++ [e.fileName]
      match ← kindAt? inner with
      | some .dir =>
        tree := addFolder tree inner
        unless f.skip.contains e.fileName && (Selection.number? e.fileName).isNone do
          tree ← readBelow f tree inner
      | some .symlink => tree := tree.set inner (.link (placeText (← linkedPlace inner)))
      | some _ => tree := tree.set inner (.file (← if f.accepts e.fileName then bytesAt inner else pure []))
      | none => pure ()
    return tree

/-- Read the way that a path leads, as seen from a directory. -/
def readPath (cwd : List String) (tree : Folder) (p : Path) : IO Folder :=
  readWay tree (if p.isAbsolute then [] else cwd) p.parts

/-- Read what a job looks at. -/
def readJob [Surrogates] (w : Workspace) (j : CommandLine.Job) : IO Workspace := do
  let s := j.settings
  let mut tree := w.tree
  for p in s.rootPath :: j.outputs do
    tree ← readPath w.cwd tree p
  let f : Selection.Filter := ⟨s.extensions, s.skipDirs⟩
  match tree.locate w.cwd true s.rootPath with
  | .ok (.found place (.folder _)) => return { w with tree := ← readBelow f tree place }
  | _ => return { w with tree }

/-- Carry out a step on the disk. -/
def apply : Change → IO Unit
  | .makeFolder place => IO.FS.createDir (placeText place)
  | .writeFile place content => IO.FS.writeBinFile (placeText place) ⟨content.toArray⟩

/-- The time of the clock. -/
def now : IO Moment := do
  let t ← Std.Time.Timestamp.now
  return .ofMicroseconds (t.toNanosecondsSinceUnixEpoch.val / 1000).toNat

/-- The settings from outside the arguments. -/
def environment : IO CommandLine.Environment := do
  let root ← IO.getEnv "POSTMAN_GEN_ROOT"
  let name ← IO.getEnv "POSTMAN_GEN_NAME"
  return { root := root.getD "", name := name.getD "" }

/-- The workspace around a run, as far as its arguments show it. -/
def workspace (env : CommandLine.Environment) (args : List String) : IO Workspace := do
  let cwd := placeOf (← IO.currentDir).toString
  let mut tree ← readWay [] [] cwd
  for p in CommandLine.namedPaths env args do
    tree ← readPath cwd tree p
  return { cwd, tree, level := Log.ofSetting (← IO.getEnv "POSTMAN_GEN_LOG_LEVEL") }

end RequestAtlas.Disk

open RequestAtlas in
/-- Run the program on the disk. -/
def main (args : List String) : IO UInt32 := do
  let _ : Surrogates := .unassigned
  let _ : Syntax.Parser := .javascript
  let _ : Settings.DocumentReader := .yaml
  let _ : Field.Validator := .lax
  let _ : CommandLine.OptionParser := .posix
  let _ : CommandLine.Console := if ← (← IO.getStdout).isTty then .terminal else .piped
  let env ← Disk.environment
  let mut before ← Disk.workspace env args
  match (CommandLine.plan before env args).job with
  | .ok j => before ← Disk.readJob before j
  | .error _ => pure ()
  let time ← Disk.now
  let (outcome, after) := (CommandLine.run args env time).run before
  for e in after.log do
    IO.eprintln (e.line time.logText)
  match ← (Folder.changes before.tree after.tree |>.forM Disk.apply).toBaseIO with
  | .error e =>
    IO.eprintln ("Error: Failed to write output: " ++ toString e)
    return 1
  | .ok () =>
    IO.print outcome.stdout
    for m in outcome.error.toList ++ (outcome.crash.map (·.message)).toList do
      IO.eprintln ("Error: " ++ m)
    return outcome.exitCode.toUInt32
