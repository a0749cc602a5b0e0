import RequestAtlas.Calendar.Moment
import RequestAtlas.FileTree.Walk
import RequestAtlas.Logging
import RequestAtlas.Value.Printer
/-!
# The workspace

What work acts on: the file tree, the current directory, and the log with its level.  `Work` is a step that
may change the workspace and may fail; what it changed before it failed stays changed.
-/

namespace RequestAtlas

/-- The surroundings of all work. -/
structure Workspace where
  /-- The place of the current directory. -/
  cwd : List String
  tree : Folder
  level : Int := Log.warning
  /-- The entries shown so far. -/
  log : List LogEntry := []
deriving Repr, Inhabited

/-- The current directory as a path. -/
def Workspace.here (w : Workspace) : Path := ⟨.root, w.cwd⟩

/-- Why work fails. -/
inductive Failure where
  | file (error : FileError)
  | render (error : RenderError)
  | moment (error : Moment.Error)
  /-- A text cannot be written to a file. -/
  | encoding (error : Text.EncodingError)
deriving DecidableEq, Repr

def Failure.message [Surrogates] : Failure → String
  | .file e => e.message
  | .render e => e.message
  | .moment e => e.message
  | .encoding e => e.message

/-- A step that acts on the workspace and may fail. -/
abbrev Work (α : Type) := ExceptT Failure (StateM Workspace) α

namespace Work

/-- Add an entry to the log, if the level shows it. -/
def note (level : Int) (logger message : String) : Work Unit :=
  modify fun w =>
    let e : LogEntry := ⟨level, logger, message⟩
    if Log.shows w.level e then { w with log := w.log ++ [e] } else w

/-- Fail with a file error. -/
def refuse {α : Type} (e : FileError) : Work α := throw (.file e)

/-- Take over a result about files. -/
def ofFile {α : Type} : Except FileError α → Work α
  | .ok a => pure a
  | .error e => refuse e

/-- Take over a result about writing values. -/
def ofRender {α : Type} : Except RenderError α → Work α
  | .ok a => pure a
  | .error e => throw (.render e)

/-- Take over a result about moments. -/
def ofMoment {α : Type} : Except Moment.Error α → Work α
  | .ok a => pure a
  | .error e => throw (.moment e)

end Work

end RequestAtlas
