import RequestAtlas.Workspace.Basic
/-!
# Files of a workspace

Questions about paths, and the few ways to change the tree: making folders and writing files.
-/

namespace RequestAtlas

variable [Surrogates]

namespace Workspace

/-- Where a path leads. -/
def locate (w : Workspace) (follow : Bool) (p : Path) : Except FileError Target :=
  w.tree.locate w.cwd follow p

/-- Faults that only mean that nothing is there. -/
def meansAbsent : FileError → Bool
  | .fault .missing _ => true
  | .fault .notFolder _ => true
  | .fault .tooManyLinks _ => true
  | .invalid _ => true
  | _ => false

/-- The folder that a path leads to, if it leads to one. -/
def folder? (w : Workspace) (p : Path) : Except FileError (Option Folder) :=
  match w.locate true p with
  | .ok (.found _ (.folder es)) => .ok (some es)
  | .ok _ => .ok none
  | .error e => if meansAbsent e then .ok none else .error e

/-- The bytes of a file. -/
def read (w : Workspace) (p : Path) : Except FileError (List UInt8) :=
  match w.locate true p with
  | .ok (.found _ (.file content)) => .ok content
  | .ok (.found _ _) => .error (.fault .isFolder p)
  | .ok (.free _) => .error (.fault .missing p)
  | .error e => .error e

/-- Make a folder at a free place. -/
def makeFolder (w : Workspace) (p : Path) : Except FileError Workspace :=
  match w.locate false p with
  | .ok (.found _ _) => .error (.fault .occupied p)
  | .ok (.free place) => .ok { w with tree := w.tree.set place (.folder []) }
  | .error e => .error e

/-- Write a file, over what it held. -/
def write (w : Workspace) (p : Path) (content : List UInt8) : Except FileError Workspace :=
  match w.locate true p with
  | .ok (.found place (.file _)) => .ok { w with tree := w.tree.set place (.file content) }
  | .ok (.found _ _) => .error (.fault .isFolder p)
  | .ok (.free place) => .ok { w with tree := w.tree.set place (.file content) }
  | .error e => .error e

end Workspace

namespace Work

/-- Make a folder; it is fine if there is one already. -/
def ensureFolder (p : Path) : Work Unit := do
  let w ← get
  match w.makeFolder p with
  | .ok w => set w
  | .error (.invalid f) => refuse (.invalid f)
  | .error (.fault .missing q) => refuse (.fault .missing q)
  | .error e =>
    match ← ofFile (w.folder? p) with
    | some _ => pure ()
    | none => refuse e

/-- Make the folders of `names` in turn, the shortest beginning first, as far as they are missing.  Only where
a folder is missing are those above it made. -/
def ensureFoldersIn (anchor : Anchor) : List String → Work Unit
  | [] => ensureFolder ⟨anchor, []⟩
  | name :: above => do
    let p : Path := ⟨anchor, (name :: above).reverse⟩
    match (← get).makeFolder p with
    | .error (.fault .missing _) =>
      ensureFoldersIn anchor above
      ensureFolder p
    | _ => ensureFolder p

/-- Make a folder and all that are missing above it (`Path.mkdir`). -/
def ensureFolders (p : Path) : Work Unit := ensureFoldersIn p.anchor p.parts.reverse

/-- Write a file, over what it held. -/
def writeBytes (p : Path) (content : List UInt8) : Work Unit := do
  set (← ofFile ((← get).write p content))

/-- Write a text to a file (`Path.write_text`).  The file is opened before the text is encoded, so one that cannot
be encoded leaves it empty. -/
def writeText (p : Path) (text : String) : Work Unit :=
  match Text.encode text with
  | .ok bytes => writeBytes p bytes
  | .error e => do
    writeBytes p []
    throw (.encoding e)

end Work

end RequestAtlas
