import RequestAtlas.FileTree.Basic
/-!
# Changes of a file tree

The steps that turn one file tree into a later one.  Work only adds folders and writes files, so there is no
step that takes an entry away.
-/

namespace RequestAtlas

/-- A step that changes a tree. -/
inductive Change where
  | makeFolder (place : List String)
  | writeFile (place : List String) (content : List UInt8)
deriving DecidableEq, Repr

namespace Entry

/-- Whether an earlier entry is a file with the same bytes. -/
def holds (content : List UInt8) : Option Entry → Bool
  | some (.file c) => c == content
  | _ => false

/-- The entries of an earlier folder; none if there was no folder. -/
def entriesOf : Option Entry → Folder
  | some (.folder es) => es
  | _ => []

mutual

/-- The steps from what was at a place to an entry. -/
def changes (old : Option Entry) (place : List String) : Entry → List Change
  | .file content => if holds content old then [] else [.writeFile place content]
  | .link _ => []
  | .folder es =>
    (if (old.map isFolder).getD false then [] else [.makeFolder place]) ++
      changesIn (entriesOf old) place es

/-- The steps from the entries that were in a folder to those that are. -/
def changesIn (old : Folder) (place : List String) : List (String × Entry) → List Change
  | [] => []
  | (name, e) :: es => changes (Value.get? old name) (place ++ [name]) e ++ changesIn old place es

end

end Entry

/-- The steps from one tree to another. -/
def Folder.changes (old new : Folder) : List Change := Entry.changesIn old [] new

end RequestAtlas
