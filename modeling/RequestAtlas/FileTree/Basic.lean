import RequestAtlas.Text.Surrogates
import RequestAtlas.Value.Basic
/-!
# File trees

A tree of named entries: files with their bytes, links with the text they lead to, and folders.  A place is
the list of names that leads to an entry from the root.
-/

namespace RequestAtlas

/-- What a name stands for. -/
inductive Entry where
  | file (content : List UInt8)
  | link (target : String)
  | folder (entries : List (String × Entry))
deriving Repr, Inhabited

/-- The entries of a folder. -/
abbrev Folder := List (String × Entry)

namespace Entry

def isFolder : Entry → Bool
  | folder _ => true
  | _ => false

end Entry

namespace Folder

/-- The entry at a place. -/
def get? (es : Folder) : List String → Option Entry
  | [] => some (.folder es)
  | name :: rest =>
    match Value.get? es name, rest with
    | none, _ => none
    | some e, [] => some e
    | some (.folder sub), more => get? sub more
    | some _, _ => none

/-- Put an entry at a place, if the folder around it is there. -/
def set (es : Folder) (place : List String) (e : Entry) : Folder :=
  match place with
  | [] => es
  | name :: rest =>
    if rest.isEmpty then Value.put es name e
    else
      match Value.get? es name with
      | some (.folder sub) => Value.put es name (.folder (set sub rest e))
      | _ => es

/-- Take away the entry at a place. -/
def erase (es : Folder) (place : List String) : Folder :=
  match place with
  | [] => es
  | name :: rest =>
    if rest.isEmpty then es.filter (·.1 != name)
    else
      match Value.get? es name with
      | some (.folder sub) => Value.put es name (.folder (erase sub rest))
      | _ => es

/-- What belongs to names in the order of the names, by code points. -/
def byName [Surrogates] {α : Type} (es : List (String × α)) : List (String × α) :=
  es.mergeSort fun a b => Text.nameLe a.1 b.1

/-- The entries in the order of their names (`_list_dir`). -/
def listing [Surrogates] (es : Folder) : Folder := byName es

end Folder

end RequestAtlas
