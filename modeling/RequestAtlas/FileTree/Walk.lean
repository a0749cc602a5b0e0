import RequestAtlas.FileTree.Basic
import RequestAtlas.Path
import RequestAtlas.Text.Quoted
/-!
# Following paths

Where a path leads in a file tree.  Links are followed on the way, at most forty of them; whether a link at
the very end is followed is up to the caller.
-/

namespace RequestAtlas

/-- Why a path cannot be used. -/
inductive FileFault where
  | missing
  | occupied
  | notFolder
  | isFolder
  | nameTooLong
  | tooManyLinks
deriving DecidableEq, Repr, Inhabited

namespace FileFault

def number : FileFault → Nat
  | missing => 2
  | occupied => 17
  | notFolder => 20
  | isFolder => 21
  | nameTooLong => 36
  | tooManyLinks => 40

def text : FileFault → String
  | missing => "No such file or directory"
  | occupied => "File exists"
  | notFolder => "Not a directory"
  | isFolder => "Is a directory"
  | nameTooLong => "File name too long"
  | tooManyLinks => "Too many levels of symbolic links"

end FileFault

/-- Why a text is no path. -/
inductive PathFault where
  /-- It contains the character of code zero. -/
  | zeroCharacter
  /-- It contains a surrogate that stands for no byte. -/
  | encoding (error : Text.EncodingError)
deriving DecidableEq, Repr, Inhabited

def PathFault.message : PathFault → String
  | .zeroCharacter => "embedded null byte"
  | .encoding e => e.message

/-- Why a file cannot be used. -/
inductive FileError where
  | fault (fault : FileFault) (path : Path)
  | invalid (fault : PathFault)
deriving DecidableEq, Repr, Inhabited

variable [Surrogates]

def FileError.message : FileError → String
  | .fault f p => "[Errno " ++ toString f.number ++ "] " ++ f.text ++ ": " ++ Text.quoted p.text
  | .invalid f => f.message

/-- What is wrong with the text of a path. -/
def Path.fault? (p : Path) : Option PathFault :=
  match Text.encodingError? Text.isEscapedByte 0 p.text.toList with
  | some e => some (.encoding e)
  | none => if p.text.toList.contains '\x00' then some .zeroCharacter else none

/-- Where a path leads: to an entry, or to a free place in a folder. -/
inductive Target where
  | found (place : List String) (entry : Entry)
  | free (place : List String)
deriving Repr, Inhabited

namespace Folder

/-- The most bytes a name may have. -/
def nameLimit : Nat := 255

/-- The most bytes a path may have. -/
def pathLimit : Nat := 4095

/-- The most links that are followed on one way. -/
def linkLimit : Nat := 40

/-- Follow names from a place. -/
def walk (tree : Folder) (follow : Bool) (links : Nat) (place : List String) (names : List String) :
    Except FileFault Target :=
  match names with
  | [] =>
    match tree.get? place with
    | some e => .ok (.found place e)
    | none => .error .missing
  | name :: rest =>
    if name = ".." then walk tree follow links place.dropLast rest
    else if nameLimit < Text.nameSize name then .error .nameTooLong
    else
      match tree.get? (place ++ [name]) with
      | none => if rest.isEmpty then .ok (.free (place ++ [name])) else .error .missing
      | some (.folder _) => walk tree follow links (place ++ [name]) rest
      | some (.file content) =>
        if rest.isEmpty then .ok (.found (place ++ [name]) (.file content)) else .error .notFolder
      | some (.link target) =>
        if rest.isEmpty && !follow then .ok (.found (place ++ [name]) (.link target))
        else
          match links with
          | 0 => .error .tooManyLinks
          | links + 1 =>
            let p := Path.ofString target
            walk tree follow links (if p.isAbsolute then [] else place) (p.parts ++ rest)
termination_by (links, names.length)

/-- Where a path leads, as seen from the directory `cwd`. -/
def locate (tree : Folder) (cwd : List String) (follow : Bool) (p : Path) : Except FileError Target :=
  match p.fault? with
  | some f => .error (.invalid f)
  | none =>
    if pathLimit < Text.nameSize p.text then .error (.fault .nameTooLong p)
    else
      match walk tree follow linkLimit (if p.isAbsolute then [] else cwd) p.parts with
      | .ok t => .ok t
      | .error f => .error (.fault f p)

end Folder

end RequestAtlas
