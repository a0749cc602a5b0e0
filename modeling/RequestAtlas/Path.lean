/-!
# Paths

A path is an anchor and a list of components.  Empty components and single dots vanish when a path is
read; double dots stay, because what they mean depends on links.  Two leading slashes are kept apart from
one; more than two count as one.

`relative` gives the way from one directory to a path: it resolves both against the current directory,
lets double dots cancel the component before them, and drops the common beginning.
-/

namespace RequestAtlas

/-- Where a path starts. -/
inductive Anchor where
  | relative
  | root
  | doubleRoot
deriving DecidableEq, Repr, Inhabited

def Anchor.text : Anchor → String
  | .relative => ""
  | .root => "/"
  | .doubleRoot => "//"

/-- A path: where it starts and the components from there. -/
structure Path where
  anchor : Anchor
  parts : List String
deriving DecidableEq, Repr, Inhabited

namespace Path

/-- Split at slashes; there is one piece more than there are slashes. -/
def pieces : List Char → List (List Char)
  | [] => [[]]
  | c :: cs =>
    if c = '/' then [] :: pieces cs
    else
      match pieces cs with
      | [] => [[c]]
      | p :: ps => (c :: p) :: ps

/-- The anchor that a text begins with. -/
def anchorOf : List Char → Anchor
  | '/' :: '/' :: '/' :: _ => .root
  | '/' :: '/' :: _ => .doubleRoot
  | '/' :: _ => .root
  | _ => .relative

/-- Whether a piece between slashes names something. -/
def isComponent (p : List Char) : Bool := p != [] && p != ['.']

/-- Read a path. -/
def ofString (s : String) : Path :=
  { anchor := anchorOf s.toList
    parts := ((pieces s.toList).filter isComponent).map String.ofList }

/-- The path that leads nowhere. -/
def here : Path := ⟨.relative, []⟩

/-- The text of a path; the empty relative path is a dot. -/
def text (p : Path) : String :=
  if p = here then "." else p.anchor.text ++ "/".intercalate p.parts

def isAbsolute (p : Path) : Bool := p.anchor != .relative

/-- Follow `q` from `p`; an absolute `q` stands for itself. -/
def join (p q : Path) : Path := if q.isAbsolute then q else { p with parts := p.parts ++ q.parts }

/-- One component further. -/
def child (p : Path) (name : String) : Path := { p with parts := p.parts ++ [name] }

/-- The last component, or the empty text. -/
def name (p : Path) : String := p.parts.getLast?.getD ""

/-- The path without its last component. -/
def parent (p : Path) : Path := { p with parts := p.parts.dropLast }

/-! ## The way from one path to another -/

/-- Go one component down from a place, or up. -/
def step (place : List String) (part : String) : List String :=
  if part = ".." then place.dropLast else place ++ [part]

/-- The components from the root, as seen from the directory `cwd`, with every double dot resolved. -/
def resolve (cwd : List String) (p : Path) : List String :=
  p.parts.foldl step (if p.isAbsolute then [] else cwd)

/-- The length of the longest common beginning. -/
def commonLength : List String → List String → Nat
  | a :: as, b :: bs => if a = b then commonLength as bs + 1 else 0
  | _, _ => 0

/-- The components that lead from the directory `source` to `target`. -/
def way (source target : List String) : List String :=
  let n := commonLength source target
  List.replicate (source.length - n) ".." ++ target.drop n

/-- The text of the way from `base` to `p` (`relative_path`), with forward slashes only. -/
def relative (cwd : List String) (base p : Path) : String :=
  let r := Path.text ⟨.relative, way (base.resolve cwd) (p.resolve cwd)⟩
  String.ofList (r.toList.map fun c => if c = '\\' then '/' else c)

end Path

end RequestAtlas
