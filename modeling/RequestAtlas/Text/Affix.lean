/-!
# Beginnings and endings of texts
-/

namespace RequestAtlas.Text

/-- The rest of a text behind a beginning. -/
def dropStart? : List Char → List Char → Option (List Char)
  | [], cs => some cs
  | _ :: _, [] => none
  | p :: ps, c :: cs => if p = c then dropStart? ps cs else none

/-- Whether a text begins with another. -/
def startsWith (s start : String) : Bool := (dropStart? start.toList s.toList).isSome

/-- Whether a text ends with another. -/
def endsWith (s ending : String) : Bool :=
  (dropStart? ending.toList.reverse s.toList.reverse).isSome

end RequestAtlas.Text
