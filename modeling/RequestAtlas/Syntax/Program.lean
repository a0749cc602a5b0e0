import RequestAtlas.Syntax.Statements
/-!
# Programs

The whole source as one tree.  `Grammar.ofDepth n` is the grammar whose constructs may be nested `n`
deep; no construct is entered without reading something, so a depth proportional to the length of the
source loses nothing.
-/

namespace RequestAtlas.Syntax

open Parse

/-- The grammar in which constructs may be nested up to the given depth. -/
def Grammar.ofDepth : Nat → Grammar
  | 0 => .empty
  | n + 1 =>
    { expression := fun sc c => Parse.expression (ofDepth n) sc c
      operand := fun sc c => Parse.operand (ofDepth n) sc c
      type := fun line c => Parse.type (ofDepth n) line c
      primaryType := fun line c => Parse.primaryType (ofDepth n) line c
      pattern := fun c => Parse.pattern (ofDepth n) c
      element := fun c => Parse.element (ofDepth n) c
      statement := fun c => Parse.statement (ofDepth n) c }

/-- A depth that no construct of a source of the given length exceeds. -/
def Grammar.depthFor (length : Nat) : Nat := 4 * length + 16

/-- All statements of the source, behind a first line for the system where there is one. -/
def Parse.program (g : Grammar) : Parse Node := do
  let start ← get
  trivia
  if ← peeks (exactly "#!") then modify (·.skipWhile (· != '\n'))
  let body ← many g.statement
  leading
  ensure (← ahead).isEmpty
  node .program start body

/-- Read a script.  `none` means that it has a syntax error. -/
def parse? (source : String) : Option Node :=
  let c := Cursor.ofString source
  (Parse.program (Grammar.ofDepth (Grammar.depthFor c.left)) c).map (·.1)

end RequestAtlas.Syntax
