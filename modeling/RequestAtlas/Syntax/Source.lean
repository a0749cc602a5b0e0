import RequestAtlas.Syntax.Program
import RequestAtlas.Text.Utf8
/-!
# Reading scripts

A script comes as bytes or as text.  Bytes must be UTF-8.  One byte order mark at the start is no part of
the script.
-/

namespace RequestAtlas.Syntax

/-- Why a script cannot be read. -/
inductive SourceError where
  /-- It is no text. -/
  | notText (cause : Text.Utf8Error)
  /-- It is no script. -/
  | malformed
deriving DecidableEq, Repr

def SourceError.message : SourceError → String
  | .notText cause => "not valid UTF-8: " ++ cause.message
  | .malformed => "syntax error"

/-- Drop a byte order mark at the start. -/
def dropMark : List Char → List Char
  | '\ufeff' :: cs => cs
  | cs => cs

/-- What parses scripts (`tree_sitter.Parser`), a library of its own: the tree of a text, none if its syntax is
broken. -/
class Parser where
  parse? : String → Option Node

/-- The parser that is described here. -/
@[reducible]
def Parser.javascript : Parser := ⟨Syntax.parse?⟩

variable [Parser]

/-- Read a script given as text. -/
def readText (source : List Char) : Except SourceError Node :=
  match Parser.parse? (String.ofList (dropMark source)) with
  | some n => .ok n
  | none => .error .malformed

/-- Read a script given as bytes (`parse_source`). -/
def readBytes (source : List UInt8) : Except SourceError Node :=
  match Text.decodeUtf8 source with
  | .ok cs => readText cs
  | .error cause => .error (.notText cause)

/-- The value of the first variable that a script declares. -/
def firstDeclared? (program : Node) : Option Node := do
  let statement ← program.contents.head?
  let declarator ← statement.contents.head?
  declarator.child? .value

end RequestAtlas.Syntax
