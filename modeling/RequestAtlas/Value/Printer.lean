import RequestAtlas.Value.Basic
import RequestAtlas.Text.Quoted
/-!
# Writing values

The text of a value: one item or entry a line, two blanks of indentation a level, keys in order, and a
line feed at the end.  Only quotes, backslashes and control characters are escaped.  Equal values have
equal texts whatever the order in which their entries came.
-/

namespace RequestAtlas

/-- Why a value cannot be written. -/
inductive RenderError where
  /-- An integer has more digits than may be written. -/
  | longInteger
  /-- A container contains itself. -/
  | circular
  /-- The keys of a dictionary cannot be ordered. -/
  | mixedKeys
deriving DecidableEq, Repr

def RenderError.message : RenderError → String
  | .longInteger =>
    "Exceeds the limit (4300 digits) for integer string conversion; " ++
      "use sys.set_int_max_str_digits() to increase the limit"
  | .circular => "Circular reference detected"
  | .mixedKeys => "keys of different kinds cannot be ordered"

namespace Value

/-- One character inside a written text. -/
def escapeChar (c : Char) : List Char :=
  match c with
  | '"' => ['\\', '"']
  | '\\' => ['\\', '\\']
  | '\n' => ['\\', 'n']
  | '\r' => ['\\', 'r']
  | '\t' => ['\\', 't']
  | '\x08' => ['\\', 'b']
  | '\x0c' => ['\\', 'f']
  | c => if c.toNat < 32 then ['\\', 'u'] ++ Text.hexPadded 4 c.toNat else [c]

/-- A text in quotes. -/
def writeString (s : String) : List Char := '"' :: s.toList.flatMap escapeChar ++ ['"']

/-- A line feed and the indentation of a level. -/
def newline (level : Nat) : List Char := '\n' :: List.replicate (2 * level) ' '

mutual

/-- The text of a value whose inside stands at the given level plus one. -/
def write (level : Nat) : Value → List Char
  | null => "null".toList
  | bool true => "true".toList
  | bool false => "false".toList
  | int n => (toString n).toList
  | float x => (NumberLayout.document.render x).toList
  | string s => writeString s
  | list [] => ['[', ']']
  | list (v :: vs) =>
    '[' :: newline (level + 1) ++ write (level + 1) v ++ writeItems (level + 1) vs ++
      newline level ++ [']']
  | dict [] => ['{', '}']
  | dict ((k, v) :: es) =>
    '{' :: newline (level + 1) ++ writeString k ++ [':', ' '] ++ write (level + 1) v ++
      writeEntries (level + 1) es ++ newline level ++ ['}']

/-- Further items of a list. -/
def writeItems (level : Nat) : List Value → List Char
  | [] => []
  | v :: vs => ',' :: newline level ++ write level v ++ writeItems level vs

/-- Further entries of a dictionary. -/
def writeEntries (level : Nat) : List (String × Value) → List Char
  | [] => []
  | (k, v) :: es =>
    ',' :: newline level ++ writeString k ++ [':', ' '] ++ write level v ++ writeEntries level es

end

/-- The canonical text of a value, without the line feed at the end. -/
def text (v : Value) : String := String.ofList (write 0 v.canonical)

/-- The canonical text of a value with the line feed at the end (`stable_dumps`), if it can be written. -/
def render (v : Value) : Except RenderError String :=
  if v.hasLong then .error .longInteger else .ok (v.text ++ "\n")

end Value

end RequestAtlas
