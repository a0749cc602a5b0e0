import RequestAtlas.Syntax.Node
import RequestAtlas.Literal.Escape
import RequestAtlas.Literal.Numeral
import RequestAtlas.Value.Basic
/-!
# Values of literal expressions

An expression is read as data without being evaluated.  `url?` reads string and template literals as a
URL template; `value` reads any expression as a data value.  What is known only at run time becomes a
placeholder in double braces: a variable its name, anything else a fixed word.  Parentheses and ordinary
comments never matter.
-/

namespace RequestAtlas.Literal

open RequestAtlas.Syntax

/-- A placeholder for what only running the script would tell (`placeholder`). -/
def placeholder (name : String) : String := "\x7b\x7b" ++ name ++ "\x7d\x7d"

/-- The placeholder of an expression that is no literal (`_unsupported`). -/
def unknownValue : Value := .string (placeholder "VALUE")

/-- The key of a property whose name is not written as a word or a string. -/
def unnamedKey : String := "key"

/-- The value of a string literal (`_string_value`), whose characters include the quotes. -/
def stringValue (chars : List Char) : String := String.ofList (cook (chars.drop 1).dropLast)

/-- The value of a number literal (`_number_value`), unless it is refused; one too large for a double is nothing. -/
def tryNumber (chars : List Char) : Except NumeralError Value := do
  match ← parseNumber (String.ofList chars) with
  | some (.int n) => return .int n
  | some (.float x) => return if x.isFinite then .float x else .null
  | none => return unknownValue

/-- The value of a number literal.  Those that a script can hold are never refused, so nothing is lost in a value that
is not known. -/
def numberValue (chars : List Char) : Value :=
  match tryNumber chars with
  | .ok v => v
  | .error _ => unknownValue

/-! ## Parentheses -/

mutual

/-- The expression inside any number of parentheses (`_unwrap`). -/
def unwrap? : Node → Option Node
  | .mk kind role start chars children =>
    if kind = .parenthesized then firstExpression? children
    else some (.mk kind role start chars children)

/-- The first expression of a list of nodes (`_first_expression`), without parentheses. -/
def firstExpression? : List Node → Option Node
  | [] => none
  | c :: cs => if c.isContent then unwrap? c else firstExpression? cs

end

/-! ## URL templates -/

/-- Cut a text after the given number of bytes. -/
def splitAtByte : Nat → List Char → List Char × List Char
  | 0, cs => ([], cs)
  | _ + 1, [] => ([], [])
  | n + 1, c :: cs =>
    let (front, back) := splitAtByte (n + 1 - c.utf8Size) cs
    (c :: front, back)

/-- What stands for a substitution (`_substitution_placeholder`): its name if it is a plain variable. -/
def substitutionText (children : List Node) : String :=
  match firstExpression? children with
  | some e =>
    if e.kind = .identifier ∨ e.kind = .undefined then placeholder e.text else placeholder "VAR"
  | none => placeholder "VAR"

/-- The parts of a template (`_template_value`) from byte `pos` on, where `rest` is the text from there to the
closing quote: each stretch between substitutions is cooked by itself. -/
def templateParts (pos : Nat) (rest : List Char) : List Node → List Char
  | [] => cook rest.dropLast
  | c :: cs =>
    if c.kind = .substitution then
      let (segment, tail) := splitAtByte (c.start - pos) rest
      let behind := (splitAtByte c.text.utf8ByteSize tail).2
      cook segment ++ (substitutionText c.children).toList ++ templateParts c.stop behind cs
    else templateParts pos rest cs

/-- The URL that an expression spells (`to_url_template`), if it is a string or template literal. -/
def url? (n : Node) : Option String :=
  match unwrap? n with
  | some e =>
    if e.kind = .string then some (stringValue e.chars)
    else if e.kind = .template then
      some (String.ofList (templateParts (e.start + 1) (e.chars.drop 1) e.children))
    else none
  | none => none

/-! ## Data values -/

/-- The static name of a property (`_property_key`), or the key shared by all others. -/
def propertyName (parts : List Node) : String :=
  match parts.find? (·.role == some .key) with
  | some k =>
    if k.kind = .propertyIdentifier then k.text
    else if k.kind = .string then stringValue k.chars
    else unnamedKey
  | none => unnamedKey

mutual

/-- The data value of an expression (`to_json_value`). -/
def value : Node → Value
  | .mk kind _ _ chars children =>
    match kind with
    | .parenthesized => firstValue children
    | .string => .string (stringValue chars)
    | .number => numberValue chars
    | .trueLiteral => .bool true
    | .falseLiteral => .bool false
    | .nullLiteral => .null
    | .identifier => .string (placeholder (String.ofList chars))
    | .undefined => .string (placeholder (String.ofList chars))
    | .object => .dict (properties [] children)
    | .array => .list (elements false children)
    | _ => unknownValue

/-- The value of the first expression of a list of nodes; nothing if there is none. -/
def firstValue : List Node → Value
  | [] => .null
  | c :: cs => if c.isContent then value c else firstValue cs

/-- The value of the part of a property that plays the value. -/
def propertyValue : List Node → Value
  | [] => .null
  | c :: cs => if c.role == some .value then value c else propertyValue cs

/-- The entries of an object literal (`_object_value`) behind those read so far: the last property of a name
wins, at the place of the first.  Spreads, methods and comments have no static name and are left out. -/
def properties (entries : List (String × Value)) : List Node → List (String × Value)
  | [] => entries
  | .mk kind _ _ chars parts :: rest =>
    match kind with
    | .pair => properties (Value.put entries (propertyName parts) (propertyValue parts)) rest
    | .shorthand =>
      let name := String.ofList chars
      properties (Value.put entries name (.string (placeholder name))) rest
    | _ => properties entries rest

/-- The elements of an array literal (`_array_value`).  `filled` tells whether an element stands since the last comma; a
comma with none before it closes a hole, which is nothing. -/
def elements (filled : Bool) : List Node → List Value
  | [] => []
  | c :: cs =>
    if c.kind = .token "," then
      if filled then elements false cs else .null :: elements false cs
    else if c.isContent then value c :: elements true cs
    else elements filled cs

end

end RequestAtlas.Literal
