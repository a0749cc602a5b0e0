import RequestAtlas.Syntax.Lexeme
/-!
# The recursive grammar

The constructs of a script contain one another without limit: a statement holds expressions, an
expression holds functions, a function holds statements, and types hold all of them.  A `Grammar` is the
record of the constructs that are entered recursively.  Each family of constructs is written against a
given `Grammar`; `Program` ties the knot level by level, the depth being bounded by the length of the
source.
-/

namespace RequestAtlas.Syntax

/-- What the surroundings of a construct allow. -/
structure Scope where
  /-- A semicolon may be supplied here, so a line break can end the construct. -/
  line : Bool
  /-- The parameters of an arrow function may be followed by a return type. -/
  arrowTypes : Bool
  /-- Type arguments may be attached to an operand. -/
  typed : Bool := true
deriving DecidableEq, Repr, Inhabited

/-- At the end of a statement. -/
def Scope.statement : Scope := { line := true, arrowTypes := true }

/-- Inside brackets of any kind. -/
def Scope.bracketed : Scope := { line := false, arrowTypes := true }

/-- Before a colon that is not the start of a type. -/
def Scope.beforeColon : Scope := { line := false, arrowTypes := false }

/-- The constructs that are entered recursively. -/
structure Grammar where
  /-- An expression without a comma operator. -/
  expression : Scope → Parse Node
  /-- An operand with its prefix and postfix operators. -/
  operand : Scope → Parse Node
  /-- A type; `true` where a line break can end it. -/
  type : Bool → Parse Node
  /-- A type without union, intersection or condition around it. -/
  primaryType : Bool → Parse Node
  /-- A destructuring pattern. -/
  pattern : Parse Node
  /-- A markup element. -/
  element : Parse Node
  statement : Parse Node

/-- The grammar that accepts nothing. -/
def Grammar.empty : Grammar :=
  { expression := fun _ => failure, operand := fun _ => failure, type := fun _ => failure,
    primaryType := fun _ => failure, pattern := failure, element := failure, statement := failure }

namespace Parse

/-- An expression that may use the comma operator. -/
def expressions (g : Grammar) (sc : Scope) : Parse Node := do
  leading
  let start ← get
  let first ← g.expression sc
  let rest ← many (do symbol ","; leading; g.expression sc)
  if rest.isEmpty then return first
  else node (.construct "sequence_expression") start (first :: rest)

/-- One place of a comma list: an item with the comments around it, or nothing. -/
def slot (item : Parse Node) : Parse (List Node) := do
  let before ← comments true
  let it ← maybe item
  let after ← comments false
  return before ++ it.toList ++ after

/-- Items between commas, where a place may be empty. -/
def slots (item : Parse Node) : Parse (List Node) := do
  let first ← slot item
  let rest ← many (do let comma ← tokenNode ","; return comma :: (← slot item))
  return first ++ rest.flatten

/-- At least one item between commas, with at most one comma at the end. -/
def commaList {α : Type} (item : Parse α) : Parse (List α) := do
  let items ← sepBy1 item (symbol ",")
  let _ ← maybe (symbol ",")
  return items

/-- Read `...` and an expression. -/
def spread (g : Grammar) : Parse Node := do
  let start ← here
  exactly "..."
  leading
  let e ← g.expression .bracketed
  node .spread start [e]

/-- The arguments of a call. -/
def arguments (g : Grammar) : Parse Node := do
  let start ← here
  exactly "("
  let items ← slots (spread g <|> g.expression .bracketed)
  symbol ")"
  node .arguments start items

/-- The form `${` expression `}` -/
def substitution (g : Grammar) : Parse Node := do
  let start ← get
  exactly "$\x7b"
  let before ← comments true
  let e ← expressions g .bracketed
  let after ← comments false
  exactly "\x7d"
  node .substitution start (before ++ [e] ++ after)

/-- The inside of a template up to its closing backquote; `hole` reads one substitution. -/
def templateBody (hole : Parse Node) (escapes : Bool) : Parse (List Node) := fun c =>
  go (c.left + 1) [] c
where
  go : Nat → List Node → Cursor → Option (List Node × Cursor)
    | 0, _, _ => none
    | n + 1, acc, c =>
      match c.rest with
      | [] => none
      | '`' :: _ => some (acc.reverse, c.skip)
      | '\\' :: cs =>
        if escapes then
          match pastEscape? cs with
          | some r => go n acc (c.skipN (c.left - r.length))
          | none => none
        else none
      | '$' :: '{' :: _ =>
        match hole c with
        | some (h, c') => go n (h :: acc) c'
        | none => none
      | ch :: _ => if ch.toNat == 0 then none else go n acc c.skip

/-- A template literal. -/
def template (g : Grammar) : Parse Node := do
  let start ← here
  exactly "`"
  let holes ← templateBody (substitution g) true
  node .template start holes

/-- A property name in a key position. -/
def propertyName (g : Grammar) : Parse Node := do
  let start ← here
  match start.rest with
  | c :: _ =>
    if c == '"' || c == '\'' then string
    else if c == '#' then privateName
    else if c == '[' then
      exactly "["
      leading
      let e ← g.expression .bracketed
      symbol "]"
      node (.construct "computed_property_name") start [e]
    else if c.isDigit || c == '.' then number
    else wordNode .propertyIdentifier []
  | [] => failure

/-- Whether a property name starts here. -/
def seesPropertyName : Parse Bool := do
  let c ← upcoming
  match c.rest with
  | ch :: r =>
    return ch == '"' || ch == '\'' || ch == '#' || ch == '[' || ch.isDigit ||
      (ch == '.' && r.head?.any Char.isDigit) || wordLength c.rest != 0
  | [] => return false

/-- Read `:` and a type. -/
def annotatedType (g : Grammar) (line : Bool) : Parse Node := do
  symbol ":"
  g.type line

/-- Read `=` and a value. -/
def initializer (g : Grammar) (sc : Scope) : Parse Node := do
  symbolNot "=" "=>"
  leading
  g.expression sc

/-- Type arguments in angle brackets. -/
def typeArguments (g : Grammar) : Parse (List Node) := do
  symbol "<"
  let ts ← commaList (g.type false)
  symbol ">"
  return ts

/-- Type parameters in angle brackets. -/
def typeParameters (g : Grammar) : Parse (List Node) := do
  symbol "<"
  let ps ← commaList parameter
  symbol ">"
  return ps
where
  parameter : Parse Node := do
    let start ← here
    let _ ← maybe (do
      keyword "const"
      ensure ((← wordAhead).any (· != "extends")))
    let name ← wordNode (.construct "type_identifier") []
    let bound ← maybe (do (keyword "extends" <|> symbol ":"); g.type false)
    let default ← maybe (do symbol "="; g.type false)
    node (.construct "type_parameter") start (name :: bound.toList ++ default.toList)

/-- A decorator: a dotted name, called or not, or one of these in parentheses. -/
def decorator (g : Grammar) : Parse Node := do
  let start ← here
  exactly "@"
  let e ← called <|> (do
    let inner ← here
    exactly "("
    let e ← called
    symbol ")"
    node .parenthesized inner [e])
  node (.construct "decorator") start [e]
where
  dotted : Parse Node := do
    let start ← here
    let first ← wordNode .identifier []
    extend start first (← get).left
  /-- Add `.name` as often as it follows, at most `fuel` times. -/
  extend (start : Cursor) (e : Node) : Nat → Parse Node
    | 0 => pure e
    | fuel + 1 => do
      match ← maybe (do symbol "."; wordNode .propertyIdentifier []) with
      | none => pure e
      | some name =>
        let e ← node .member start [e.withRole .object, name.withRole .property]
        extend start e fuel
  called : Parse Node := do
    let start ← here
    let callee ← dotted
    match ← maybe (do
      let ts ← maybe (typeArguments g)
      let args ← arguments g
      return (ts.getD [], args)) with
    | none => return callee
    | some (ts, args) =>
      node .call start (callee.withRole .function :: ts ++ [args.withRole .arguments])

end Parse

end RequestAtlas.Syntax
