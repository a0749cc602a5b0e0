import RequestAtlas.Syntax.Grammar
/-!
# Patterns and parameters

What a value can be bound or assigned to: names, members, and the destructuring patterns in brackets and
braces; and the parameter lists and signatures built from them.
-/

namespace RequestAtlas.Syntax.Parse

/-- Words that can start an operand but are never a name there. -/
def operandWords : List String :=
  ["this", "super", "true", "false", "null", "function", "class", "await", "yield", "typeof", "void",
    "delete", "import", "using"]

/-- A name, with any members and subscripts behind it. -/
def plainTarget (g : Grammar) : Parse Node := do
  let start ← here
  let first ← keywordNode (.construct "this") "this" <|> keywordNode (.construct "super") "super" <|>
    wordNode .identifier operandWords
  let e ← go start first (← get).left
  ensure (e.kind != .construct "this" && e.kind != .construct "super")
  return e
where
  go (start : Cursor) (e : Node) : Nat → Parse Node
    | 0 => pure e
    | fuel + 1 => do
      match ← maybe (step start e) with
      | none => pure e
      | some e => go start e fuel
  step (start : Cursor) (e : Node) : Parse Node :=
    (do symbol "."
        let name ← privateName <|> wordNode .propertyIdentifier []
        node .member start [e.withRole .object, name.withRole .property]) <|>
    (do symbol "["
        let i ← expressions g .bracketed
        symbol "]"
        node (.construct "subscript_expression") start [e, i])

/-- A value for when none is bound. -/
def withDefault (g : Grammar) (target : Parse Node) : Parse Node := do
  let start ← here
  let t ← target
  match ← maybe (initializer g .bracketed) with
  | none => return t
  | some e => node (.construct "assignment_pattern") start [t, e]

/-- A pattern inside another one. -/
def innerPattern (g : Grammar) : Parse Node := g.pattern <|> plainTarget g

/-- Read `...` and what collects the rest. -/
def restPattern (g : Grammar) : Parse Node := do
  let start ← here
  exactly "..."
  let t ← innerPattern g
  node (.construct "rest_pattern") start [t]

/-- The form `[a, , b = 1]` -/
def arrayPattern (g : Grammar) : Parse Node := do
  let start ← here
  exactly "["
  let items ← slots (restPattern g <|> withDefault g (innerPattern g))
  symbol "]"
  node (.construct "array_pattern") start items

/-- The form `{a, b: c = 1, ...d}` -/
def objectPattern (g : Grammar) : Parse Node := do
  let start ← here
  exactly "\x7b"
  let items ← slots (restPattern g <|> pairPattern <|> short <|> withDefault g g.pattern)
  symbol "\x7d"
  node (.construct "object_pattern") start items
where
  pairPattern : Parse Node := do
    let start ← here
    let key ← propertyName g
    symbol ":"
    let value ← withDefault g (innerPattern g) <|> restPattern g
    node (.construct "pair_pattern") start [key, value]
  short : Parse Node :=
    withDefault g (wordNode (.construct "shorthand_property_identifier_pattern") [])

/-- A destructuring pattern. -/
def pattern (g : Grammar) : Parse Node := arrayPattern g <|> objectPattern g

/-- What a declaration binds. -/
def binding (g : Grammar) : Parse Node := g.pattern <|> wordNode .identifier []

/-! ## Parameters -/

def accessWords : List String := ["public", "private", "protected"]

/-- Whether a parameter's pattern starts here. -/
def seesParameter : Parse Bool := do
  let c ← upcoming
  match c.rest with
  | ch :: _ => return ch == '{' || ch == '[' || ch == '.' || wordLength c.rest != 0
  | [] => return false

/-- A modifier in front of a parameter. -/
def parameterModifier (words : List String) : Parse Unit := do
  let w ← word
  ensure (words.contains w)
  ensure (← seesParameter)

/-- One parameter. -/
def parameter (g : Grammar) : Parse Node := do
  leading
  let start ← get
  let decorators ← many (decorator g)
  let _ ← maybe (parameterModifier accessWords)
  let _ ← maybe (parameterModifier ["override"])
  let _ ← maybe (parameterModifier ["readonly"])
  let p ← restPattern g <|> innerPattern g <|> keywordNode (.construct "this") "this"
  let _ ← maybe (symbol "?")
  let type ← maybe (annotatedType g false)
  let value ← maybe (initializer g .bracketed)
  node (.construct "parameter") start (decorators ++ [p] ++ type.toList ++ value.toList)

/-- A parameter list. -/
def parameters (g : Grammar) : Parse Node := do
  let start ← here
  exactly "("
  let items ← maybe (commaList (parameter g))
  symbol ")"
  node (.construct "formal_parameters") start (items.getD [])

/-- What a signature promises to return: a type, an assertion or a predicate. -/
def returnType (g : Grammar) (line : Bool) : Parse Node :=
  asserts <|> predicate <|> g.type line
where
  name : Parse Node := keywordNode (.construct "this") "this" <|> wordNode .identifier []
  predicate : Parse Node := do
    let start ← here
    let n ← name
    keyword "is"
    let t ← g.type line
    node (.construct "type_predicate") start [n, t]
  asserts : Parse Node := do
    let start ← here
    keyword "asserts"
    let n ← predicate <|> name
    node (.construct "asserts") start [n]

/-- Type parameters, parameters and return type. -/
def signature (g : Grammar) (line : Bool) : Parse (List Node) := do
  let ts ← maybe (typeParameters g)
  let ps ← parameters g
  let r ← maybe (do symbol ":"; returnType g line)
  return ts.getD [] ++ [ps] ++ r.toList

/-- Statements in braces. -/
def block (g : Grammar) : Parse Node := do
  let start ← here
  exactly "\x7b"
  let body ← many g.statement
  leading
  exactly "\x7d"
  node (.construct "statement_block") start body

end RequestAtlas.Syntax.Parse
