import RequestAtlas.Syntax.Patterns
/-!
# Types

Type expressions as they appear in annotations, aliases, interfaces and type arguments.  Most of them
hold nothing that matters to a scan for calls, but a `typeof` query may name a call and a parameter may
have a default value, so types are read into nodes like everything else.
-/

namespace RequestAtlas.Syntax.Parse

/-- Fail where a line break ends the type. -/
def sameLine (line : Bool) : Parse Unit := do
  if line then ensure !(← semicolonSupplied false)

/-! ## Members of object types -/

/-- Words that may stand in front of a member's name. -/
def memberModifiers : List String :=
  ["public", "private", "protected", "static", "override", "readonly", "async", "get", "set"]

/-- A modifier in front of a member's name.  A word is a modifier only if a name follows it on what
counts as the same line. -/
def memberModifier (line : Bool) (words : List String) : Parse Unit := do
  let w ← word
  ensure (words.contains w)
  sameLine line
  ensure ((← seesPropertyName) || (← sees "*"))

/-- Read `[key: K]: V` and the mapped form `[K in T as U]: V`. -/
def indexSignature (g : Grammar) (line : Bool) : Parse Node := do
  let start ← here
  let _ ← maybe (do
    let _ ← maybe (symbol "-" <|> symbol "+")
    keyword "readonly")
  symbol "["
  let name ← wordNode .identifier []
  let inner ← (do let t ← annotatedType g false; return [t]) <|> (do
    keyword "in"
    let t ← g.type false
    let u ← maybe (do keyword "as"; g.type false)
    return t :: u.toList)
  symbol "]"
  let value ← annotation
  node (.construct "index_signature") start (name :: inner ++ [value])
where
  annotation : Parse Node := do
    trivia
    (exactly "-?:" <|> exactly "+?:" <|> exactly "?:" <|> exactly ":")
    g.type line

/-- The form `new (…): T` -/
def constructSignature (g : Grammar) : Parse Node := do
  let start ← here
  let _ ← maybe (keyword "abstract")
  keyword "new"
  let ts ← maybe (typeParameters g)
  let ps ← parameters g
  let r ← maybe (annotatedType g true)
  node (.construct "construct_signature") start (ts.getD [] ++ [ps] ++ r.toList)

/-- One member of an object type. -/
def typeMember (g : Grammar) : Parse Node :=
  firstOf [callSignature, constructSignature g, indexSignature g true, named, exported]
where
  callSignature : Parse Node := do
    let start ← here
    let parts ← signature g true
    node (.construct "call_signature") start parts
  named : Parse Node := do
    let start ← here
    let _ ← many (memberModifier true memberModifiers)
    let _ ← maybe (symbol "*")
    let name ← propertyName g
    let _ ← maybe (symbolNot "?" ".")
    let parts ← maybe (signature g true)
    match parts with
    | some ps => node (.construct "method_signature") start (name :: ps)
    | none =>
      let t ← maybe (annotatedType g true)
      node (.construct "property_signature") start (name :: t.toList)
  exported : Parse Node := do
    ensure (← seesWord "export")
    g.statement

/-- An object type or the body of an interface. -/
def objectType (g : Grammar) : Parse Node := do
  let start ← here
  exactly "\x7b"
  let _ ← maybe (exactly "|")
  let _ ← maybe (symbol "," <|> symbol ";")
  let members ← maybe (sepBy1 (typeMember g) separator)
  let _ ← maybe separator
  let _ ← maybe (symbol "|")
  symbol "\x7d"
  node (.construct "object_type") start (members.getD [])
where
  separator : Parse Unit := symbol "," <|> semicolon false

/-! ## Primary types -/

/-- Read `typeof` and a restricted expression. -/
def typeQuery (g : Grammar) (line : Bool) : Parse Node := do
  let start ← here
  keyword "typeof"
  let inner ← here
  let root ← wordNode .identifier ["import", "this"] <|> wordNode (.construct "this") ["import"] <|>
    wordNode (.construct "import") []
  let e ← go inner root (← get).left
  node (.construct "type_query") start [e]
where
  go (start : Cursor) (e : Node) : Nat → Parse Node
    | 0 => pure e
    | fuel + 1 => do
      match ← maybe (step start e) with
      | none => pure e
      | some e => go start e fuel
  step (start : Cursor) (e : Node) : Parse Node := do
    sameLine line
    (do (symbol "?." <|> symbol ".")
        let name ← privateName <|> wordNode .propertyIdentifier []
        node .member start [e.withRole .object, name.withRole .property]) <|>
      (do symbol "["
          let i ← number <|> string <|> wordNode .identifier []
          symbol "]"
          node (.construct "subscript_expression") start [e, i]) <|>
      (do let args ← arguments g
          node .call start [e.withRole .function, args.withRole .arguments]) <|>
      (do let ts ← typeArguments g
          node (.construct "instantiation_expression") start (e :: ts))

/-- Read `import('…')` as a type, with members and further calls. -/
def importType (g : Grammar) : Parse Node := do
  let start ← here
  let root ← keywordNode (.construct "import") "import"
  go start root (← get).left
where
  go (start : Cursor) (e : Node) : Nat → Parse Node
    | 0 => pure e
    | fuel + 1 => do
      match ← maybe (step start e) with
      | none => pure e
      | some e => go start e fuel
  step (start : Cursor) (e : Node) : Parse Node :=
    (do symbol "."
        let name ← privateName <|> wordNode .propertyIdentifier []
        node .member start [e.withRole .object, name.withRole .property]) <|>
      (do let args ← arguments g
          node .call start [e.withRole .function, args.withRole .arguments])

/-- A member of a tuple type. -/
def tupleMember (g : Grammar) : Parse Node :=
  firstOf [labelled, rest, optionalType]
where
  labelled : Parse Node := do
    let start ← here
    let _ ← maybe (symbol "...")
    let name ← wordNode .identifier []
    let _ ← maybe (symbol "?")
    let t ← annotatedType g false
    node (.construct "tuple_parameter") start [name, t]
  rest : Parse Node := do
    let start ← here
    exactly "..."
    let t ← g.type false
    node (.construct "rest_type") start [t]
  optionalType : Parse Node := do
    let t ← g.type false
    let _ ← maybe (symbol "?")
    return t

/-- A named type, dotted and with type arguments where given. -/
def namedType (g : Grammar) (line : Bool) : Parse Node := do
  let start ← here
  let first ← wordNode (.construct "type_identifier") reserved
  let names ← many (do sameLine line; symbol "."; wordNode (.construct "type_identifier") [])
  let args ← maybe (do sameLine line; typeArguments g)
  if names.isEmpty && args.isNone then return first
  else node (.construct "generic_type") start (first :: names ++ args.getD [])
where
  reserved : List String :=
    ["typeof", "keyof", "readonly", "infer", "new", "abstract", "unique", "import", "true", "false",
      "null"]

/-- A template literal type. -/
def templateType (g : Grammar) : Parse Node := do
  let start ← here
  exactly "`"
  let holes ← templateBody hole false
  node (.construct "template_literal_type") start holes
where
  hole : Parse Node := do
    let start ← get
    exactly "$\x7b"
    let t ← g.type false
    symbol "\x7d"
    node (.construct "template_type") start [t]

/-- A type that starts with a bracket, a quote, a digit or a word. -/
def typeAtom (g : Grammar) (line : Bool) : Parse Node := do
  let start ← here
  let wrap (name : String) (inner : Parse (List Node)) : Parse Node := do
    let cs ← inner
    node (.construct name) start cs
  match start.rest with
  | '(' :: _ => wrap "parenthesized_type" (do
      exactly "("; let t ← g.type false; symbol ")"; return [t])
  | '{' :: _ => objectType g
  | '[' :: _ => wrap "tuple_type" (do
      exactly "["; let ts ← maybe (commaList (tupleMember g)); let _ ← maybe (symbol ",")
      symbol "]"; return ts.getD [])
  | '`' :: _ => templateType g
  | '"' :: _ => string
  | '\'' :: _ => string
  | '*' :: _ => wrap "existential_type" (do exactly "*"; return [])
  | '?' :: _ => wrap "flow_maybe_type" (do exactly "?"; let t ← g.primaryType line; return [t])
  | '-' :: _ => wrap "unary_expression" (do exactly "-"; let n ← number; return [n])
  | '+' :: _ => wrap "unary_expression" (do exactly "+"; let n ← number; return [n])
  | c :: _ =>
    if c.isDigit || c == '.' then number
    else
      match ← wordAhead with
      | some "typeof" => typeQuery g line
      | some "keyof" => wrap "index_type_query" (do
          keyword "keyof"; let t ← g.primaryType line; return [t])
      | some "unique" => wrap "predefined_type" (do keyword "unique"; keyword "symbol"; return [])
      | some "import" => importType g
      | some "true" => keywordNode .trueLiteral "true"
      | some "false" => keywordNode .falseLiteral "false"
      | some "null" => keywordNode .nullLiteral "null"
      | _ => namedType g line
  | [] => failure

/-- A primary type with array and look-up brackets behind it. -/
def primaryType (g : Grammar) (line : Bool) : Parse Node := do
  let start ← here
  let first ← typeAtom g line
  let brackets ← many (do
    sameLine line
    symbol "["
    let t ← maybe (g.type false)
    symbol "]"
    return t.toList)
  if brackets.isEmpty then return first
  else node (.construct "array_type") start (first :: brackets.flatten)

/-! ## Composite types -/

/-- Read `(…) => T`, with type parameters where given. -/
def functionType (g : Grammar) (line : Bool) : Parse Node := do
  let start ← here
  let ts ← maybe (typeParameters g)
  let ps ← parameters g
  symbol "=>"
  let r ← returnType g line
  node (.construct "function_type") start (ts.getD [] ++ [ps, r])

/-- The form `new (…) => T` -/
def constructorType (g : Grammar) (line : Bool) : Parse Node := do
  let start ← here
  let _ ← maybe (keyword "abstract")
  keyword "new"
  let ts ← maybe (typeParameters g)
  let ps ← parameters g
  symbol "=>"
  let r ← g.type line
  node (.construct "constructor_type") start (ts.getD [] ++ [ps, r])

/-- One operand of a union or intersection. -/
def typeOperand (g : Grammar) (line : Bool) : Parse Node := do
  let start ← here
  match start.rest with
  | '<' :: _ => functionType g line
  | '(' :: _ => functionType g line <|> primaryType g line
  | _ =>
    match ← wordAhead with
    | some "new" => constructorType g line
    | some "abstract" => constructorType g line
    | some "readonly" => do
      keyword "readonly"
      let t ← g.type line
      node (.construct "readonly_type") start [t]
    | some "infer" => do
      keyword "infer"
      let n ← wordNode (.construct "type_identifier") []
      let b ← maybe (do keyword "extends"; g.type line)
      node (.construct "infer_type") start (n :: b.toList)
    | _ => primaryType g line

/-- A type: operands joined by `|` and `&`, and possibly a condition on them. -/
def type (g : Grammar) (line : Bool) : Parse Node := do
  let start ← here
  let _ ← maybe joint
  let first ← typeOperand g line
  let more ← many (do sameLine line; joint; typeOperand g line)
  let condition ← maybe (do
    sameLine line
    keyword "extends"
    let bound ← g.type line
    symbol "?"
    let yes ← g.type line
    symbol ":"
    let no ← g.type line
    return [bound, yes, no])
  if more.isEmpty && condition.isNone then return first
  else node (.construct "composite_type") start (first :: more ++ condition.getD [])
where
  joint : Parse Unit := symbolNot "|" "|=\x7d" <|> symbolNot "&" "&="

end RequestAtlas.Syntax.Parse
