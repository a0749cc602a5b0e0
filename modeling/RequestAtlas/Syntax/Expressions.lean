import RequestAtlas.Syntax.Markup
/-!
# Expressions

Operands with what is attached to them, and the operators between operands.  Which of two operators binds
more tightly makes no difference to what an expression contains, so a chain of operators is read flat.  It
does matter that type arguments bind no more tightly than a comparison: in `await f<T>(x)` what is called is
`await f`, and in `a + f<T>(x)` it is `a + f`.
Where a semicolon may be supplied, a line break that supplies one ends the expression even if the next
line could continue it.
-/

namespace RequestAtlas.Syntax.Parse

/-- Fail where a supplied semicolon ends the expression. -/
def continues (sc : Scope) : Parse Unit := do
  if sc.line then ensure !(← semicolonSupplied true)

/-! ## Operators -/

/-- Operators between two operands, longer ones first. -/
def binaryOperators : List String :=
  ["===", "!==", "**", "&&", "||", "??", "<<", ">>>", ">>", "<=", ">=", "==", "!=", "+", "-", "*", "/",
    "%", "<", ">", "&", "^", "|"]

/-- Words between two operands. -/
def binaryWords : List String := ["in", "instanceof"]

/-- Operators that assign, longer ones first. -/
def assignmentOperators : List String :=
  [">>>=", "**=", "<<=", ">>=", "&&=", "||=", "??=", "+=", "-=", "*=", "/=", "%=", "^=", "&=", "|="]

/-- Words that continue an expression and so cannot start an operand right behind one. -/
def continuingWords : List String := ["in", "instanceof", "as", "satisfies"]

/-- Operators that bind less tightly than a comparison. -/
def looseOperators : List String := ["===", "!==", "&&", "||", "??", "==", "!=", "&", "^", "|"]

/-- An operator between two operands; the answer is whether it binds as tightly as a comparison. -/
def binaryOperator : Parse Bool := do
  let start ← here
  match start.rest.head? with
  | some c =>
    if isWordChar c then
      let w ← word
      ensure (binaryWords.contains w)
      return true
    else
      let op ← firstOf (binaryOperators.map fun op => do exactly op; return op)
      -- an operator that assigns is a longer token
      ensure !(← peeks (exactly "=" *> pure ()))
      return !looseOperators.contains op
  | none => failure

/-- The question mark of a conditional expression: neither part of another operator nor the mark of an
optional parameter. -/
def questionMark : Parse Unit := do
  symbolNot "?" "?."
  match (← ahead).dropWhile isBreakableBlank with
  | ':' :: _ => failure
  | ')' :: _ => failure
  | ',' :: _ => failure
  | '.' :: c :: _ => ensure c.isDigit
  | _ => pure ()

/-- Whether an operand may start here. -/
def seesOperand : Parse Bool := do
  let c ← upcoming
  match c.rest with
  | '.' :: ch :: _ => return ch.isDigit
  | ch :: _ =>
    if "([\x7b`\"'+-!~</@#".toList.contains ch then return true
    else match ← wordAhead with
      | some w => return !(continuingWords.contains w)
      | none => return ch.isDigit
  | [] => return false

/-! ## Functions -/

/-- Whether an arrow occurs anywhere ahead. -/
def arrowAhead : List Char → Bool
  | '=' :: '>' :: _ => true
  | _ :: cs => arrowAhead cs
  | [] => false

/-- Arrow and body of an arrow function. -/
def arrowBody (g : Grammar) (sc : Scope) : Parse Node := do
  symbol "=>"
  leading
  block g <|> g.expression sc

/-- An arrow function with a parameter list. -/
def arrowFunction (g : Grammar) (sc : Scope) (start : Cursor) : Parse Node := do
  ensure (arrowAhead (← ahead))
  let ts ← maybe (typeParameters g)
  let ps ← parameters g
  let r ← if sc.arrowTypes then maybe (do symbol ":"; returnType g false) else pure none
  let body ← arrowBody g sc
  node (.construct "arrow_function") start (ts.getD [] ++ [ps] ++ r.toList ++ [body])

/-- An arrow function with a single bare parameter. -/
def bareArrow (g : Grammar) (sc : Scope) (start : Cursor) : Parse Node := do
  let p ← wordNode .identifier ("undefined" :: operandWords)
  let body ← arrowBody g sc
  node (.construct "arrow_function") start [p, body]

/-- A function from its `function` word on. -/
def functionTail (g : Grammar) (start : Cursor) (named : Bool) : Parse Node := do
  keyword "function"
  let _ ← maybe (symbol "*")
  let name ← maybe (wordNode .identifier [])
  ensure (!named || name.isSome)
  let parts ← signature g false
  let body ← block g
  node (.construct "function") start (name.toList ++ parts ++ [body])

/-! ## Primary expressions -/

/-- An expression in parentheses, with a type where given. -/
def parenthesized (g : Grammar) : Parse Node := do
  let start ← here
  exactly "("
  let before ← comments true
  let e ← expressions g .bracketed
  let after ← comments false
  let t ← maybe (annotatedType g false)
  let last ← comments false
  exactly ")"
  node .parenthesized start (before ++ [e] ++ after ++ t.toList ++ last)

mutual

/-- Whether an expression can be a part of a pattern: a name, a member of anything, either with a default,
or a literal of such parts. -/
def isPart : Node → Bool
  | .mk kind _ _ _ children =>
    match kind with
    | .identifier | .undefined | .member | .shorthand | .comment | .token _ => true
    | .array | .object | .pair | .spread => areParts children
    | .construct n =>
      ["subscript_expression", "non_null_expression", "assignment_expression"].contains n
    | _ => false

/-- Whether all but the keys are parts of a pattern. -/
def areParts : List Node → Bool
  | [] => true
  | n :: ns => (n.role == some .key || isPart n) && areParts ns

end

/-- A literal in brackets or braces, or the pattern that it is if a value is assigned to it.  Some patterns
are no literals. -/
def literalOrPattern (g : Grammar) (literal : Parse Node) : Parse Node :=
  (do let l ← literal
      let assigned ← peeks (symbolNot "=" "=>")
      ensure (!assigned || isPart l)
      return l) <|>
  (do let p ← g.pattern
      ensure (← peeks (symbolNot "=" "=>"))
      return p)

/-- The form `namespace A.B { … }`; the body may be missing. -/
def namespaceConstruct (g : Grammar) (start : Cursor) : Parse Node := do
  let name ← string <|> (do
    let inner ← here
    let first ← wordNode .identifier []
    let dots ← many (do symbol "."; wordNode .propertyIdentifier [])
    node (.construct "nested_identifier") inner (first :: dots))
  let body ← maybe (block g)
  node (.construct "module") start (name :: body.toList)

/-- Read `new` with its constructor and arguments. -/
def newExpression (g : Grammar) (start : Cursor) (base : Parse Node) : Parse Node := do
  keyword "new"
  let inner ← here
  let first ← (do
      ensure (← seesWord "new")
      g.operand .bracketed) <|> base
  let callee ← go inner first (← get).left
  let ts ← maybe (typeArguments g)
  let args ← maybe (arguments g)
  node (.construct "new_expression") start (callee :: ts.getD [] ++ args.toList)
where
  go (start : Cursor) (e : Node) : Nat → Parse Node
    | 0 => pure e
    | fuel + 1 => do
      match ← maybe (step start e) with
      | none => pure e
      | some e => go start e fuel
  step (start : Cursor) (e : Node) : Parse Node :=
    firstOf
      [ (do symbol "." <|> symbol "?."
            let name ← privateName <|> wordNode .propertyIdentifier []
            node .member start [e.withRole .object, name.withRole .property]),
        (do symbol "["
            let i ← expressions g .bracketed
            symbol "]"
            node (.construct "subscript_expression") start [e, i]),
        (do let t ← template g
            node .call start [e.withRole .function, t.withRole .arguments]),
        (do symbolNot "!" "="
            node (.construct "non_null_expression") start [e]) ]

/-- Read `import` as the root of a call or member. -/
def importRoot : Parse Node := do
  let n ← keywordNode (.construct "import") "import"
  ensure ((← sees "(") || (← sees ".") || (← sees "<"))
  return n

/-- What a word starts. -/
def wordOperand (g : Grammar) (sc : Scope) (base : Parse Node) (start : Cursor) (w : String) :
    Parse Node :=
  match w with
  | "true" => keywordNode .trueLiteral w
  | "false" => keywordNode .falseLiteral w
  | "null" => keywordNode .nullLiteral w
  | "this" => keywordNode (.construct w) w
  | "super" => keywordNode (.construct w) w
  | "function" => functionTail g start false
  | "class" => classConstruct g false
  | "import" => importRoot
  | "undefined" => keywordNode .undefined w
  | "async" =>
    firstOf
      [ (do keyword w; continues sc; functionTail g start false),
        (do keyword w; continues sc; arrowFunction g sc start),
        (do keyword w; continues sc; bareArrow g sc start),
        bareArrow g sc start,
        wordNode .identifier [] ]
  | "new" =>
    firstOf
      [ (do keyword w; symbol "."; keyword "target"; node (.construct "meta_property") start []),
        newExpression g start base,
        (do let n ← wordNode .identifier []
            ensure !(← seesOperand)
            return n) ]
  | "namespace" =>
    firstOf
      [ bareArrow g sc start,
        (do keyword w
            continues sc
            ensure !((← wordAhead).any continuingWords.contains)
            namespaceConstruct g start),
        wordNode .identifier [] ]
  | _ => bareArrow g sc start <|> wordNode .identifier operandWords

/-- An operand before anything is attached to it.  `base` is the same without arrow functions: what a
`new` may construct. -/
def primaryWith (g : Grammar) (sc : Scope) (base : Parse Node) : Parse Node := do
  leading
  let start ← get
  match start.rest with
  | '(' :: _ => arrowFunction g sc start <|> parenthesized g
  | '[' :: _ => literalOrPattern g (array g)
  | '{' :: _ => literalOrPattern g (object g)
  | '"' :: _ => string
  | '\'' :: _ => string
  | '`' :: _ => template g
  | '/' :: _ => regex
  | '<' :: _ => arrowFunction g sc start <|> g.element
  | '@' :: _ => classConstruct g false
  | '#' :: _ => do
    let n ← privateName
    ensure (← seesWord "in")
    return n
  | c :: _ =>
    if c.isDigit || c == '.' then number
    else
      match ← wordAhead with
      | some w => wordOperand g sc base start w
      | none => failure
  | [] => failure

/-- An operand before anything is attached to it. -/
def primary (g : Grammar) (sc : Scope) : Parse Node :=
  primaryWith g sc (primaryWith g .bracketed failure)

/-! ## What is attached to an operand -/

/-- A member: `.name` or `?.name`. -/
def memberStep (start : Cursor) (e : Node) : Parse Node :=
  (do symbol "."
      let name ← privateName <|> wordNode .propertyIdentifier []
      node .member start [e.withRole .object, name.withRole .property]) <|>
  (do let dot ← here
      exactly "?."
      let chain ← node .optionalChain dot []
      let name ← privateName <|> wordNode .propertyIdentifier []
      node .member start
        [e.withRole .object, chain.withRole .optionalChain, name.withRole .property])

/-- A subscript: `[i]` or `?.[i]`. -/
def subscriptStep (g : Grammar) (start : Cursor) (e : Node) : Parse Node := do
  let _ ← maybe (symbol "?.")
  symbol "["
  let i ← expressions g .bracketed
  symbol "]"
  node (.construct "subscript_expression") start [e, i]

/-- Expressions that must stand in brackets to be called behind `?.` or with a template. -/
def openExpressions : List String :=
  ["update_expression", "instantiation_expression", "unary_expression", "operation", "jsx_element",
    "jsx_self_closing_element", "new_expression"]

/-- Whether an expression is closed enough to be called behind `?.` or with a template. -/
def isClosed (e : Node) : Bool :=
  match e.kind with
  | .construct n =>
    !(openExpressions.contains n)
  | _ => true

/-- A call, with type arguments where given; also behind `?.`, which leaves no mark on the call. -/
def callStep (g : Grammar) (start : Cursor) (e : Node) : Parse Node := do
  let _ ← maybe (symbol "?.")
  let ts ← maybe (typeArguments g)
  let args ← arguments g
  node .call start (e.withRole .function :: ts.getD [] ++ [args.withRole .arguments])

/-- Type arguments that are followed neither by a call nor by an operand. -/
def instantiationStep (g : Grammar) (sc : Scope) (start : Cursor) (e : Node) : Parse Node := do
  let ts ← typeArguments g
  -- a closing bracket with an equals sign right behind it is a comparison
  ensure ((← ahead).head? != some '=')
  let ended ← if sc.line then semicolonSupplied true else pure false
  let more ← seesOperand
  ensure (ended || !more)
  node (.construct "instantiation_expression") start (e :: ts)

/-- One thing attached to an operand. -/
def postfixStep (g : Grammar) (sc : Scope) (start : Cursor) (e : Node) : Parse Node := do
  continues sc
  let c ← here
  match c.rest with
  | '.' :: _ => memberStep start e
  | '?' :: '.' :: _ =>
    firstOf [memberStep start e, subscriptStep g start e, (do ensure (isClosed e); callStep g start e)]
  | '[' :: _ => subscriptStep g start e
  | '(' :: _ => callStep g start e
  | '<' :: _ => if sc.typed then callStep g start e <|> instantiationStep g sc start e else failure
  | '`' :: _ => do
    ensure (isClosed e || e.kind == .construct "new_expression")
    let t ← template g
    node .call start [e.withRole .function, t.withRole .arguments]
  | '!' :: _ => do
    symbolNot "!" "="
    node (.construct "non_null_expression") start [e]
  | '+' :: '+' :: _ => do exactly "++"; node (.construct "update_expression") start [e]
  | '-' :: '-' :: _ => do exactly "--"; node (.construct "update_expression") start [e]
  | _ => failure

/-- Everything attached to an operand. -/
def postfixes (g : Grammar) (sc : Scope) (start : Cursor) (e : Node) : Nat → Parse Node
  | 0 => pure e
  | fuel + 1 => do
    match ← maybe (postfixStep g sc start e) with
    | none => pure e
    | some e => postfixes g sc start e fuel

/-- What is attached to an operand together with the operators around it: type arguments, and more behind
them. -/
def typedPostfixes (g : Grammar) (sc : Scope) (start : Cursor) (e : Node) : Parse Node := do
  if sc.typed && (← sees "<") then
    match ← maybe (postfixStep g sc start e) with
    | some e => postfixes g sc start e start.left
    | none => pure e
  else pure e

/-- Whether a value can be assigned to this expression. -/
def isTarget (e : Node) : Bool :=
  match e.kind with
  | .identifier | .undefined | .member | .parenthesized => true
  | .array | .object => isPart e
  | .construct n =>
    ["subscript_expression", "non_null_expression", "object_pattern", "array_pattern"].contains n
  | _ => false

/-- An operand with what is attached to it, and no prefix operator. -/
def attached (g : Grammar) (sc : Scope) : Parse Node := do
  leading
  let start ← get
  let e ← primary g sc
  postfixes g sc start e start.left

/-- An operand, and an assignment to it if one follows. -/
def assignable (g : Grammar) (sc : Scope) : Parse Node := do
  leading
  let start ← get
  let e ← attached g sc
  if !isTarget e then return e
  else
    match ← maybe (do
      continues sc
      trivia
      (symbolNot "=" "=>" <|> firstOf (assignmentOperators.map exactly))) with
    | none => return e
    | some _ =>
      leading
      let v ← g.expression sc
      node (.construct "assignment_expression") start [e, v]

/-- An operand with its prefix and postfix operators. -/
def operand (g : Grammar) (sc : Scope) : Parse Node := do
  leading
  let start ← get
  let unary (op : Parse Unit) : Parse Node := do
    op
    leading
    let e ← g.operand { sc with typed := false }
    typedPostfixes g sc start (← node (.construct "unary_expression") start [e])
  match start.rest with
  | '+' :: '+' :: _ => unary (exactly "++")
  | '-' :: '-' :: _ => unary (exactly "--")
  | '+' :: _ => unary (exactly "+")
  | '-' :: _ => unary (exactly "-")
  | '!' :: _ => unary (exactly "!")
  | '~' :: _ => unary (exactly "~")
  | _ =>
    match ← wordAhead with
    | some "typeof" => unary (keyword "typeof")
    | some "void" => unary (keyword "void")
    | some "delete" => unary (keyword "delete")
    | some "await" => unary (keyword "await")
    | some "yield" => do
      keyword "yield"
      let e ← (do symbol "*"; leading; let e ← g.expression sc; return some e) <|> maybe (do
        continues sc
        ensure (← seesOperand)
        leading
        g.expression sc)
      node (.construct "yield_expression") start e.toList
    | some "using" => do
      keyword "using"
      let e ← assignable g sc
      ensure (e.kind == .construct "assignment_expression")
      return e
    | _ => assignable g sc

/-! ## Chains of operators -/

/-- One operator and what stands to its right; the flag tells whether type arguments behind it belong to all
that was read. -/
def tail (g : Grammar) (sc : Scope) : Parse (List Node × Bool) := do
  continues sc
  firstOf
    [ (do let tight ← binaryOperator
          leading
          let e ← g.operand { sc with typed := !tight }
          return ([e], tight)),
      (do questionMark
          let yes ← branch
          leading
          let no ← g.expression sc
          return ([yes, no], false)),
      (do keyword "as"
          let t ← keywordNode (.construct "const") "const" <|> g.type sc.line
          return ([t], false)),
      (do keyword "satisfies"
          let t ← g.type sc.line
          return ([t], false)) ]
where
  /-- The part between question mark and colon.  If it took the colon for the start of a return type, it
  is read again without one. -/
  branch : Parse Node := do
    leading
    let start ← get
    let e ← g.expression .bracketed
    if ← sees ":" then
      symbol ":"
      return e
    else
      set start
      let e ← g.expression .beforeColon
      symbol ":"
      return e

/-- A chain of operators behind the parts read so far, which are given backwards. -/
def chain (g : Grammar) (sc : Scope) (start : Cursor) : Nat → List Node → Parse (List Node)
  | 0, parts => pure parts
  | fuel + 1, parts => do
    match ← maybe (tail g sc) with
    | none => pure parts
    | some (more, tight) =>
      let parts := more.reverse ++ parts
      if tight && (← sees "<") then
        let e ← node (.construct "operation") start parts.reverse
        match ← maybe (postfixStep g sc start e) with
        | some e => chain g sc start fuel [← postfixes g sc start e start.left]
        | none => chain g sc start fuel parts
      else chain g sc start fuel parts

/-- An expression without a comma operator. -/
def expression (g : Grammar) (scope : Scope) : Parse Node := do
  let sc := { scope with typed := true }
  leading
  let start ← get
  let first ← g.operand sc
  match ← chain g sc start start.left [first] with
  | [e] => return e
  | parts => node (.construct "operation") start parts.reverse

end RequestAtlas.Syntax.Parse
