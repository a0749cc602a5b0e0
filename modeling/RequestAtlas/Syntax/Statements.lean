import RequestAtlas.Syntax.Expressions
/-!
# Statements and declarations

A statement is recognised by its first word or character; whatever starts with nothing special is an
expression statement.  Words that start a statement are no names there, except for those that a
declaration and an expression share (`let`, `type`, `async`, …): these declare something only if what
follows says so.
-/

namespace RequestAtlas.Syntax.Parse

/-- Words that, at the start of a statement, start nothing but the statement named after them. -/
def statementWords : List String :=
  ["if", "for", "while", "do", "try", "with", "break", "continue", "return", "throw", "debugger",
    "switch", "var", "const", "abstract", "interface", "enum"]

/-- An expression and the semicolon behind it. -/
def expressionStatement (g : Grammar) : Parse Node := do
  let start ← get
  match ← wordAhead with
  | some w => ensure !(statementWords.contains w)
  | none => pure ()
  let e ← expressions g .statement
  semicolon true
  node (.construct "expression_statement") start [e]

/-! ## Variables -/

/-- One variable with its type and value; the flag tells whether it ends in an expression. -/
def declarator (g : Grammar) : Parse (Node × Bool) := do
  let start ← here
  let name ← binding g
  let _ ← maybe (symbolNot "!" "=")
  let type ← maybe (annotatedType g true)
  let value ← maybe (initializer g .statement)
  let n ← node (.construct "variable_declarator") start
    (name :: type.toList ++ (value.map (·.withRole .value)).toList)
  return (n, value.isSome)

/-- Variables and the semicolon behind them. -/
def declarators (g : Grammar) (start : Cursor) : Parse Node := do
  let ds ← sepBy1 (declarator g) (symbol ",")
  semicolon ((ds.getLast?.map (·.2)).getD false)
  node (.construct "variable_declaration") start (ds.map (·.1))

/-- A declaration by `var`, `let` or `const`. -/
def variableDeclaration (g : Grammar) : Parse Node := do
  let start ← here
  let kind ← word
  if kind == "let" then
    ensure !(← semicolonSupplied true)
    ensure !((← wordAhead).any continuingWords.contains)
  else ensure (kind == "var" || kind == "const")
  declarators g start

/-! ## Functions, classes and types -/

/-- A named function, or its signature. -/
def functionDeclaration (g : Grammar) : Parse Node := do
  let start ← here
  let _ ← maybe (do keyword "async"; continues .statement)
  keyword "function"
  let _ ← maybe (symbol "*")
  let name ← wordNode .identifier []
  let parts ← signature g true
  if ← sees "\x7b" then
    let body ← block g
    node (.construct "function_declaration") start (name :: parts ++ [body])
  else
    signatureEnd
    node (.construct "function_signature") start (name :: parts)

/-- Whether a named function is declared here. -/
def seesFunction : Parse Bool := peeks (do
  let _ ← maybe (do keyword "async"; continues .statement)
  keyword "function"
  let _ ← maybe (symbol "*")
  word)

/-- A named class, abstract or not. -/
def classDeclaration (g : Grammar) : Parse Node := do
  let start ← here
  let decorators ← many (decorator g)
  let _ ← maybe (keyword "abstract")
  classTail g start decorators true

/-- Whether a named class is declared here. -/
def seesClass : Parse Bool := peeks (do
  keyword "class"
  let w ← word
  ensure (w != "extends" && w != "implements"))

/-- The form `interface A extends B { … }` -/
def interfaceDeclaration (g : Grammar) : Parse Node := do
  let start ← here
  keyword "interface"
  let name ← wordNode (.construct "type_identifier") []
  let ts ← maybe (typeParameters g)
  let parents ← maybe (do keyword "extends"; sepBy1 (namedType g false) (symbol ","))
  trivia
  let body ← objectType g
  node (.construct "interface_declaration") start
    (name :: ts.getD [] ++ parents.getD [] ++ [body])

/-- The form `enum A { b, c = 1 }` -/
def enumDeclaration (g : Grammar) : Parse Node := do
  let start ← here
  let _ ← maybe (keyword "const")
  keyword "enum"
  let name ← wordNode .identifier []
  symbol "\x7b"
  let members ← maybe (commaList (do
    let inner ← here
    let n ← propertyName g
    let v ← maybe (initializer g .bracketed)
    node (.construct "enum_member") inner (n :: v.toList)))
  symbol "\x7d"
  node (.construct "enum_declaration") start (name :: members.getD [])

/-- The form `type A<T> = B` -/
def typeAlias (g : Grammar) : Parse Node := do
  let start ← here
  keyword "type"
  continues .statement
  let name ← wordNode (.construct "type_identifier") continuingWords
  let ts ← maybe (typeParameters g)
  symbol "="
  let t ← g.type true
  semicolon false
  node (.construct "type_alias_declaration") start (name :: ts.getD [] ++ [t])

/-- The forms `module "a" { … }` and `namespace A.B { … }` -/
def moduleDeclaration (g : Grammar) : Parse Node := do
  let start ← here
  let w ← word
  ensure (w == "module" || w == "namespace")
  continues .statement
  ensure !((← wordAhead).any continuingWords.contains)
  namespaceConstruct g start

/-! ## Imports and exports -/

/-- A name that a module exports: a word or a string. -/
def exportedName : Parse Node := string <|> wordNode .identifier []

/-- The form `{ a, type b as c }` -/
def specifiers : Parse (List Node) := do
  symbol "\x7b"
  let items ← maybe (commaList (marked <|> plain))
  symbol "\x7d"
  return (items.getD []).flatten
where
  plain : Parse (List Node) := do
    let n ← exportedName
    let renamed ← maybe (do keyword "as"; exportedName)
    ensure ((← sees ",") || (← sees "\x7d"))
    return n :: renamed.toList
  marked : Parse (List Node) := do
    (keyword "type" <|> keyword "typeof")
    plain

/-- The form `from "a"` -/
def fromClause : Parse Node := do
  keyword "from"
  string

/-- What an import binds. -/
def importClause : Parse (List Node) :=
  firstOf [everything, specifiers, leadingName]
where
  everything : Parse (List Node) := do
    symbol "*"
    keyword "as"
    let n ← wordNode .identifier []
    return [n]
  leadingName : Parse (List Node) := do
    let n ← wordNode .identifier []
    let more ← maybe (do symbol ","; everything <|> specifiers)
    return n :: more.getD []

/-- An import statement. -/
def importStatement (g : Grammar) : Parse Node := do
  let start ← here
  keyword "import"
  let parts ← firstOf
    [ source,
      (do (keyword "type" <|> keyword "typeof"); source),
      required,
      (do (keyword "type" <|> keyword "typeof"); required) ]
  let options ← maybe (do keyword "with"; trivia; object g)
  semicolon false
  node (.construct "import_statement") start (parts ++ options.toList)
where
  source : Parse (List Node) :=
    (do let c ← importClause; let s ← fromClause; return c ++ [s]) <|>
    (do let s ← string; return [s])
  required : Parse (List Node) := do
    let n ← wordNode .identifier []
    symbol "="
    keyword "require"
    symbol "("
    let s ← string
    symbol ")"
    return [n, s]

/-- The form `import a = b.c` -/
def importAlias : Parse Node := do
  let start ← here
  keyword "import"
  let n ← wordNode .identifier []
  symbol "="
  let first ← wordNode .identifier []
  let dots ← many (do symbol "."; wordNode .propertyIdentifier [])
  semicolon false
  node (.construct "import_alias") start (n :: first :: dots)

/-- A declaration of any kind. -/
def declaration (g : Grammar) : Nat → Parse Node
  | 0 => failure
  | fuel + 1 => do
    if ← sees "@" then classDeclaration g
    else
      match ← wordAhead with
      | some "function" => functionDeclaration g
      | some "async" => functionDeclaration g
      | some "class" => classDeclaration g
      | some "abstract" => classDeclaration g
      | some "const" => enumDeclaration g <|> variableDeclaration g
      | some "var" => variableDeclaration g
      | some "let" => variableDeclaration g
      | some "enum" => enumDeclaration g
      | some "interface" => interfaceDeclaration g
      | some "type" => typeAlias g
      | some "module" => moduleDeclaration g
      | some "namespace" => moduleDeclaration g
      | some "import" => importAlias
      | some "declare" => do
        let start ← here
        keyword "declare"
        continues .statement
        let inner ← firstOf
          [ declaration g fuel,
            (do keyword "global"; let b ← block g; return b),
            (do keyword "module"
                symbol "."
                let _ ← word
                let t ← annotatedType g true
                semicolon false
                return t) ]
        node (.construct "ambient_declaration") start [inner]
      | _ => failure

/-- How deep `declare` may be nested. -/
def declarationDepth : Nat := 8

/-- An export statement. -/
def exportStatement (g : Grammar) : Parse Node := do
  let start ← here
  let decorators ← many (decorator g)
  keyword "export"
  let parts ← firstOf
    [ (do symbol "*"
          let n ← maybe (do keyword "as"; exportedName)
          let s ← fromClause
          semicolon false
          return n.toList ++ [s]),
      (do let _ ← maybe (keyword "type")
          let names ← specifiers
          let s ← maybe fromClause
          semicolon false
          return names ++ s.toList),
      (do keyword "default"
          let d ← declaration g declarationDepth <|> (do
            leading
            let e ← g.expression .statement
            semicolon true
            return e)
          return [d]),
      (do symbolNot "=" "=>"
          leading
          let e ← g.expression .statement
          semicolon true
          return [e]),
      (do keyword "as"
          keyword "namespace"
          let n ← wordNode .identifier []
          semicolon false
          return [n]),
      (do let d ← declaration g declarationDepth
          return [d]) ]
  node (.construct "export_statement") start (decorators ++ parts)

/-! ## Control flow -/

/-- A condition in parentheses. -/
def condition (g : Grammar) : Parse Node := do
  trivia
  parenthesized g

def ifStatement (g : Grammar) (start : Cursor) : Parse Node := do
  keyword "if"
  let c ← condition g
  let yes ← g.statement
  let no ← if ← seesWord "else" then (do
      keyword "else"
      let s ← g.statement
      return [s])
    else pure []
  node (.construct "if_statement") start (c :: yes :: no)

def whileStatement (g : Grammar) (start : Cursor) : Parse Node := do
  keyword "while"
  let c ← condition g
  let body ← g.statement
  node (.construct "while_statement") start [c, body]

def withStatement (g : Grammar) (start : Cursor) : Parse Node := do
  keyword "with"
  let c ← condition g
  let body ← g.statement
  node (.construct "with_statement") start [c, body]

def doStatement (g : Grammar) (start : Cursor) : Parse Node := do
  keyword "do"
  let body ← g.statement
  keyword "while"
  let c ← condition g
  let _ ← maybe (semicolon true)
  node (.construct "do_statement") start [body, c]

/-- The head of a loop over the elements of something.  What a variable starts with is an operand where an
`in` behind it belongs to the loop. -/
def forEachHead (g : Grammar) : Parse (List Node) := do
  symbol "("
  let left ← firstOf
    [ (do keyword "var"
          let b ← binding g
          let v ← maybe (initializer g .bracketed)
          ensure (← seesEach)
          return b :: v.toList),
      (do keyword "var"
          let b ← binding g
          symbol "="
          leading
          let v ← g.operand .bracketed
          return [b, v]),
      (do (keyword "const" <|> (do keyword "let"; ensure ((← wordAhead) != some "of")))
          let b ← binding g
          ensure (← seesEach)
          return [b]),
      (do let p ← g.pattern
          return [p]),
      (do let e ← attached g .bracketed
          ensure (isTarget e)
          return [e]) ]
  (keyword "in" <|> keyword "of")
  let right ← expressions g .bracketed
  symbol ")"
  return left ++ [right]
where
  seesEach : Parse Bool := return (← wordAhead).any fun w => w == "in" || w == "of"

/-- The head of a counting loop. -/
def forHead (g : Grammar) : Parse (List Node) := do
  symbol "("
  let init ← firstOf
    [ (do symbol ";"; return []),
      (do let v ← variableDeclaration g; return [v]),
      (do let e ← expressions g .bracketed; symbol ";"; return [e]) ]
  let test ← (do symbol ";"; return []) <|>
    (do let e ← expressions g .bracketed; symbol ";"; return [e])
  let step ← maybe (expressions g .bracketed)
  symbol ")"
  return init ++ test ++ step.toList

def forStatement (g : Grammar) (start : Cursor) : Parse Node := do
  keyword "for"
  let awaited ← maybe (keyword "await")
  let head ← forEachHead g <|> (if awaited.isSome then failure else forHead g)
  let body ← g.statement
  node (.construct "for_statement") start (head ++ [body])

def tryStatement (g : Grammar) (start : Cursor) : Parse Node := do
  keyword "try"
  trivia
  let body ← block g
  let handler ← if ← seesWord "catch" then (do
      keyword "catch"
      let p ← maybe (do
        symbol "("
        let b ← binding g
        let t ← maybe (annotatedType g false)
        symbol ")"
        return b :: t.toList)
      trivia
      let h ← block g
      return p.getD [] ++ [h])
    else pure []
  let last ← if ← seesWord "finally" then (do
      keyword "finally"
      trivia
      let f ← block g
      return [f])
    else pure []
  node (.construct "try_statement") start (body :: handler ++ last)

def switchStatement (g : Grammar) (start : Cursor) : Parse Node := do
  keyword "switch"
  let e ← condition g
  symbol "\x7b"
  let cases ← many case
  symbol "\x7d"
  node (.construct "switch_statement") start (e :: cases.flatten)
where
  label : Parse (List Node) :=
    (do keyword "case"
        let start ← get
        let e ← expressions g .bracketed
        if ← sees ":" then return [e]
        else
          set start
          let e ← expressions g .beforeColon
          return [e]) <|>
    (do keyword "default"; return [])
  case : Parse (List Node) := do
    let e ← label
    symbol ":"
    let body ← many (do
      ensure !((← wordAhead).any fun w => w == "case" || w == "default")
      g.statement)
    return e ++ body

/-- Read `break` and `continue`, with a label on the same line where given. -/
def jump (start : Cursor) (w : String) : Parse Node := do
  keyword w
  let label ← maybe (do
    ensure !(← semicolonSupplied false)
    wordNode (.construct "statement_identifier") [])
  semicolon false
  node (.construct (w ++ "_statement")) start label.toList

def returnStatement (g : Grammar) (start : Cursor) : Parse Node := do
  keyword "return"
  if ← semicolonSupplied false then node (.construct "return_statement") start []
  else if ← sees ";" then
    symbol ";"
    node (.construct "return_statement") start []
  else
    let e ← expressions g .statement
    semicolon true
    node (.construct "return_statement") start [e]

def throwStatement (g : Grammar) (start : Cursor) : Parse Node := do
  keyword "throw"
  let e ← expressions g .statement
  semicolon true
  node (.construct "throw_statement") start [e]

/-! ## Statements -/

/-- The form `label: statement` -/
def labelled (g : Grammar) (start : Cursor) : Parse Node := do
  let n ← wordNode (.construct "statement_identifier") (statementWords ++ operandWords)
  symbol ":"
  let s ← g.statement
  node (.construct "labeled_statement") start [n, s]

/-- Whether what follows a closing brace can only continue an expression. -/
def seesContinuation : Parse Bool := do
  let c ← upcoming
  match c.rest with
  | ch :: _ => return ".=,*%>&|^?".toList.contains ch || (← wordAhead).any binaryWords.contains
  | [] => return false

/-- What a brace at the start of a statement opens: a block, or an object or pattern if what follows
leaves no other reading. -/
def braced (g : Grammar) : Parse Node :=
  (do let b ← block g
      ensure !(← seesContinuation)
      return b) <|> expressionStatement g

/-- What a word at the start of a statement begins. -/
def wordStatement (g : Grammar) (start : Cursor) (w : String) : Parse Node :=
  match w with
  | "if" => ifStatement g start
  | "for" => forStatement g start
  | "while" => whileStatement g start
  | "do" => doStatement g start
  | "try" => tryStatement g start
  | "with" => withStatement g start
  | "break" => jump start w
  | "continue" => jump start w
  | "return" => returnStatement g start
  | "throw" => throwStatement g start
  | "debugger" => do keyword w; semicolon false; node (.construct "debugger_statement") start []
  | "switch" => switchStatement g start
  | "var" => variableDeclaration g
  | "const" => enumDeclaration g <|> variableDeclaration g
  | "abstract" => classDeclaration g
  | "interface" => interfaceDeclaration g
  | "enum" => enumDeclaration g
  | "function" => do if ← seesFunction then functionDeclaration g else expressionStatement g
  | "class" => do if ← seesClass then classDeclaration g else expressionStatement g
  | "async" => do
    if ← seesFunction then functionDeclaration g
    else labelled g start <|> expressionStatement g
  | "import" => firstOf [importStatement g, importAlias, expressionStatement g]
  | "export" => firstOf [exportStatement g, labelled g start, expressionStatement g]
  | _ =>
    if ["let", "type", "module", "namespace", "declare"].contains w then
      firstOf [declaration g declarationDepth, labelled g start, expressionStatement g]
    else labelled g start <|> expressionStatement g

/-- A statement. -/
def statement (g : Grammar) : Parse Node := do
  leading
  let start ← get
  match start.rest with
  | '{' :: _ => braced g
  | ';' :: _ => do exactly ";"; node (.construct "empty_statement") start []
  | '@' :: _ => firstOf [exportStatement g, classDeclaration g, expressionStatement g]
  | _ =>
    match ← wordAhead with
    | some w => wordStatement g start w
    | none => expressionStatement g

end RequestAtlas.Syntax.Parse
