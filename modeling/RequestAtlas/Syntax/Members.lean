import RequestAtlas.Syntax.Types
/-!
# Object literals, array literals and classes

Constructs that list members.  Object literals and argument lists allow empty places between commas;
in an array literal an empty place is a hole.
-/

namespace RequestAtlas.Syntax.Parse

/-- Signature and body of a method whose name has been read. -/
def methodRest (g : Grammar) (line : Bool) : Parse (List Node) := do
  let parts ← signature g line
  let body ← block g
  return parts ++ [body]

/-- The form `name: value` -/
def pair (g : Grammar) : Parse Node := do
  let start ← here
  let key ← propertyName g
  symbol ":"
  leading
  let value ← g.expression .bracketed
  node .pair start [key.withRole .key, value.withRole .value]

/-- A method of an object literal. -/
def objectMethod (g : Grammar) : Parse Node := do
  let start ← here
  let _ ← many (memberModifier false memberModifiers)
  let _ ← maybe (symbol "*")
  let name ← propertyName g
  let _ ← maybe (symbol "?")
  let rest ← methodRest g false
  node (.construct "method_definition") start (name :: rest)

/-- A name that stands for a property and its value. -/
def shorthand : Parse Node := do
  let n ← wordNode .shorthand []
  let c ← here
  match c.rest with
  | '}' :: _ => return n
  | ',' :: _ => return n
  | _ => failure

/-- An object literal. -/
def object (g : Grammar) : Parse Node := do
  let start ← here
  exactly "\x7b"
  let items ← slots (firstOf [spread g, shorthand, pair g, objectMethod g])
  symbol "\x7d"
  node .object start items

/-- An array literal. -/
def array (g : Grammar) : Parse Node := do
  let start ← here
  exactly "["
  let items ← slots (spread g <|> g.expression .bracketed)
  symbol "]"
  node .array start items

/-! ## Classes -/

/-- Words that may stand in front of the name of a class member. -/
def classModifiers : List String := memberModifiers ++ ["declare", "abstract", "accessor"]

/-- The end of a class member: a comma or a semicolon. -/
def memberEnd (afterExpression : Bool) : Parse Unit := symbol "," <|> semicolon afterExpression

/-- A method, a signature without a body, or a field. -/
def namedMember (g : Grammar) : Parse Node := do
  let start ← here
  let decorators ← many (decorator g)
  let _ ← many (memberModifier true classModifiers)
  let _ ← maybe (symbol "*")
  let name ← propertyName g
  let _ ← maybe (symbolNot "?" "." <|> symbolNot "!" "=")
  if (← sees "(") || (← sees "<") then
    let parts ← signature g true
    if ← sees "\x7b" then
      let body ← block g
      let m ← node (.construct "method_definition") start (decorators ++ [name] ++ parts ++ [body])
      let _ ← maybe (semicolon false)
      return m
    else
      (signatureEnd <|> symbol ",")
      node (.construct "method_signature") start (decorators ++ [name] ++ parts)
  else
    let type ← maybe (annotatedType g true)
    let value ← maybe (initializer g .statement)
    memberEnd value.isSome
    node (.construct "public_field_definition") start
      (decorators ++ [name] ++ type.toList ++ value.toList)

/-- One member of a class body. -/
def classMember (g : Grammar) : Parse Node := do
  leading
  let start ← get
  firstOf
    [ tokenNode ";",
      (do keyword "static"
          let body ← block g
          node (.construct "class_static_block") start [body]),
      (do let s ← indexSignature g true
          memberEnd false
          return s),
      namedMember g ]

/-- The members of a class in braces. -/
def classBody (g : Grammar) : Parse Node := do
  let start ← here
  exactly "\x7b"
  let members ← many (classMember g)
  leading
  exactly "\x7d"
  node (.construct "class_body") start members

/-- What a class extends and implements. -/
def classHeritage (g : Grammar) : Parse (List Node) := do
  let parents ← maybe (do
    keyword "extends"
    sepBy1 parent (symbol ","))
  let interfaces ← maybe (do
    keyword "implements"
    sepBy1 (g.type false) (symbol ","))
  return (parents.getD []).flatten ++ interfaces.getD []
where
  /-- An operand with type arguments; only if that does not end where it should, any expression. -/
  parent : Parse (List Node) :=
    (do leading
        let e ← g.operand .bracketed
        let ts ← maybe (typeArguments g)
        ensure ((← sees "\x7b") || (← sees ",") || (← seesWord "implements"))
        return e :: ts.getD []) <|>
    (do leading
        let e ← g.expression .bracketed
        return [e])

/-- A class from its `class` word on. -/
def classTail (g : Grammar) (start : Cursor) (decorators : List Node) (named : Bool) : Parse Node := do
  keyword "class"
  let name ← maybe (wordNode (.construct "type_identifier") ["extends", "implements"])
  ensure (!named || name.isSome)
  let ts ← maybe (typeParameters g)
  let heritage ← classHeritage g
  let body ← classBody g
  node (.construct "class") start (decorators ++ name.toList ++ ts.getD [] ++ heritage ++ [body])

/-- A class with its decorators. -/
def classConstruct (g : Grammar) (named : Bool) : Parse Node := do
  let start ← here
  let decorators ← many (decorator g)
  classTail g start decorators named

end RequestAtlas.Syntax.Parse
