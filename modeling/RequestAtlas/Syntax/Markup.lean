import RequestAtlas.Syntax.Members
/-!
# Markup elements

Elements in angle brackets as operands of expressions: opening and closing tags (which need not match),
attributes, text, character references and embedded expressions.
-/

namespace RequestAtlas.Syntax.Parse

/-- Past a character reference such as `&amp;`, seen behind the ampersand. -/
def pastReference? : List Char → Option (List Char)
  | '#' :: x :: r =>
    if x == 'x' || x == 'X' then finish isHexDigit 6 r else finish Char.isDigit 5 (x :: r)
  | cs => finish Char.isAlpha 30 cs
where
  finish (p : Char → Bool) (most : Nat) (cs : List Char) : Option (List Char) :=
    let run := cs.takeWhile p
    match cs.dropWhile p with
    | ';' :: r => if 0 < run.length && run.length ≤ most then some r else none
    | _ => none

/-- A name in a tag, which may hold hyphens. -/
def tagName : Parse Node := do
  let start ← here
  let n := wordLength start.rest
  ensure (n != 0)
  modify (·.skipN n)
  let _ ← many hyphenated
  node .identifier start []
where
  hyphenated : Parse Unit := fun c =>
    match c.rest with
    | '-' :: r => some ((), c.skipN (1 + (r.takeWhile fun ch => ch.isAlphanum || ch == '_' || ch == '$').length))
    | _ => none

/-- The name of an element: dotted, prefixed by a namespace, or plain. -/
def elementName (g : Grammar) : Parse (List Node) := do
  let start ← here
  let first ← tagName
  let spaced ← maybe (do symbol ":"; tagName)
  let dots ← many (do symbol "."; wordNode .propertyIdentifier [])
  let ts ← maybe (typeArguments g)
  if dots.isEmpty then return first :: spaced.toList ++ ts.getD []
  else
    let m ← node .member start (first :: dots)
    return m :: ts.getD []

/-- An expression in braces; it may be empty. -/
def embedded (g : Grammar) : Parse Node := do
  let start ← here
  exactly "\x7b"
  let e ← maybe (spread g <|> expressions g .bracketed)
  leading
  exactly "\x7d"
  node (.construct "jsx_expression") start e.toList

/-- The quoted value of an attribute, which has character references and no escapes. -/
def attributeString : Parse Node := do
  let start ← here
  match start.rest with
  | q :: cs =>
    ensure (q == '"' || q == '\'')
    match go (cs.length + 1) q cs with
    | some r => jumpTo r; node .string start []
    | none => failure
  | [] => failure
where
  go : Nat → Char → List Char → Option (List Char)
    | 0, _, _ => none
    | _, _, [] => none
    | n + 1, q, c :: cs =>
      if c == q then some cs
      else if c == '&' then
        match cs with
        | d :: _ => if d == '#' || d.isAlpha then (pastReference? cs).bind (go n q) else go n q cs
        | [] => none
      else go n q cs

/-- An attribute, or an expression in its place. -/
def elementAttribute (g : Grammar) : Parse Node :=
  embedded g <|> (do
    let start ← here
    let name ← tagName
    let spaced ← maybe (do symbol ":"; tagName)
    let value ← maybe (do
      symbol "="
      attributeString <|> embedded g <|> g.element)
    node (.construct "jsx_attribute") start (name :: spaced.toList ++ value.toList))

/-- What stands between two tags: text and references are passed over, the rest is kept. -/
def elementChild (g : Grammar) : Parse (List Node) := fun c =>
  let c' := c.skipWhile fun ch => !("<>\x7b\x7d&".toList.contains ch)
  match c'.rest with
  | '{' :: _ => (embedded g c').map fun (n, d) => ([n], d)
  | '<' :: '/' :: _ => if c'.offset == c.offset then none else some ([], c')
  | '<' :: _ => (g.element c').map fun (n, d) => ([n], d)
  | '&' :: r => (pastReference? r).map fun r' => ([], c'.skipN (c'.left - r'.length))
  | _ => none

/-- An element: self-closing, or with children and a closing tag. -/
def element (g : Grammar) : Parse Node := do
  let start ← here
  exactly "<"
  let opening ← maybe (do
    let name ← elementName g
    let attributes ← many (elementAttribute g)
    return name ++ attributes)
  if opening.isSome && (← sees "/>") then
    symbol "/>"
    node (.construct "jsx_self_closing_element") start (opening.getD [])
  else
    symbol ">"
    let children ← many (elementChild g)
    symbol "</"
    let closing ← maybe (elementName g)
    symbol ">"
    node (.construct "jsx_element") start
      (opening.getD [] ++ children.flatten ++ closing.getD [])

end RequestAtlas.Syntax.Parse
