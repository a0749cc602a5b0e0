import RequestAtlas.Syntax.Cursor
/-!
# Blanks, comments and automatic semicolons

What may stand between two tokens, and where a missing semicolon is supplied.  A semicolon is supplied
at the end of the source, before a closing brace, and behind a line feed unless the next token continues
the construct that came before.  Only a line feed counts: a carriage return, or a line break inside a
block comment, does not end a line.
-/

namespace RequestAtlas.Syntax

/-- Space separators of the Unicode category `Zs`. -/
def isSpaceSeparator (c : Char) : Bool :=
  c == ' ' || c == '\u00a0' || c == '\u1680' || ('\u2000' ≤ c && c ≤ '\u200a') || c == '\u202f' ||
    c == '\u205f' || c == '\u3000'

/-- Characters that separate tokens and mean nothing else. -/
def isBlankBetweenTokens (c : Char) : Bool :=
  ('\t' ≤ c && c ≤ '\r') || isSpaceSeparator c || c == '\ufeff' || c == '\u2028' || c == '\u2029' ||
    c == '\u2060' || c == '\u200b'

/-- Blanks that a search for a line feed may cross.  No-break spaces are not among them. -/
def isBreakableBlank (c : Char) : Bool :=
  ('\t' ≤ c && c ≤ '\r') || c == ' ' || c == '\u1680' || ('\u2000' ≤ c && c ≤ '\u2006') ||
    ('\u2008' ≤ c && c ≤ '\u200a') || c == '\u2028' || c == '\u2029' || c == '\u205f' || c == '\u3000'

/-- Characters that end a line comment. -/
def isLineEnd (c : Char) : Bool := c == '\n' || c == '\r' || c == '\u2028' || c == '\u2029'

/-! ## Comments -/

/-- Past the end of a block comment whose opening has been read. -/
def Cursor.pastBlockComment (c : Cursor) : Option Cursor := go c.rest c.offset c.left
where
  go : List Char → Nat → Nat → Option Cursor
    | [], _, _ => none
    | [_], _, _ => none
    | a :: b :: cs, o, n =>
      if a == '*' && b == '/' then some ⟨cs, o + 2, n - 2⟩
      else go (b :: cs) (o + a.utf8Size) (n - 1)

/-- Past the comment that starts here, if one does. -/
def Cursor.pastComment? (c : Cursor) : Option Cursor :=
  match c.rest with
  | '/' :: '/' :: _ => some ((c.skipN 2).skipWhile (!isLineEnd ·))
  | '/' :: '*' :: _ => (c.skipN 2).pastBlockComment
  | _ => none

/-- Past the one-line markup comment that starts here, if one does. -/
def Cursor.pastMarkupComment? (c : Cursor) : Option Cursor :=
  if "<!--".toList.isPrefixOf c.rest || "-->".toList.isPrefixOf c.rest then
    some (c.skipWhile (!isLineEnd ·))
  else none

/-- Past all blanks and comments, with the comments as nodes.  Where an operand may start, markup
comments are comments as well, but of a kind of their own. -/
def Cursor.pastTrivia (markup : Bool) (c : Cursor) : List Node × Cursor :=
  go (c.left + 1) [] c
where
  go : Nat → List Node → Cursor → List Node × Cursor
    | 0, acc, c => (acc.reverse, c)
    | n + 1, acc, c =>
      let c := c.skipWhile isBlankBetweenTokens
      match c.pastComment? with
      | some c' => go n (.mk .comment none c.offset (c.charsTo c') [] :: acc) c'
      | none =>
        match if markup then c.pastMarkupComment? else none with
        | some c' =>
          go n (.mk (.construct "html_comment") none c.offset (c.charsTo c') [] :: acc) c'
        | none => (acc.reverse, c)

/-! ## Automatic semicolons -/

/-- Where a line breaks, whether the text after the break starts something new.  `afterExpression` says
that what came before is a complete expression, `beforeBody` that a body in braces may follow. -/
def startsAfresh (afterExpression beforeBody : Bool) : List Char → Bool
  | [] => true
  | '+' :: r => r.head? == some '+'
  | '-' :: r => r.head? == some '-'
  | '!' :: r => r.head? != some '='
  | 'i' :: 'n' :: r =>
    let ended (cs : List Char) : Bool := !(cs.head?.any fun c => c.isAlpha || c.toNat > 127)
    if ended r then false
    else if "stanceof".toList.isPrefixOf r then !ended (r.drop 8) else true
  | c :: _ =>
    if "`,.;*%><=?^|&/:".toList.contains c then false
    else if c == '{' then !beforeBody
    else if c == '(' || c == '[' then !afterExpression
    else true

/-- Past blanks and comments on the way to the first token of the next line. -/
def toNextToken (cs : List Char) : List Char :=
  go (cs.length + 1) cs
where
  go : Nat → List Char → List Char
    | 0, cs => cs
    | n + 1, cs =>
      match cs.dropWhile isBreakableBlank with
      | '/' :: '/' :: r => go n (r.dropWhile fun c => c != '\n' && c != '\u2028' && c != '\u2029')
      | '/' :: '*' :: r =>
        match Cursor.pastBlockComment ⟨r, 0, 0⟩ with
        | some c => go n c.rest
        | none => []
      | cs => cs

/-- Whether a semicolon is supplied right here, seen from the end of the last token. -/
def supplied (afterExpression beforeBody : Bool) : List Char → Bool
  | [] => true
  | '}' :: r =>
    if (r.dropWhile isBreakableBlank).head? == some ':' then afterExpression else true
  | '\n' :: r => startsAfresh afterExpression beforeBody (toNextToken r)
  | c :: r => isBreakableBlank c && supplied afterExpression beforeBody r

/-- Whether a semicolon is supplied here or behind one of the comments that follow. -/
def Cursor.semicolonSupplied (afterExpression beforeBody : Bool) (c : Cursor) : Bool :=
  go (c.left + 1) c
where
  go : Nat → Cursor → Bool
    | 0, _ => false
    | n + 1, c =>
      supplied afterExpression beforeBody c.rest ||
        match (c.skipWhile isBlankBetweenTokens).pastComment? with
        | some c' => go n c'
        | none => false

namespace Parse

/-- Skip blanks and comments. -/
def trivia : Parse Unit := fun c => some ((), (c.pastTrivia false).2)

/-- Skip blanks and comments where an operand or a statement may start. -/
def leading : Parse Unit := fun c => some ((), (c.pastTrivia true).2)

/-- Skip blanks and comments, keeping the comments as nodes. -/
def comments (markup : Bool) : Parse (List Node) := fun c => some (c.pastTrivia markup)

/-- Skip to the next token and return where it starts. -/
def here : Parse Cursor := do trivia; get

/-- Where the next token starts, without going there. -/
def upcoming : Parse Cursor := fun c => some ((c.pastTrivia false).2, c)

/-- Whether a semicolon is supplied here. -/
def semicolonSupplied (afterExpression : Bool) : Parse Bool := fun c =>
  some (c.semicolonSupplied afterExpression false, c)

/-- The next characters, behind any blanks and comments, are exactly `s`. -/
def symbol (s : String) : Parse Unit := do trivia; exactly s

/-- Whether the next token starts with `s`. -/
def sees (s : String) : Parse Bool := peeks (symbol s)

/-- Like `symbol`, but not where a longer token starts: the next character must not be in `stoppers`. -/
def symbolNot (s : String) (stoppers : String) : Parse Unit := do
  symbol s
  match ← ahead with
  | c :: _ => ensure !(stoppers.toList.contains c)
  | [] => pure ()

/-- The end of a statement: a semicolon, written or supplied. -/
def semicolon (afterExpression : Bool) : Parse Unit := do
  if ← semicolonSupplied afterExpression then pure () else symbol ";"

/-- The end of a signature without a body: no semicolon is supplied before a brace. -/
def signatureEnd : Parse Unit := fun c =>
  if c.semicolonSupplied false true then some ((), c) else symbol ";" c

/-- The next token as a node. -/
def tokenNode (s : String) : Parse Node := do
  let start ← here
  exactly s
  node (.token s) start []

end Parse

end RequestAtlas.Syntax
