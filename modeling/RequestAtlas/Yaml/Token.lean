import RequestAtlas.Yaml.Scalar
/-!
# Tokens of a document

A document is a sequence of tokens: scalars, marks, and the starts and ends of collections.  Indentation
decides where collections written as blocks start and end.  A scalar turns out to be a key only when the colon
behind it is met, so places where a key may have started are remembered, and the mark for it is put in there.
-/

namespace RequestAtlas.Yaml

/-- A remark about the document as a whole. -/
inductive Directive where
  | version (major : Nat)
  | tag (handle uri : String)
  | other
deriving DecidableEq, Repr

inductive Token where
  | streamEnd
  | directive (d : Directive)
  | documentStart
  | documentEnd
  | blockSequenceStart
  | blockMappingStart
  | blockEnd
  | flowSequenceStart
  | flowSequenceEnd
  | flowMappingStart
  | flowMappingEnd
  | blockEntry
  | flowEntry
  | key
  | value
  | reference (name : String)
  | anchor (name : String)
  | tag (handle : Option String) (suffix : String)
  | scalar (text : String) (plain : Bool)
deriving DecidableEq, Repr

/-! ## Names and tags -/

/-- Read a name of at least one character. -/
def name? (c : Cursor) : Except Error (String × Cursor) :=
  let cs := c.rest.takeWhile isWordChar
  if cs.isEmpty then .error .malformed else .ok (String.ofList cs, c.advance cs.length)

/-- What may follow the name of an anchor. -/
def endsAnchor (c : Char) : Bool :=
  isBlankOrEnd c || c == '?' || c == ':' || c == ',' || c == ']' || c == '}' || c == '%' || c == '@' ||
    c == '\x60'

/-- Read the name of an anchor from its sign on. -/
def anchorName (c : Cursor) : Except Error (String × Cursor) := do
  let (name, c) ← name? c.next
  if endsAnchor c.peek then return (name, c) else .error .malformed

/-- A character of the address of a tag. -/
def isUriChar (c : Char) : Bool := isWordChar c || "-;/?:@&=+$,_.!~*'()[]%".toList.contains c

/-- Whether every percent sign is followed by two hexadecimal digits. -/
def escapesOk : List Char → Bool
  | '%' :: a :: b :: cs =>
    (Literal.hexValue? a).isSome && (Literal.hexValue? b).isSome && escapesOk cs
  | '%' :: _ => false
  | _ :: cs => escapesOk cs
  | [] => true

/-- Read the address of a tag. -/
def tagUri (c : Cursor) : Except Error (String × Cursor) :=
  let cs := c.rest.takeWhile isUriChar
  if cs.isEmpty || !escapesOk cs then .error .malformed else .ok (String.ofList cs, c.advance cs.length)

/-- Read the handle of a tag: a name between exclamation marks, or one mark alone. -/
def tagHandle (c : Cursor) : Except Error (String × Cursor) :=
  if c.peek != '!' then .error .malformed
  else if c.peek 1 == ' ' then .ok ("!", c.next)
  else
    let cs := (c.rest.drop 1).takeWhile isWordChar
    if c.peek (cs.length + 1) == '!' then
      .ok (String.ofList ('!' :: cs ++ ['!']), c.advance (cs.length + 2))
    else .error .malformed

/-- Read a tag from its exclamation mark on. -/
def tagToken (c : Cursor) : Except Error (Token × Cursor) := do
  let next := c.peek 1
  let (token, c) ←
    if next == '<' then do
      let (uri, c) ← tagUri (c.advance 2)
      if c.peek == '>' then pure (Token.tag none uri, c.next) else .error .malformed
    else if isBlankOrEnd next then pure (Token.tag none "!", c.next)
    else do
      let word := (c.rest.drop 1).takeWhile fun ch => !isSpaceOrEnd ch
      let (handle, c) ← if word.contains '!' then tagHandle c else pure ("!", c.next)
      let (suffix, c) ← tagUri c
      pure (Token.tag (some handle) suffix, c)
  if isSpaceOrEnd c.peek then return (token, c) else .error .malformed

/-! ## Directives -/

/-- A number of a version. -/
def versionNumber (c : Cursor) : Except Error (Nat × Cursor) :=
  let ds := c.rest.takeWhile Char.isDigit
  if ds.isEmpty then .error .malformed
  else .ok (ds.foldl (fun n d => 10 * n + (d.toNat - 48)) 0, c.advance ds.length)

/-- The rest of a line that may only hold a comment. -/
def emptyLine (c : Cursor) : Except Error Cursor :=
  let c := c.skipSpaces.skipComment
  if isBreakOrEnd c.peek then .ok c.lineBreak.2 else .error .malformed

/-- Read a directive from its percent sign on. -/
def directive (c : Cursor) : Except Error (Directive × Cursor) := do
  let (name, c) ← name? c.next
  if !isSpaceOrEnd c.peek then .error .malformed
  let (d, c) ←
    if name == "YAML" then do
      let (major, c) ← versionNumber c.skipSpaces
      if c.peek != '.' then .error .malformed
      let (_, c) ← versionNumber c.next
      if !isSpaceOrEnd c.peek then .error .malformed
      pure (Directive.version major, c)
    else if name == "TAG" then do
      let (handle, c) ← tagHandle c.skipSpaces
      if c.peek != ' ' then .error .malformed
      let (uri, c) ← tagUri c.skipSpaces
      if !isSpaceOrEnd c.peek then .error .malformed
      pure (Directive.tag handle uri, c)
    else pure (Directive.other, c.skipWhile fun ch => !isBreak ch)
  return (d, ← emptyLine c)

/-! ## The state of reading -/

/-- A place where a key may have started. -/
structure PossibleKey where
  flow : Nat
  /-- How many tokens were there before it. -/
  position : Nat
  /-- Whether a key must start here. -/
  required : Bool
  index : Nat
  line : Nat
  column : Nat
deriving Repr

structure Scan where
  cursor : Cursor
  tokens : List Token := []
  /-- How many brackets are open. -/
  flow : Nat := 0
  /-- The indentation of the innermost block; none is minus one. -/
  indent : Int := -1
  indents : List Int := []
  /-- Whether a key may start here. -/
  keyAllowed : Bool := true
  keys : List PossibleKey := []
deriving Repr

/-- A key is no longer than this. -/
def keyLimit : Nat := 1024

namespace Scan

/-- Add a token. -/
def push (s : Scan) (t : Token) : Scan := { s with tokens := s.tokens ++ [t] }

def inFlow (s : Scan) : Bool := s.flow != 0

/-- The column as an indentation. -/
def column (s : Scan) : Int := s.cursor.column

/-- Forget places whose line is over; it is a fault if a key had to start there. -/
def dropStale (s : Scan) : Except Error Scan :=
  let stale (k : PossibleKey) : Bool := k.line != s.cursor.line || keyLimit < s.cursor.index - k.index
  if s.keys.any fun k => stale k && k.required then .error .malformed
  else .ok { s with keys := s.keys.filter (!stale ·) }

/-- Forget the place inside the current brackets. -/
def dropKey (s : Scan) : Except Error Scan :=
  if s.keys.any fun k => k.flow == s.flow && k.required then .error .malformed
  else .ok { s with keys := s.keys.filter (·.flow != s.flow) }

/-- Remember that a key may start here. -/
def saveKey (s : Scan) : Except Error Scan :=
  if s.keyAllowed then do
    let s ← s.dropKey
    let k : PossibleKey :=
      { flow := s.flow, position := s.tokens.length, required := !s.inFlow && s.indent == s.column,
        index := s.cursor.index, line := s.cursor.line, column := s.cursor.column }
    return { s with keys := k :: s.keys }
  else .ok s

/-- End the blocks that are indented further than a column. -/
def unwindFrom (column : Int) : List Int → Scan → Scan
  | [], s => s
  | i :: is, s =>
    if column < s.indent then unwindFrom column is { s.push .blockEnd with indent := i, indents := is }
    else s

/-- End the blocks that are indented further than a column; inside brackets indentation does not matter. -/
def unwind (column : Int) (s : Scan) : Scan :=
  if s.inFlow then s else unwindFrom column s.indents s

/-- Go over to a larger indentation. -/
def indentTo? (s : Scan) (column : Int) : Option Scan :=
  if s.indent < column then some { s with indent := column, indents := s.indent :: s.indents } else none

/-- Start a block at the current column unless one is open there. -/
def startBlock (s : Scan) (t : Token) : Scan :=
  match s.indentTo? s.column with
  | some s => s.push t
  | none => s

/-- Skip blanks, comments and line breaks.  Behind a line break outside brackets a key may start. -/
def skipToToken : Nat → Scan → Scan
  | 0, s => s
  | fuel + 1, s =>
    let c := s.cursor.skipSpaces.skipComment
    if isBreak c.peek then
      skipToToken fuel
        { s with cursor := c.lineBreak.2, keyAllowed := s.keyAllowed || !s.inFlow }
    else { s with cursor := c }

/-- Read a token of one character. -/
def mark (s : Scan) (t : Token) : Scan := { s.push t with cursor := s.cursor.next }

/-- Add a token that ended at a cursor. -/
def pushTo (s : Scan) (t : Token) (c : Cursor) : Scan := { s.push t with cursor := c }

/-- Start the brackets of a collection. -/
def openFlow (s : Scan) (t : Token) : Except Error Scan := do
  let s ← s.saveKey
  return { s with flow := s.flow + 1, keyAllowed := true }.mark t

/-- End the brackets of a collection. -/
def closeFlow (s : Scan) (t : Token) : Except Error Scan := do
  let s ← s.dropKey
  return { s with flow := s.flow - 1, keyAllowed := false }.mark t

/-- The start or end of a document. -/
def separator (s : Scan) (t : Token) : Except Error Scan := do
  let s ← (s.unwind (-1)).dropKey
  return { s with keyAllowed := false }.pushTo t (s.cursor.advance 3)

/-- A dash that starts an item. -/
def blockEntry (s : Scan) : Except Error Scan := do
  let s ←
    if s.inFlow then pure s
    else if s.keyAllowed then pure (s.startBlock .blockSequenceStart)
    else .error .malformed
  let s ← { s with keyAllowed := true }.dropKey
  return s.mark .blockEntry

/-- A question mark that starts a key. -/
def explicitKey (s : Scan) : Except Error Scan := do
  let s ←
    if s.inFlow then pure s
    else if s.keyAllowed then pure (s.startBlock .blockMappingStart)
    else .error .malformed
  let s ← { s with keyAllowed := !s.inFlow }.dropKey
  return s.mark .key

/-- Put tokens in at a position. -/
def insertAt (s : Scan) (position : Nat) (ts : List Token) : Scan :=
  { s with tokens := s.tokens.take position ++ ts ++ s.tokens.drop position }

/-- A colon: what stands where a key may have started is a key. -/
def valueMark (s : Scan) : Except Error Scan :=
  match s.keys.find? (·.flow == s.flow) with
  | some k =>
    let s := { s with keys := s.keys.filter (·.flow != s.flow), keyAllowed := false }
    let s :=
      if s.inFlow then s.insertAt k.position [.key]
      else
        match s.indentTo? k.column with
        | some s => s.insertAt k.position [.blockMappingStart, .key]
        | none => s.insertAt k.position [.key]
    .ok (s.mark .value)
  | none => do
    let s ←
      if s.inFlow then pure s
      else if s.keyAllowed then pure (s.startBlock .blockMappingStart)
      else .error .malformed
    let s ← { s with keyAllowed := !s.inFlow }.dropKey
    return s.mark .value

/-- Add a token that may be a key. -/
def content (s : Scan) (read : Cursor → Except Error (Token × Cursor)) : Except Error Scan := do
  let s ← s.saveKey
  let (t, c) ← read s.cursor
  return { s with keyAllowed := false }.pushTo t c

/-- A plain scalar. -/
def plain (s : Scan) : Except Error Scan := do
  let s ← s.saveKey
  let (text, c, crossed) := plainScalar s.inFlow (s.indent + 1) s.cursor
  return { s with keyAllowed := crossed }.pushTo (.scalar text true) c

/-- A block of text. -/
def block (s : Scan) (folded : Bool) : Except Error Scan := do
  let s ← { s with keyAllowed := true }.dropKey
  let (text, c) ← blockScalar folded s.indent s.cursor
  return s.pushTo (.scalar text false) c

/-- Characters that start no plain scalar. -/
def isIndicator (c : Char) : Bool := "-?:,[]\x7b\x7d#&*!|>'\"%@\x60".toList.contains c

/-- Whether a plain scalar starts here. -/
def startsPlain (s : Scan) : Bool :=
  let ch := s.cursor.peek
  let followed := !isBlankOrEnd (s.cursor.peek 1)
  (!isBlankOrEnd ch && !isIndicator ch) ||
    (followed && (ch == '-' || (!s.inFlow && (ch == '?' || ch == ':'))))

/-- Whether a sign is followed by a blank, or stands inside brackets. -/
def isSign (s : Scan) : Bool := s.inFlow || isBlankOrEnd (s.cursor.peek 1)

variable [Surrogates]

/-- Read the next token; `true` at the end of the document. -/
def step (s : Scan) : Except Error (Scan × Bool) := do
  let s ← (skipToToken (s.cursor.rest.length + 1) s).dropStale
  let s := s.unwind s.column
  let c := s.cursor
  let ch := c.peek
  let go (r : Except Error Scan) : Except Error (Scan × Bool) := r.map (·, false)
  if c.atEnd then do
    let s ← (s.unwind (-1)).dropKey
    return (s.push .streamEnd, true)
  else if ch == '%' && c.column == 0 then go do
    let s ← (s.unwind (-1)).dropKey
    let (d, c) ← directive s.cursor
    return { s with keyAllowed := false }.pushTo (.directive d) c
  else if c.column == 0 && c.startsMark '-' then go (s.separator .documentStart)
  else if c.column == 0 && c.startsMark '.' then go (s.separator .documentEnd)
  else if ch == '[' then go (s.openFlow .flowSequenceStart)
  else if ch == '{' then go (s.openFlow .flowMappingStart)
  else if ch == ']' then go (s.closeFlow .flowSequenceEnd)
  else if ch == '}' then go (s.closeFlow .flowMappingEnd)
  else if ch == ',' then go do
    let s ← { s with keyAllowed := true }.dropKey
    return s.mark .flowEntry
  else if ch == '-' && isBlankOrEnd (c.peek 1) then go s.blockEntry
  else if ch == '?' && s.isSign then go s.explicitKey
  else if ch == ':' && s.isSign then go s.valueMark
  else if ch == '*' then go (s.content fun c => do
    let (n, c) ← anchorName c
    return (.reference n, c))
  else if ch == '&' then go (s.content fun c => do
    let (n, c) ← anchorName c
    return (.anchor n, c))
  else if ch == '!' then go (s.content tagToken)
  else if ch == '|' && !s.inFlow then go (s.block false)
  else if ch == '>' && !s.inFlow then go (s.block true)
  else if ch == '\'' then go (s.content fun c => do
    let (t, c) ← quotedScalar false c
    return (.scalar t false, c))
  else if ch == '"' then go (s.content fun c => do
    let (t, c) ← quotedScalar true c
    return (.scalar t false, c))
  else if s.startsPlain then go s.plain
  else .error .malformed

/-- Read tokens to the end.  Every step but the last reads a character. -/
def steps : Nat → Scan → Except Error Scan
  | 0, s => .ok s
  | fuel + 1, s => do
    let (s, done) ← s.step
    if done then return s else steps fuel s

end Scan

/-- Characters that a document may contain. -/
def isPrintable (c : Char) : Bool :=
  let n := c.toNat
  n == 9 || n == 10 || n == 13 || (0x20 ≤ n && n ≤ 0x7e) || n == 0x85 || (0xa0 ≤ n && n ≤ 0xfffd) ||
    0x10000 ≤ n

variable [Surrogates]

/-- The tokens of a document.  One byte order mark at the start is no part of it. -/
def tokens (text : List Char) : Except Error (List Token) :=
  if text.all isPrintable then do
    let c : Cursor := { rest := text }
    let c := if c.peek == '\ufeff' then c.next else c
    let s ← Scan.steps (text.length + 2) { cursor := c }
    return s.tokens
  else .error .malformed

end RequestAtlas.Yaml
