import RequestAtlas.Literal.Escape
import RequestAtlas.Yaml.Cursor
import RequestAtlas.Yaml.Error
/-!
# The texts of scalars

A scalar is written plainly, in single or double quotes, or as an indented block.  A plain or quoted scalar
may go over several lines, which are folded: a single line break becomes a space, further ones stay.
-/

namespace RequestAtlas.Yaml

open Cursor

/-! ## Plain scalars -/

/-- Marks that structure lists in brackets. -/
def isFlowMark (c : Char) : Bool := c == ',' || c == '[' || c == ']' || c == '{' || c == '}'

/-- The longest run of characters of a plain scalar, without blanks. -/
def plainRun (flow : Bool) : List Char → List Char
  | [] => []
  | c :: cs =>
    let next := cs.head?.getD endMark
    if isBlankOrEnd c then []
    else if c == ':' && (isBlankOrEnd next || (flow && isFlowMark next)) then []
    else if flow && (isFlowMark c || c == '?') then []
    else c :: plainRun flow cs

/-- Blanks and line breaks inside a plain scalar. -/
structure PlainGap where
  /-- What they mean; nothing where the scalar ends at once. -/
  text : List Char
  cursor : Cursor
  /-- Whether a line was ended. -/
  crossed : Bool

/-- Further line breaks and the spaces between them; `none` before a separator of documents. -/
def plainBreaks : Nat → Cursor → List Char → Option (List Char) × Cursor
  | 0, c, breaks => (some breaks, c)
  | fuel + 1, c, breaks =>
    if c.peek == ' ' then plainBreaks fuel c.next breaks
    else if isBreak c.peek then
      let (b, c) := c.lineBreak
      if c.atSeparator then (none, c) else plainBreaks fuel c (breaks ++ b)
    else (some breaks, c)

/-- Lines that end, folded. -/
def foldBreaks (first breaks : List Char) : List Char :=
  if first != ['\n'] then first ++ breaks
  else if breaks.isEmpty then [' ']
  else breaks

/-- Read the gap behind a run of a plain scalar. -/
def plainGap (c : Cursor) : PlainGap :=
  let spaces := c.rest.takeWhile (· == ' ')
  let c := c.advance spaces.length
  if isBreak c.peek then
    let (first, c) := c.lineBreak
    if c.atSeparator then ⟨[], c, true⟩
    else
      match plainBreaks c.rest.length c [] with
      | (some breaks, c) => ⟨foldBreaks first breaks, c, true⟩
      | (none, c) => ⟨[], c, true⟩
  else ⟨spaces, c, false⟩

/-- A plain scalar; the flag tells whether it was followed by the end of a line. -/
def plainFrom (flow : Bool) (indent : Int) : Nat → Cursor → List Char → List Char → Bool →
    List Char × Cursor × Bool
  | 0, c, text, _, crossed => (text, c, crossed)
  | fuel + 1, c, text, gap, crossed =>
    let run := if c.peek == '#' then [] else plainRun flow c.rest
    if run.isEmpty then (text, c, crossed)
    else
      let g := plainGap (c.advance run.length)
      let text := text ++ gap ++ run
      if g.text.isEmpty || g.cursor.peek == '#' || (!flow && g.cursor.column < indent) then
        (text, g.cursor, g.crossed)
      else plainFrom flow indent fuel g.cursor text g.text g.crossed

/-- Read a plain scalar. -/
def plainScalar (flow : Bool) (indent : Int) (c : Cursor) : String × Cursor × Bool :=
  let (text, c, crossed) := plainFrom flow indent (c.rest.length + 1) c [] [] false
  (String.ofList text, c, crossed)

/-! ## Quoted scalars -/

/-- What a character behind a backslash stands for. -/
def escapeChar? : Char → Option Char
  | '0' => some '\x00'
  | 'a' => some '\x07'
  | 'b' => some '\x08'
  | 't' => some '\t'
  | '\t' => some '\t'
  | 'n' => some '\n'
  | 'v' => some '\x0b'
  | 'f' => some '\x0c'
  | 'r' => some '\r'
  | 'e' => some '\x1b'
  | ' ' => some ' '
  | '"' => some '"'
  | '\\' => some '\\'
  | '/' => some '/'
  | 'N' => some '\x85'
  | '_' => some '\xa0'
  | 'L' => some '\u2028'
  | 'P' => some '\u2029'
  | _ => none

/-- The number of hexadecimal digits behind an escape. -/
def escapeLength? : Char → Option Nat
  | 'x' => some 2
  | 'u' => some 4
  | 'U' => some 8
  | _ => none

/-- Line breaks inside a quoted scalar, with the blanks around them. -/
def quotedBreaks : Nat → Cursor → List Char → Except Error (List Char × Cursor)
  | 0, c, breaks => .ok (breaks, c)
  | fuel + 1, c, breaks =>
    if c.atSeparator then .error .malformed
    else
      let c := c.skipWhile fun ch => ch == ' ' || ch == '\t'
      if isBreak c.peek then
        let (b, c) := c.lineBreak
        quotedBreaks fuel c (breaks ++ b)
      else .ok (breaks, c)

variable [Surrogates]

/-- An escape behind its backslash.  One for a surrogate is kept. -/
def quotedEscape (c : Cursor) : Except Error (List Char × Cursor) :=
  let ch := c.peek
  match escapeChar? ch, escapeLength? ch with
  | some e, _ => .ok ([e], c.next)
  | none, some n =>
    match Literal.hexFixed? n (c.rest.drop 1) 0 with
    | some (code, _) =>
      if 0x10ffff < code then .error (.invalid .codePoint)
      else
        let char := if Nat.isValidChar code then Char.ofNat code else Surrogates.stand code
        .ok ([char], c.advance (n + 1))
    | none => .error .malformed
  | none, none =>
    if isBreak ch then
      let c := c.lineBreak.2
      quotedBreaks (c.rest.length + 1) c []
    else .error .malformed

/-- Characters of a quoted scalar up to a blank, a line break, the end or the closing quote. -/
def quotedRun (double : Bool) : Nat → Cursor → List Char → Except Error (List Char × Cursor)
  | 0, c, text => .ok (text, c)
  | fuel + 1, c, text =>
    let ch := c.peek
    if isBlankOrEnd ch then .ok (text, c)
    else if double then
      if ch == '"' then .ok (text, c)
      else if ch == '\\' then do
        let (cs, c) ← quotedEscape c.next
        quotedRun double fuel c (text ++ cs)
      else quotedRun double fuel c.next (text ++ [ch])
    else if ch == '\'' then
      if c.peek 1 == '\'' then quotedRun double fuel (c.advance 2) (text ++ [ch]) else .ok (text, c)
    else quotedRun double fuel c.next (text ++ [ch])

/-- Blanks and line breaks inside a quoted scalar. -/
def quotedGap (c : Cursor) : Except Error (List Char × Cursor) :=
  let spaces := c.rest.takeWhile fun ch => ch == ' ' || ch == '\t'
  let c := c.advance spaces.length
  if c.atEnd then .error .malformed
  else if isBreak c.peek then do
    let (first, c) := c.lineBreak
    let (breaks, c) ← quotedBreaks (c.rest.length + 1) c []
    return (foldBreaks first breaks, c)
  else .ok (spaces, c)

/-- The rest of a quoted scalar, up to its closing quote. -/
def quotedFrom (double : Bool) : Nat → Cursor → List Char → Except Error (List Char × Cursor)
  | 0, _, _ => .error .malformed
  | fuel + 1, c, text => do
    let (run, c) ← quotedRun double (c.rest.length + 1) c []
    if c.peek == (if double then '"' else '\'') then return (text ++ run, c.next)
    else
      let (gap, c) ← quotedGap c
      quotedFrom double fuel c (text ++ run ++ gap)

/-- Read a quoted scalar from its opening quote on. -/
def quotedScalar (double : Bool) (c : Cursor) : Except Error (String × Cursor) := do
  let (text, c) ← quotedFrom double (c.rest.length + 1) c.next []
  return (String.ofList text, c)

/-! ## Blocks -/

/-- What becomes of the line breaks at the end of a block. -/
inductive Chomping where
  | clip
  | strip
  | keep
deriving DecidableEq, Repr

/-- The sign for the end of a block. -/
def chomping? : Char → Option Chomping
  | '+' => some .keep
  | '-' => some .strip
  | _ => none

/-- The head of a block: how it ends and how far it is indented. -/
def blockHead (c : Cursor) : Except Error (Chomping × Option Nat × Cursor) := do
  let digit (c : Cursor) : Except Error (Option Nat × Cursor) :=
    if c.peek.isDigit then
      if c.peek == '0' then .error .malformed else .ok (some (c.peek.toNat - 48), c.next)
    else .ok (none, c)
  let (chomp, increment, c) ← match chomping? c.peek with
    | some k => do
      let (n, c) ← digit c.next
      pure (k, n, c)
    | none => do
      let (n, c) ← digit c
      match n, chomping? c.peek with
      | some n, some k => pure (k, some n, c.next)
      | n, _ => pure (Chomping.clip, n, c)
  if !isSpaceOrEnd c.peek then .error .malformed
  let c := c.skipSpaces.skipComment
  if isBreakOrEnd c.peek then return (chomp, increment, c.lineBreak.2) else .error .malformed

/-- Empty lines at the start of a block, and the largest indentation among them and the first other line. -/
def blockIndentation : Nat → Cursor → List Char → Nat → List Char × Nat × Cursor
  | 0, c, breaks, widest => (breaks, widest, c)
  | fuel + 1, c, breaks, widest =>
    if c.peek == ' ' then
      let c := c.next
      blockIndentation fuel c breaks (max widest c.column)
    else if isBreak c.peek then
      let (b, c) := c.lineBreak
      blockIndentation fuel c (breaks ++ b) widest
    else (breaks, widest, c)

/-- Skip spaces up to an indentation. -/
def skipIndent (indent : Nat) (c : Cursor) : Cursor :=
  c.advance (min (indent - c.column) (c.rest.takeWhile (· == ' ')).length)

/-- Empty lines inside a block. -/
def blockBreaks (indent : Nat) : Nat → Cursor → List Char → List Char × Cursor
  | 0, c, breaks => (breaks, c)
  | fuel + 1, c, breaks =>
    let c := skipIndent indent c
    if isBreak c.peek then
      let (b, c) := c.lineBreak
      blockBreaks indent fuel c (breaks ++ b)
    else (breaks, c)

/-- A space or a tab. -/
def isSpaceOrTab (c : Char) : Bool := c == ' ' || c == '\t'

/-- The lines of a block: the text, the line break behind it and the empty lines at the end. -/
def blockLines (folded : Bool) (indent : Nat) : Nat → Cursor → List Char → List Char → List Char →
    List Char × List Char × List Char × Cursor
  | 0, c, text, last, breaks => (text, last, breaks, c)
  | fuel + 1, c, text, last, breaks =>
    if c.column != indent || c.atEnd then (text, last, breaks, c)
    else
      let text := text ++ breaks
      let leading := !isSpaceOrTab c.peek
      let line := c.rest.takeWhile fun ch => !isBreak ch
      let (last, c) := (c.advance line.length).lineBreak
      let (breaks, c) := blockBreaks indent (c.rest.length + 1) c []
      let text := text ++ line
      if c.column == indent && !c.atEnd then
        let joint :=
          if folded && last == ['\n'] && leading && !isSpaceOrTab c.peek then
            if breaks.isEmpty then [' '] else []
          else last
        blockLines folded indent fuel c (text ++ joint) last breaks
      else (text, last, breaks, c)

/-- Read a block from its sign on, inside the given indentation. -/
def blockScalar (folded : Bool) (indent : Int) (c : Cursor) : Except Error (String × Cursor) := do
  let (chomp, increment, c) ← blockHead c.next
  let least := (max (indent + 1) 1).toNat
  let (breaks, width, c) := match increment with
    | some n =>
      let width := least + n - 1
      let (breaks, c) := blockBreaks width (c.rest.length + 1) c []
      (breaks, width, c)
    | none =>
      let (breaks, widest, c) := blockIndentation (c.rest.length + 1) c [] 0
      (breaks, max least widest, c)
  let (text, last, breaks, c) := blockLines folded width (c.rest.length + 1) c [] [] breaks
  let tail := match chomp with
    | .strip => []
    | .clip => last
    | .keep => last ++ breaks
  return (String.ofList (text ++ tail), c)

end RequestAtlas.Yaml
