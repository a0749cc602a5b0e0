import RequestAtlas.Syntax.Trivia
/-!
# Words and literals

The tokens that carry text: words, numbers, quoted strings and regular expressions.  A word is any
identifier; whether it is a keyword is decided where it is used.
-/

namespace RequestAtlas.Syntax

def isHexDigit (c : Char) : Bool :=
  ('0' ≤ c && c ≤ '9') || ('a' ≤ c && c ≤ 'f') || ('A' ≤ c && c ≤ 'F')

def isOctalDigit (c : Char) : Bool := '0' ≤ c && c ≤ '7'

/-! ## Words -/

/-- Characters a word may contain. -/
def isWordChar (c : Char) : Bool :=
  !(c.toNat < 32 || isBlankBetweenTokens c || ":;`\"'@#.,|^&<=>+-*/\\%?!~()[]\x7b\x7d".toList.contains c)

/-- Past a character escape of the form `uXXXX` or braced, seen behind the backslash. -/
def pastCodeEscape? : List Char → Option (List Char)
  | 'u' :: '{' :: r =>
    match r.takeWhile isHexDigit, r.dropWhile isHexDigit with
    | _ :: _, '}' :: r' => some r'
    | _, _ => none
  | 'u' :: a :: b :: c :: d :: r =>
    if isHexDigit a && isHexDigit b && isHexDigit c && isHexDigit d then some r else none
  | _ => none

/-- How many characters of the input form a word. -/
def wordLength (cs : List Char) : Nat :=
  match cs with
  | c :: _ => if c.isDigit then 0 else go cs 0 0
  | [] => 0
where
  /-- Count on; `inEscape` characters still belong to an escape that was found complete. -/
  go : List Char → Nat → Nat → Nat
    | [], _, n => n
    | _ :: cs, inEscape + 1, n => go cs inEscape (n + 1)
    | c :: cs, 0, n =>
      if isWordChar c then go cs 0 (n + 1)
      else if c == '\\' then
        match pastCodeEscape? cs with
        | some r => go cs (cs.length - r.length) (n + 1)
        | none => n
      else n

namespace Parse

/-- Read a word. -/
def word : Parse String := do
  let start ← here
  let n := wordLength start.rest
  ensure (n != 0)
  let stop := start.skipN n
  set stop
  return start.textTo stop

/-- The word ahead, or nothing; the cursor stays. -/
def wordAhead : Parse (Option String) := fun c => some ((word c).map (·.1), c)

/-- Read exactly this word. -/
def keyword (k : String) : Parse Unit := do
  let w ← word
  ensure (w == k)

/-- Whether this word comes next. -/
def seesWord (k : String) : Parse Bool := do return (← wordAhead) == some k

/-- Read a word as a node of the given kind, unless it is in the list. -/
def wordNode (kind : Kind) (except : List String) : Parse Node := do
  let start ← here
  let w ← word
  ensure !(except.contains w)
  node kind start []

/-- Read a keyword as a node named after it. -/
def keywordNode (kind : Kind) (k : String) : Parse Node := do
  let start ← here
  keyword k
  node kind start []

end Parse

/-! ## Numbers -/

/-- Past digits that may have single underscores between them. -/
def pastDigits? (digit : Char → Bool) : List Char → Option (List Char)
  | [] => none
  | c :: cs => if digit c then some (go cs) else none
where
  go : List Char → List Char
    | '_' :: c :: cs => if digit c then go cs else '_' :: c :: cs
    | c :: cs => if digit c then go cs else c :: cs
    | [] => []

def pastExponent? : List Char → Option (List Char)
  | e :: cs =>
    if e == 'e' || e == 'E' then
      match cs with
      | '-' :: r => pastDigits? Char.isDigit r
      | '+' :: r => pastDigits? Char.isDigit r
      | r => pastDigits? Char.isDigit r
    else none
  | [] => none

/-- Past the integer part that may stand before a point or an exponent. -/
def pastIntegerParts : List Char → List (List Char)
  | '0' :: r =>
    r :: match r with
      | c :: _ => if '1' ≤ c && c ≤ '9' then fromNonzero r else []
      | [] => []
  | c :: r => if '1' ≤ c && c ≤ '9' then fromNonzero (c :: r) else []
  | [] => []
where
  fromNonzero (cs : List Char) : List (List Char) :=
    [cs.drop 1] ++ (pastDigits? Char.isDigit cs).toList

/-- Past a prefixed literal such as `0x1F`. -/
def pastPrefixed? : List Char → Option (List Char)
  | '0' :: p :: r =>
    if p == 'x' || p == 'X' then pastDigits? isHexDigit r
    else if p == 'o' || p == 'O' then pastDigits? isOctalDigit r
    else if p == 'b' || p == 'B' then pastDigits? (fun c => c == '0' || c == '1') r
    else none
  | _ => none

/-- All ways in which a number may end. -/
def numberEnds (cs : List Char) : List (List Char) :=
  let whole := (pastPrefixed? cs).toList ++ (pastDigits? Char.isDigit cs).toList
  let big := whole.filterMap fun r => match r with | 'n' :: r' => some r' | _ => none
  let orExponent (r : List Char) : List (List Char) := [r] ++ (pastExponent? r).toList
  let pointed := (pastIntegerParts cs).flatMap fun r =>
    match r with
    | '.' :: r' => orExponent r' ++ ((pastDigits? Char.isDigit r').toList.flatMap orExponent)
    | _ => (pastExponent? r).toList
  let bare := match cs with
    | '.' :: r => (pastDigits? Char.isDigit r).toList.flatMap orExponent
    | _ => []
  whole ++ big ++ pointed ++ bare

/-- Number of characters in the longest number at the start of the input, `0` if there is none. -/
def numberLength (cs : List Char) : Nat :=
  ((numberEnds cs).map fun r => cs.length - r.length).foldl max 0

/-! ## Escapes, strings and regular expressions -/

/-- Past an escape sequence, seen behind its backslash. -/
def pastEscape? : List Char → Option (List Char)
  | [] => none
  | c :: cs =>
    if c == 'x' then
      match cs with
      | a :: b :: r => if isHexDigit a && isHexDigit b then some r else none
      | _ => none
    else if c == 'u' then pastCodeEscape? (c :: cs)
    else if isOctalDigit c then
      match cs with
      | a :: b :: r =>
        if isOctalDigit a then if isOctalDigit b then some r else some (b :: r) else some (a :: b :: r)
      | [a] => if isOctalDigit a then some [] else some [a]
      | [] => some []
    else
      match cs with
      | d :: r =>
        if (c == '\r' || c == '?') && (d == '\n' || d == '\u2028' || d == '\u2029') then some r
        else some cs
      | [] => some []

/-- Past the closing quote of a string whose opening quote has been read.  A line may only break in an
escape or right before the closing quote. -/
def pastString? (quote : Char) (cs : List Char) : Option (List Char) :=
  go (cs.length + 1) cs
where
  go : Nat → List Char → Option (List Char)
    | 0, _ => none
    | _, [] => none
    | fuel + 1, c :: cs =>
      if c == quote then some cs
      else if c == '\\' then (pastEscape? cs).bind (go fuel)
      else if c == '\n' || c == '\r' then
        match ((Cursor.ofList (c :: cs)).pastTrivia false).2.rest with
        | d :: r => if d == quote then some r else none
        | [] => none
      else go fuel cs

/-- Past the closing slash of a regular expression whose opening slash has been read. -/
def pastRegex? (cs : List Char) : Option (List Char) :=
  go (cs.length + 1) false cs
where
  go : Nat → Bool → List Char → Option (List Char)
    | 0, _, _ => none
    | _, _, [] => none
    | fuel + 1, inClass, c :: cs =>
      if c == '\n' then none
      else if c == '\\' then
        match cs with
        | d :: r => if d == '\n' then none else go fuel inClass r
        | [] => none
      else if inClass then go fuel (c != ']') cs
      else if c == '[' then go fuel true cs
      else if c == '/' then some cs
      else go fuel false cs

namespace Parse

/-- Move on to a later part of the input. -/
def jumpTo (r : List Char) : Parse Unit := modify fun c => c.skipN (c.left - r.length)

/-- A number. -/
def number : Parse Node := do
  let start ← here
  let n := numberLength start.rest
  ensure (n != 0)
  set (start.skipN n)
  node .number start []

/-- A quoted string. -/
def string : Parse Node := do
  let start ← here
  match start.rest with
  | c :: cs =>
    ensure (c == '"' || c == '\'')
    match pastString? c cs with
    | some r => jumpTo r; node .string start []
    | none => failure
  | [] => failure

/-- A regular expression with its flags. -/
def regex : Parse Node := do
  let start ← here
  match start.rest with
  | '/' :: cs =>
    ensure (cs.head? != some '/')
    match pastRegex? cs with
    | some r => jumpTo (r.dropWhile fun c => 'a' ≤ c && c ≤ 'z'); node (.construct "regex") start []
    | none => failure
  | _ => failure

/-- A private name such as `#count`. -/
def privateName : Parse Node := do
  let start ← here
  exactly "#"
  let n := wordLength (← get).rest
  ensure (n != 0)
  modify (·.skipN n)
  node (.construct "private_property_identifier") start []

end Parse

end RequestAtlas.Syntax
