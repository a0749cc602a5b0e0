import RequestAtlas.Literal.Escape
import RequestAtlas.Yaml.Error
/-!
# What plain scalars mean

A plain scalar may spell a truth value, a number, a time or nothing at all; else it is a text.  `kindOf` decides
by the form alone; `read` functions give the value, which may turn out not to exist.
-/

namespace RequestAtlas.Yaml

/-- What a node is marked as, or what its form says. -/
inductive Tag where
  | null
  | bool
  | int
  | float
  | timestamp
  | merge
  /-- The sign for a default value. -/
  | value
  | string
  | binary
  | sequence
  | mapping
  | set
  | pairs
  | unknown (name : String)
deriving DecidableEq, Repr, Inhabited

/-! ## Numbers -/

def isDigitOrLine (c : Char) : Bool := c.isDigit || c == '_'

/-- Without a sign in front. -/
def unsigned : List Char → List Char
  | '-' :: cs => cs
  | '+' :: cs => cs
  | cs => cs

/-- Split at a character. -/
def splitOn (sep : Char) : List Char → List (List Char)
  | [] => [[]]
  | c :: cs =>
    if c = sep then [] :: splitOn sep cs
    else
      match splitOn sep cs with
      | [] => [[c]]
      | p :: ps => (c :: p) :: ps

/-- One or two digits below sixty. -/
def isSixtieth : List Char → Bool
  | [c] => c.isDigit
  | [c, d] => c.isDigit && c ≤ '5' && d.isDigit
  | _ => false

/-- A digit, one of those given, and more digits and lines. -/
def isDigits (first : Char → Bool) : List Char → Bool
  | c :: cs => first c && cs.all isDigitOrLine
  | [] => false

/-- Groups of digits in base sixty with colons between them. -/
def isSexagesimal (first : Char → Bool) (cs : List Char) : Bool :=
  match splitOn ':' cs with
  | head :: part :: parts => isDigits first head && (part :: parts).all isSixtieth
  | _ => false

def isNonZeroDigit (c : Char) : Bool := c.isDigit && c != '0'

/-- Whether a scalar has the form of an integer. -/
def isInteger (cs : List Char) : Bool :=
  match unsigned cs with
  | ['0'] => true
  | '0' :: 'b' :: ds => !ds.isEmpty && ds.all fun c => c == '0' || c == '1' || c == '_'
  | '0' :: 'x' :: ds => !ds.isEmpty && ds.all fun c => (Literal.hexValue? c).isSome || c == '_'
  | '0' :: ds => ds.all fun c => ('0' ≤ c && c ≤ '7') || c == '_'
  | ds => isDigits isNonZeroDigit ds || isSexagesimal isNonZeroDigit ds

/-- An exponent with its sign, or nothing. -/
def isExponent : List Char → Bool
  | [] => true
  | e :: s :: ds =>
    (e == 'e' || e == 'E') && (s == '-' || s == '+') && !ds.isEmpty && ds.all Char.isDigit
  | _ => false

/-- Whether a scalar has the form of a fraction. -/
def isFraction (cs : List Char) : Bool :=
  let body := unsigned cs
  let whole := body.takeWhile (· != '.')
  let behind := (body.dropWhile (· != '.')).drop 1
  let pointed := body.contains '.'
  let tail := behind.dropWhile isDigitOrLine
  let words (ws : List String) (t : List Char) : Bool := ws.any (·.toList == t)
  pointed &&
    ((isDigits Char.isDigit whole && isExponent tail) ||
     (whole.isEmpty && cs.head? == some '.' && isDigits Char.isDigit (behind.takeWhile isDigitOrLine) &&
       isExponent tail) ||
     (isSexagesimal Char.isDigit whole && tail.isEmpty) ||
     (whole.isEmpty && words ["inf", "Inf", "INF"] behind) ||
     (whole.isEmpty && cs.head? == some '.' && words ["nan", "NaN", "NAN"] behind))

/-- The number spelled by digits in base sixty. -/
def sexagesimal (parts : List Int) : Int := parts.foldl (fun n p => 60 * n + p) 0

/-- Read digits in a base. -/
def readDigits (base : Nat) (cs : List Char) : Except Invalid Int :=
  if base = 10 ∧ 4300 < cs.length then .error (.long cs.length)
  else
    match Literal.integerIn base (String.ofList cs) with
    | .ok n => .ok n
    | .error e => .error (.digits e)

/-- The integer that a scalar spells. -/
def readInteger (text : String) : Except Invalid Int := do
  let cs := text.toList.filter (· != '_')
  if cs.isEmpty then .error .emptyNumber
  let sign : Int := if cs.head? == some '-' then -1 else 1
  match unsigned cs with
  | [] => .error .emptyNumber
  | ['0'] => return 0
  | '0' :: 'b' :: ds => return sign * (← readDigits 2 ds)
  | '0' :: 'x' :: ds => return sign * (← readDigits 16 ds)
  | '0' :: ds => return sign * (← readDigits 8 ('0' :: ds))
  | ds =>
    if ds.contains ':' then
      return sign * sexagesimal (← (splitOn ':' ds).mapM (readDigits 10))
    else return sign * (← readDigits 10 ds)

/-- The fraction that a scalar spells.  Only the form matters to settings, so groups in base sixty are checked
and counted as zero. -/
def readFraction (text : String) : Except Invalid Binary64 := do
  let cs := (text.toList.filter (· != '_')).map Char.toLower
  if cs.isEmpty then .error .emptyNumber
  let negative := cs.head? == some '-'
  let body := unsigned cs
  let number (part : List Char) : Except Invalid Binary64 :=
    match Literal.decimal? (String.ofList part) with
    | some x => .ok x
    | none => .error (.decimal (String.ofList part))
  if body == ".inf".toList then return .infinite negative
  else if body == ".nan".toList then return .nan
  else if body.contains ':' then do
    let _ ← (splitOn ':' body).mapM number
    return Binary64.ofRatio negative 0 1
  else number (if negative then '-' :: body else body)

/-! ## Times -/

/-- A time as it is written. -/
structure Timestamp where
  date : Date
  /-- Whether month and day have two digits each. -/
  padded : Bool
  /-- Hour, minute and second. -/
  clock : Option (Nat × Nat × Nat) := none
  offset : Option Int := none
deriving Repr

/-- Read at least `least` and at most `most` digits. -/
def digitsBetween (least most : Nat) (cs : List Char) : Option (Nat × Nat × List Char) :=
  let ds := (cs.take most).takeWhile Char.isDigit
  if ds.length < least then none
  else some (ds.foldl (fun n d => 10 * n + (d.toNat - 48)) 0, ds.length, cs.drop ds.length)

/-- Drop a character that must be there. -/
def expect (c : Char) : List Char → Option (List Char)
  | d :: cs => if c = d then some cs else none
  | [] => none

def isGap (c : Char) : Bool := c == ' ' || c == '\t'

/-- The zone behind a time: the end, universal time, or an offset in seconds. -/
def zone? (cs : List Char) : Option (Option Int) :=
  if cs.isEmpty then some none
  else
    match cs.dropWhile isGap with
    | ['Z'] => some (some 0)
    | s :: rest => do
      guard (s == '+' || s == '-')
      let (h, _, rest) ← digitsBetween 1 2 rest
      let m ← match rest with
        | [] => some 0
        | ':' :: rest =>
          match digitsBetween 2 2 rest with
          | some (m, _, []) => some m
          | _ => none
        | _ => none
      let seconds : Int := 3600 * h + 60 * m
      return some (if s == '-' then -seconds else seconds)
    | [] => none

/-- Read a time. -/
def timestamp? (cs : List Char) : Option Timestamp := do
  let (year, _, cs) ← digitsBetween 4 4 cs
  let (month, m, cs) ← digitsBetween 1 2 (← expect '-' cs)
  let (day, d, cs) ← digitsBetween 1 2 (← expect '-' cs)
  let date : Date := ⟨year, month, day⟩
  let padded := m == 2 && d == 2
  match cs with
  | [] => return { date, padded }
  | c :: rest =>
    let cs ←
      if c == 'T' || c == 't' then some rest
      else if isGap c then some (rest.dropWhile isGap)
      else none
    let (hour, _, cs) ← digitsBetween 1 2 cs
    let (minute, _, cs) ← digitsBetween 2 2 (← expect ':' cs)
    let (second, _, cs) ← digitsBetween 2 2 (← expect ':' cs)
    let cs := match cs with
      | '.' :: rest => rest.dropWhile Char.isDigit
      | cs => cs
    let offset ← zone? cs
    return { date, padded, clock := some (hour, minute, second), offset }

/-- Whether a scalar has the form of a time; a date alone needs all its digits. -/
def isTimestamp (cs : List Char) : Bool :=
  match timestamp? cs with
  | some t => t.clock.isSome || t.padded
  | none => false

/-- Check that a time exists. -/
def checkTimestamp (t : Timestamp) : Except Invalid Unit := do
  let dated : Except Invalid Unit := t.date.check.mapError .date
  match t.clock with
  | none => dated
  | some (h, m, s) =>
    match t.offset with
    | some o => if 86400 ≤ o.natAbs then throw (.offset o)
    | none => pure ()
    dated
    if 23 < h then throw .hour
    if 59 < m then throw .minute
    if 59 < s then throw .second

/-! ## Truth values -/

/-- The words for truth values. -/
def truthWords : List (String × Bool) :=
  [("yes", true), ("no", false), ("true", true), ("false", false), ("on", true), ("off", false)]

/-- A word with its first letter in upper case. -/
def capitalized (s : String) : String :=
  match s.toList with
  | c :: cs => String.ofList (c.toUpper :: cs)
  | [] => s

/-- Whether a scalar is a word for a truth value, in small letters, capital letters or capitalised. -/
def isTruth (text : String) : Bool :=
  truthWords.any fun (w, _) => text == w || text == capitalized w || text == w.map Char.toUpper

/-- The truth value of a word. -/
def readTruth (text : String) : Except Invalid Bool :=
  match truthWords.find? (·.1 == text.map Char.toLower) with
  | some (_, b) => .ok b
  | none => .error .word

/-- What a plain scalar is, by its form. -/
def kindOf (text : String) : Tag :=
  let cs := text.toList
  if isTruth text then .bool
  else if isFraction cs then .float
  else if isInteger cs then .int
  else if text == "<<" then .merge
  else if text == "" || text == "~" || text == "null" || text == "Null" || text == "NULL" then .null
  else if isTimestamp cs then .timestamp
  else if text == "=" then .value
  else .string

end RequestAtlas.Yaml
