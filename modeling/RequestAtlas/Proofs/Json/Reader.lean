import RequestAtlas.Literal.Escape
import RequestAtlas.Text.Affix
import RequestAtlas.Value.Basic
/-!
# Reading JSON text

A reader of JSON text that knows nothing of how documents are written here: blanks between any two tokens, all
escapes, pairs of surrogate escapes, repeated keys (the last one wins), and beyond the standard the three words
for numbers that are not finite.  A number with a fraction or an exponent is kept as it is spelled, so that no
rounding stands between a text and what was read from it.
-/

namespace RequestAtlas

/-- What a JSON text denotes. -/
inductive Json where
  | null
  | bool (b : Bool)
  | int (n : Int)
  /-- A number that is no integer, as it is spelled. -/
  | real (spelling : String)
  | string (s : String)
  | list (items : List Json)
  | dict (entries : List (String × Json))
deriving Repr, Inhabited

namespace Json

/-- The value of a key. -/
def field? : Json → String → Option Json
  | dict es, key => Value.get? es key
  | _, _ => none

/-- The value that a sequence of keys leads to. -/
def at? (j : Json) (keys : List String) : Option Json := keys.foldlM field? j

/-! ## Tokens -/

def isSpace (c : Char) : Bool := c == ' ' || c == '\t' || c == '\n' || c == '\r'

/-- Drop blanks in front. -/
def skip (cs : List Char) : List Char := cs.dropWhile isSpace

/-- The escapes of one letter. -/
def letterEscape? : Char → Option Nat
  | '"' => some 34
  | '\\' => some 92
  | '/' => some 47
  | 'b' => some 8
  | 'f' => some 12
  | 'n' => some 10
  | 'r' => some 13
  | 't' => some 9
  | _ => none

/-- The number that four hexadecimal digits spell. -/
def fourDigits? (a b c d : Char) : Option Nat := do
  let a ← Literal.hexValue? a
  let b ← Literal.hexValue? b
  let c ← Literal.hexValue? c
  let d ← Literal.hexValue? d
  return 16 * (16 * (16 * a + b) + c) + d

/-- The code points of a text up to its closing quote, and what follows the quote. -/
def points? : List Char → Option (List Nat × List Char)
  | [] => none
  | '"' :: cs => some ([], cs)
  | '\\' :: 'u' :: a :: b :: c :: d :: cs =>
    (fourDigits? a b c d).bind fun n => (points? cs).map fun (ns, rest) => (n :: ns, rest)
  | '\\' :: c :: cs =>
    (letterEscape? c).bind fun n => (points? cs).map fun (ns, rest) => (n :: ns, rest)
  | c :: cs =>
    if c = '\\' ∨ c.toNat < 32 then none
    else (points? cs).map fun (ns, rest) => (c.toNat :: ns, rest)

/-- The text behind an opening quote; pairs of surrogates join. -/
def text? (cs : List Char) : Option (String × List Char) :=
  (points? cs).map fun (ns, rest) => (String.ofList (Text.decodePoints ns), rest)

/-! ## Numbers -/

/-- Digits, at least one. -/
def isDigits (cs : List Char) : Bool := !cs.isEmpty && cs.all Char.isDigit

/-- Digits with no zero in front of others. -/
def isWhole : List Char → Bool
  | ['0'] => true
  | '0' :: _ => false
  | cs => isDigits cs

/-- Drop a sign. -/
def dropSign : List Char → List Char
  | '+' :: cs => cs
  | '-' :: cs => cs
  | cs => cs

/-- An exponent, or nothing. -/
def isExponent : List Char → Bool
  | [] => true
  | e :: cs => (e == 'e' || e == 'E') && isDigits (dropSign cs)

/-- A fraction and an exponent, each of which may be missing. -/
def isFraction : List Char → Bool
  | '.' :: cs => isDigits (cs.takeWhile Char.isDigit) && isExponent (cs.dropWhile Char.isDigit)
  | cs => isExponent cs

/-- The number with a spelling whose sign is split off. -/
def unsigned? (negative : Bool) (cs : List Char) : Option Json :=
  let whole := cs.takeWhile Char.isDigit
  let fraction := cs.dropWhile Char.isDigit
  if isWhole whole && isFraction fraction then
    let n : Int := Nat.ofDigitChars 10 whole 0
    if fraction.isEmpty then some (.int (if negative then -n else n))
    else some (.real (String.ofList (if negative then '-' :: cs else cs)))
  else none

/-- The number with a spelling. -/
def number? : List Char → Option Json
  | '-' :: cs => unsigned? true cs
  | cs => unsigned? false cs

/-- Whether a character can be part of a number. -/
def isNumeral (c : Char) : Bool := c.isDigit || c == '-' || c == '+' || c == '.' || c == 'e' || c == 'E'

/-- The words that stand for a value. -/
def words : List (List Char × Json) :=
  [(['n', 'u', 'l', 'l'], .null), (['t', 'r', 'u', 'e'], .bool true),
   (['f', 'a', 'l', 's', 'e'], .bool false), (['N', 'a', 'N'], .real "NaN"),
   (['I', 'n', 'f', 'i', 'n', 'i', 't', 'y'], .real "Infinity"),
   (['-', 'I', 'n', 'f', 'i', 'n', 'i', 't', 'y'], .real "-Infinity")]

/-- A word or a number, and what follows it.  A number reaches as far as its characters do: whatever may follow
a number in a document is none of them. -/
def atom? (cs : List Char) : Option (Json × List Char) :=
  match words.findSome? fun (w, v) => (Text.dropStart? w cs).map fun rest => (v, rest) with
  | some r => some r
  | none => (number? (cs.takeWhile isNumeral)).map fun v => (v, cs.dropWhile isNumeral)

/-! ## Values -/

theorem length_skip (cs : List Char) : (skip cs).length ≤ cs.length :=
  (List.dropWhile_sublist isSpace).length_le

mutual

/-- The value at the start of a text, and what follows it. -/
def value? (cs : List Char) : Option (Json × List Char) :=
  match h : skip cs with
  | '"' :: rest => (text? rest).map fun (s, rest) => (.string s, rest)
  | '[' :: rest =>
    have : rest.length < cs.length := by have := length_skip cs; rw [h] at this; exact this
    match skip rest with
    | ']' :: rest => some (.list [], rest)
    | _ => (items? rest).map fun (vs, rest) => (.list vs, rest)
  | '{' :: rest =>
    have : rest.length < cs.length := by have := length_skip cs; rw [h] at this; exact this
    match skip rest with
    | '}' :: rest => some (.dict [], rest)
    | _ => (entries? [] rest).map fun (es, rest) => (.dict es, rest)
  | cs => atom? cs
termination_by (cs.length, 0)

/-- The items of a list up to its closing bracket. -/
def items? (cs : List Char) : Option (List Json × List Char) :=
  match value? cs with
  | none => none
  | some (v, rest) =>
    match skip rest with
    | ']' :: rest => some ([v], rest)
    | ',' :: rest =>
      if rest.length < cs.length then (items? rest).map fun (vs, rest) => (v :: vs, rest) else none
    | _ => none
termination_by (cs.length, 1)

/-- The entries of a dictionary up to its closing brace, behind those read so far. -/
def entries? (es : List (String × Json)) (cs : List Char) : Option (List (String × Json) × List Char) :=
  match skip cs with
  | '"' :: inside =>
    match text? inside with
    | none => none
    | some (key, rest) =>
      match skip rest with
      | ':' :: rest =>
        if rest.length < cs.length then
          match value? rest with
          | none => none
          | some (v, rest) =>
            match skip rest with
            | '}' :: rest => some (Value.put es key v, rest)
            | ',' :: rest => if rest.length < cs.length then entries? (Value.put es key v) rest else none
            | _ => none
        else none
      | _ => none
  | _ => none
termination_by (cs.length, 1)

end

/-- What a whole text denotes, if it is JSON. -/
def read (s : String) : Option Json :=
  match value? s.toList with
  | some (v, rest) => if (skip rest).isEmpty then some v else none
  | none => none

example : read " [1, -2.50e3,\t\"\\ud83d\\ude00\\/\", \x7b\"a\" : [ ], \"b\":NaN, \"a\":-0\x7d ]" =
    some (.list [.int 1, .real "-2.50e3", .string "😀/", .dict [("a", .int 0), ("b", .real "NaN")]]) := by cbv

example : read "[1,]" = none ∧ read "01" = none ∧ read "1 2" = none := by cbv

end Json

end RequestAtlas
