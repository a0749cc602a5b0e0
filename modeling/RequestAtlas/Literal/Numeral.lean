import RequestAtlas.Numeric.Binary64
import RequestAtlas.Text.Blank
import RequestAtlas.Text.Digit
import RequestAtlas.Text.Quoted
/-!
# Numerals

The number that a numeral denotes.  Underscores are ignored.  A prefix chooses the base; digits behind a
leading zero that are all octal are octal too; everything else is a decimal fraction, which becomes an
integer if it denotes one below `10 ^ 21`.  A numeral that ends in `n` denotes no number here.

Blanks around the digits, a sign and the digits of any script are accepted.
-/

namespace RequestAtlas

/-- An exact integer or a double. -/
inductive Number where
  | int (n : Int)
  | float (x : Binary64)
deriving DecidableEq, Repr, Inhabited

namespace Literal

open RequestAtlas.Text

/-- A numeral with a base prefix whose digits make no sense in that base. -/
inductive NumeralError where
  | badDigits (base : Nat) (text : String)
deriving DecidableEq, Repr

/-- At most this much of a quoted text is shown. -/
def NumeralError.shown : Nat := 200

def NumeralError.message [Surrogates] : NumeralError → String
  | .badDigits base text =>
    "invalid literal for int() with base " ++ toString base ++ ": " ++
      String.ofList ((quoted text).toList.take shown)

/-- The digits of every script as plain ones, every blank as a space.  Around digits the information
separators are no blanks. -/
def plainChar (c : Char) : Char :=
  if 28 ≤ c.toNat ∧ c.toNat ≤ 31 then '?'
  else if c.toNat < 128 then c
  else if isBlank c then ' '
  else match digitValue? c with
    | some d => Nat.digitChar d
    | none => '?'

/-- The value of a digit in bases up to sixteen. -/
def digitIn? (base : Nat) (c : Char) : Option Nat :=
  let v :=
    if '0' ≤ c ∧ c ≤ '9' then c.toNat - 48
    else if 'a' ≤ c ∧ c ≤ 'z' then c.toNat - 87
    else if 'A' ≤ c ∧ c ≤ 'Z' then c.toNat - 55
    else 36
  if v < base then some v else none

/-- The number that digits spell in a base. -/
def digitsIn? (base : Nat) : List Char → Nat → Option Nat
  | [], v => some v
  | c :: cs, v => (digitIn? base c).bind fun d => digitsIn? base cs (base * v + d)

/-- A sign in front of the rest. -/
def signed : List Char → Bool × List Char
  | '-' :: cs => (true, cs)
  | '+' :: cs => (false, cs)
  | cs => (false, cs)

/-- The letter that announces a base. -/
def baseLetter? (c : Char) : Option Nat :=
  if c == 'x' || c == 'X' then some 16
  else if c == 'o' || c == 'O' then some 8
  else if c == 'b' || c == 'B' then some 2
  else none

/-- Drop the announcement of the given base. -/
def dropBase (base : Nat) : List Char → List Char
  | '0' :: c :: cs => if baseLetter? c == some base then cs else '0' :: c :: cs
  | cs => cs

/-- Read an integer in the given base. -/
def integerIn (base : Nat) (text : String) : Except NumeralError Int :=
  let (negative, body) := signed (trim (text.toList.map plainChar))
  let ds := dropBase base body
  match ds, digitsIn? base ds 0 with
  | _ :: _, some n => .ok (if negative then -(n : Int) else n)
  | _, _ => .error (.badDigits base text)

/-! ## Decimal fractions -/

/-- Whether two texts agree up to the case of plain letters. -/
def sameWord (cs : List Char) (w : String) : Bool := cs.map Char.toLower == w.toList

/-- An exponent; none is zero. -/
def exponent? : List Char → Option Int
  | [] => some 0
  | e :: cs =>
    if e == 'e' || e == 'E' then
      let (negative, ds) := signed cs
      match ds, digitsIn? 10 ds 0 with
      | _ :: _, some n => some (if negative then -(n : Int) else n)
      | _, _ => none
    else none

/-- Read a decimal fraction as the nearest double. -/
def decimal? (text : String) : Option Binary64 :=
  let (negative, body) := signed (trim (text.toList.map plainChar))
  if sameWord body "inf" || sameWord body "infinity" then some (.infinite negative)
  else if sameWord body "nan" then some .nan
  else
    let whole := body.takeWhile Char.isDigit
    let afterWhole := body.dropWhile Char.isDigit
    let (fraction, rest) := match afterWhole with
      | '.' :: cs => (cs.takeWhile Char.isDigit, cs.dropWhile Char.isDigit)
      | cs => ([], cs)
    match whole ++ fraction, digitsIn? 10 (whole ++ fraction) 0, exponent? rest with
    | _ :: _, some digits, some e =>
      some (Binary64.ofDecimal negative digits (e - fraction.length))
    | _, _, _ => none

/-- From here on an integral double stays a double. -/
def integerLimit : Nat := Nat.pow 10 21

/-- An integral double below the limit as an integer. -/
def Number.ofBinary64 (x : Binary64) : Number :=
  match x.toInt? with
  | some n => if n.natAbs < integerLimit then .int n else .float x
  | none => .float x

/-- Whether a text is a zero followed by octal digits only (`_LEGACY_OCTAL_RE`). -/
def isLegacyOctal : List Char → Bool
  | '0' :: c :: cs => (c :: cs).all fun d => '0' ≤ d && d ≤ '7'
  | _ => false

/-- The number that a numeral denotes (`parse_number`); `none` for a big-integer numeral and for what is no numeral. -/
def parseNumber (text : String) : Except NumeralError (Option Number) :=
  let cs := text.toList.filter (· != '_')
  match cs.getLast? with
  | some 'n' => .ok none
  | some 'N' => .ok none
  | _ =>
    let announced := match cs with
      | '0' :: c :: rest => (baseLetter? c).map fun b => (b, rest)
      | _ => none
    match announced with
    | some (base, rest) => do
      let n ← integerIn base (String.ofList rest)
      return some (.int n)
    | none =>
      if isLegacyOctal cs then do
        let n ← integerIn 8 (String.ofList cs)
        return some (.int n)
      else .ok ((decimal? (String.ofList cs)).map Number.ofBinary64)

end Literal

end RequestAtlas
