import RequestAtlas.Numeric.Binary64
/-!
# The text of a double

Shortest digits laid out positionally or with an exponent.  The layout is a record, so that what the
documents use is one value: positional from `10 ^ -4` up to but not including `10 ^ 16`, always with a
fractional digit; beyond that with an exponent of at least two digits and a sign.
-/

namespace RequestAtlas

/-- How a double is written. -/
structure NumberLayout where
  /-- The smallest exponent of the leading digit that is written positionally. -/
  positionalFrom : Int
  /-- The first exponent of the leading digit that is not. -/
  positionalTo : Int
  /-- The least number of exponent digits. -/
  exponentDigits : Nat
  infinity : String
  negativeInfinity : String
  notANumber : String
deriving Repr

namespace NumberLayout

/-- The words for values that are no finite numbers, as a plain text of a value spells them. -/
def plain : NumberLayout := ⟨-4, 16, 2, "inf", "-inf", "nan"⟩

/-- The layout inside documents. -/
def document : NumberLayout := ⟨-4, 16, 2, "Infinity", "-Infinity", "NaN"⟩

/-- Digits with the leading one at `10 ^ lead`, written positionally. -/
def positional (digits : List Char) (lead : Int) : List Char :=
  if lead < 0 then ['0', '.'] ++ List.replicate (-lead - 1).toNat '0' ++ digits
  else
    let whole := lead.toNat + 1
    if digits.length ≤ whole then digits ++ List.replicate (whole - digits.length) '0' ++ ['.', '0']
    else digits.take whole ++ ['.'] ++ digits.drop whole

/-- Digits with an exponent. -/
def scientific (width : Nat) (digits : List Char) (lead : Int) : List Char :=
  let mantissa := match digits with
    | [] => []
    | [d] => [d]
    | d :: ds => d :: '.' :: ds
  let exponent := Nat.toDigits 10 lead.natAbs
  mantissa ++ ['e', if lead < 0 then '-' else '+'] ++
    List.replicate (width - exponent.length) '0' ++ exponent

/-- The text of a double in the given layout. -/
def render (l : NumberLayout) : Binary64 → String
  | .nan => l.notANumber
  | .infinite s => if s then l.negativeInfinity else l.infinity
  | .finite s m e =>
    let (x, k) := Binary64.shortest m e
    let digits := Nat.toDigits 10 x
    let lead : Int := k + digits.length - 1
    let body :=
      if l.positionalFrom ≤ lead && lead < l.positionalTo then positional digits lead
      else scientific l.exponentDigits digits lead
    String.ofList (if s then '-' :: body else body)

end NumberLayout

/-- The plain text of a double. -/
def Binary64.text (x : Binary64) : String := NumberLayout.plain.render x

end RequestAtlas
