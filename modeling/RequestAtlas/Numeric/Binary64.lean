/-!
# Double-precision numbers

A double is a signed multiple of a power of two, an infinity or the one value that is no number.  All
operations are exact arithmetic on natural numbers: rounding a fraction, reading back an integer, and
finding the shortest decimal that denotes a double.
-/

namespace RequestAtlas

/-- A double-precision number.  `finite s m e` stands for `± m · 2 ^ e`. -/
inductive Binary64 where
  | finite (negative : Bool) (mantissa : Nat) (exponent : Int)
  | infinite (negative : Bool)
  | nan
deriving DecidableEq, Repr, Inhabited

namespace Binary64

/-- The quotient of two naturals, rounded to the nearest one; a tie goes to the even neighbour. -/
def roundDiv (n d : Nat) : Nat :=
  let q := n / d
  let r := n % d
  if 2 * r < d then q else if d < 2 * r then q + 1 else if q % 2 = 0 then q else q + 1

/-- Numerator and denominator of `n / d · 2 ^ (-e)`. -/
def scaled (n d : Nat) (e : Int) : Nat × Nat :=
  if 0 ≤ e then (n, d * Nat.pow 2 e.toNat) else (n * Nat.pow 2 (-e).toNat, d)

/-- The smallest exponent of a double. -/
def minExponent : Int := -1074

/-- The largest exponent of a double. -/
def maxExponent : Int := 971

/-- The exponent at which the fraction `n / d` has 53 bits, or the smallest there is. -/
def exponentFor (n d : Nat) : Int :=
  let e : Int := (n.log2 : Int) - (d.log2 : Int) - 53
  let (n', d') := scaled n d e
  max minExponent (if n' / d' < Nat.pow 2 53 then e else e + 1)

/-- The double nearest to `± n / d`. -/
def ofRatio (negative : Bool) (n d : Nat) : Binary64 :=
  if n = 0 then finite negative 0 minExponent
  else
    let e := exponentFor n d
    let (n', d') := scaled n d e
    let m := roundDiv n' d'
    let (m, e) := if m = Nat.pow 2 53 then (Nat.pow 2 52, e + 1) else (m, e)
    if maxExponent < e then infinite negative else finite negative m e

/-- The number of decimal digits of a natural number; zero has one. -/
def digitCount (n : Nat) : Nat := (Nat.toDigits 10 n).length

/-- The double nearest to `± digits · 10 ^ exponent`.  Far outside the range of doubles the answer is
known from the number of digits alone. -/
def ofDecimal (negative : Bool) (digits : Nat) (exponent : Int) : Binary64 :=
  if digits = 0 then finite negative 0 minExponent
  else
    let magnitude : Int := digitCount digits + exponent
    if 310 < magnitude then infinite negative
    else if magnitude < -330 then finite negative 0 minExponent
    else if 0 ≤ exponent then ofRatio negative (digits * Nat.pow 10 exponent.toNat) 1
    else ofRatio negative digits (Nat.pow 10 (-exponent).toNat)

def isFinite : Binary64 → Bool
  | finite _ _ _ => true
  | _ => false

/-- The integer that a double denotes, if it denotes one. -/
def toInt? : Binary64 → Option Int
  | finite s m e =>
    let sign (n : Nat) : Int := if s then -(n : Int) else n
    if 0 ≤ e then some (sign (m * Nat.pow 2 e.toNat))
    else
      let d := Nat.pow 2 (-e).toNat
      if m % d = 0 then some (sign (m / d)) else none
  | _ => none

/-! ## Shortest decimals -/

/-- Numerator and denominator of `m · 2 ^ e`. -/
def ratio (m : Nat) (e : Int) : Nat × Nat :=
  if 0 ≤ e then (m * Nat.pow 2 e.toNat, 1) else (m, Nat.pow 2 (-e).toNat)

/-- Whether `10 ^ p ≤ n / d`. -/
def tenPowLe (p : Int) (n d : Nat) : Bool :=
  if 0 ≤ p then d * Nat.pow 10 p.toNat ≤ n else d ≤ n * Nat.pow 10 (-p).toNat

/-- The decimal exponent of the leading digit of `n / d`, searched downwards from `p`. -/
def leadingExponent (n d : Nat) : Nat → Int → Int
  | 0, p => p
  | fuel + 1, p => if tenPowLe p n d then p else leadingExponent n d fuel (p - 1)

/-- The multiples of `10 ^ k` just below and just above `n / d`, in units of `10 ^ k`; the flag tells
whether the upper one is nearer, or even where both are as near. -/
def neighbours (n d : Nat) (k : Int) : Nat × Nat × Bool :=
  let (n', d') := if 0 ≤ k then (n, d * Nat.pow 10 k.toNat) else (n * Nat.pow 10 (-k).toNat, d)
  let low := n' / d'
  (low, low + 1, d' < 2 * (n' % d') || (2 * (n' % d') == d' && low % 2 == 1))

/-- The shortest decimal with at least `count` digits that reads back as the given positive double, as
digits and exponent.  On each grid of decimals the two neighbours of the value are tried, the nearer
first. -/
def shortestFrom (m : Nat) (e : Int) (lead : Int) : Nat → Nat → Nat × Int
  | 0, _ => (m, 0)
  | fuel + 1, count =>
    let (n, d) := ratio m e
    let k := lead + 1 - count
    let (low, high, upper) := neighbours n d k
    let reads (x : Nat) : Bool := ofDecimal false x k == finite false m e
    let (near, far) := if upper then (high, low) else (low, high)
    if reads near then (near, k)
    else if reads far then (far, k)
    else shortestFrom m e lead fuel (count + 1)

/-- Drop trailing zeros from the digits of a decimal. -/
def stripZeros : Nat → Nat → Int → Nat × Int
  | 0, x, k => (x, k)
  | fuel + 1, x, k => if x % 10 = 0 && x ≠ 0 then stripZeros fuel (x / 10) (k + 1) else (x, k)

/-- The shortest decimal that reads back as `m · 2 ^ e`, as digits without trailing zeros and exponent. -/
def shortest (m : Nat) (e : Int) : Nat × Int :=
  if m = 0 then (0, 0)
  else
    let (n, d) := ratio m e
    let bits : Int := (n.log2 : Int) - (d.log2 : Int)
    let lead := leadingExponent n d 800 (if 0 ≤ bits then bits / 3 + 1 else bits / 4 + 1)
    let (x, k) := shortestFrom m e lead 18 1
    stripZeros 800 x k

end Binary64

end RequestAtlas
