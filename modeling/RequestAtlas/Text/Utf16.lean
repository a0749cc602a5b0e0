/-!
# UTF-16 code units

Texts as sequences of 16-bit units.  A unit in the high half of the surrogate range followed by one in
the low half stands for a character beyond the first plane; any other surrogate stands for nothing and
is replaced.
-/

namespace RequestAtlas.Text

/-- The character that replaces what cannot be decoded. -/
def replacement : Char := '\ufffd'

def isHighSurrogate (u : Nat) : Bool := 0xd800 ≤ u && u < 0xdc00

def isLowSurrogate (u : Nat) : Bool := 0xdc00 ≤ u && u < 0xe000

def isSurrogate (u : Nat) : Bool := 0xd800 ≤ u && u < 0xe000

/-- The units of one code point. -/
def unitsOf (n : Nat) : List Nat :=
  if n < 0x10000 then [n] else [0xd800 + (n - 0x10000) / 0x400, 0xdc00 + (n - 0x10000) % 0x400]

/-- Decode units; each unpaired surrogate becomes a replacement character. -/
def decodeUnits : List Nat → List Char
  | [] => []
  | [u] => [if isSurrogate u then replacement else Char.ofNat u]
  | u :: v :: us =>
    if isHighSurrogate u && isLowSurrogate v then
      Char.ofNat (0x10000 + (u - 0xd800) * 0x400 + (v - 0xdc00)) :: decodeUnits us
    else (if isSurrogate u then replacement else Char.ofNat u) :: decodeUnits (v :: us)

/-- Decode code points among which surrogates may occur: pairs join, lone ones are replaced. -/
def decodePoints (ns : List Nat) : List Char := decodeUnits (ns.flatMap unitsOf)

end RequestAtlas.Text
