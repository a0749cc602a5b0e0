import RequestAtlas.Text.Printable
import RequestAtlas.Text.Surrogates
/-!
# Quoted texts

A text in quotes for messages.  Single quotes are used unless the text contains a single quote and no
double quote.  The quote in use, backslashes, unprintable characters and surrogates are escaped.
-/

namespace RequestAtlas.Text

/-- Lower-case hexadecimal digits, filled up with zeros to the given width. -/
def hexPadded (width n : Nat) : List Char :=
  let ds := Nat.toDigits 16 n
  List.replicate (width - ds.length) '0' ++ ds

variable [Surrogates]

/-- One character inside quotes. -/
def quotedChar (quote c : Char) : List Char :=
  match Surrogates.unit? c with
  | some n => ['\\', 'u'] ++ hexPadded 4 n
  | none =>
    if c == quote || c == '\\' then ['\\', c]
    else if c == '\n' then ['\\', 'n']
    else if c == '\r' then ['\\', 'r']
    else if c == '\t' then ['\\', 't']
    else if isPrintable c then [c]
    else if c.toNat < 0x100 then ['\\', 'x'] ++ hexPadded 2 c.toNat
    else if c.toNat < 0x10000 then ['\\', 'u'] ++ hexPadded 4 c.toNat
    else ['\\', 'U'] ++ hexPadded 8 c.toNat

/-- The quote that suits a text. -/
def quoteFor (cs : List Char) : Char := if cs.contains '\'' && !cs.contains '"' then '"' else '\''

/-- A text in quotes. -/
def quoted (s : String) : String :=
  let cs := s.toList
  let q := quoteFor cs
  String.ofList (q :: cs.flatMap (quotedChar q) ++ [q])

end RequestAtlas.Text
