/-!
# Upper case for comparison with plain words

Words such as method and level names are compared without regard to case.  The upper-case form of a
character may be several characters; what matters is which characters have an upper-case form made of
plain Latin letters, so only these are changed.
-/

namespace RequestAtlas.Text

/-- The upper-case form of a character, if it consists of plain Latin letters; else the character. -/
def upperChar (c : Char) : List Char :=
  match c with
  | 'ß' => ['S', 'S']
  | 'ı' => ['I']
  | 'ſ' => ['S']
  | 'ﬀ' => ['F', 'F']
  | 'ﬁ' => ['F', 'I']
  | 'ﬂ' => ['F', 'L']
  | 'ﬃ' => ['F', 'F', 'I']
  | 'ﬄ' => ['F', 'F', 'L']
  | 'ﬅ' => ['S', 'T']
  | 'ﬆ' => ['S', 'T']
  | c => [c.toUpper]

/-- The upper-case form of a text, as far as it can equal a plain word. -/
def upper (s : String) : String := String.ofList (s.toList.flatMap upperChar)

end RequestAtlas.Text
