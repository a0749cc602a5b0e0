import RequestAtlas.Text.Surrogates
/-!
# Printing

Lines are printed through a library that adapts them to where the output goes.  What it does to a line is a parameter
(`Console`), of which only this is known: a line without an escape character is printed as it is, and none gets longer.
A line with a surrogate cannot be printed; those before it are.
-/

namespace RequestAtlas.CommandLine

/-- What prints lines (`click.echo`). -/
class Console where
  /-- What arrives of a text. -/
  shown : String → String
  shown_plain : ∀ {s : String}, '\x1b' ∉ s.toList → shown s = s
  length_shown_le : ∀ s : String, (shown s).length ≤ s.length

namespace Console

/-- A terminal shows everything. -/
@[reducible]
def terminal : Console where
  shown s := s
  shown_plain _ := rfl
  length_shown_le _ := Nat.le_refl _

/-- Whether a character can stand between the beginning and the end of an escape sequence. -/
def isParameter (c : Char) : Bool := c.isDigit || c == ';' || c == '?'

/-- Leave out the escape sequences of a text.  What has been read of one comes first, its last character in front. -/
def strip (pending : List Char) : List Char → List Char
  | [] => pending.reverse
  | c :: cs =>
    if c = '\x1b' then pending.reverse ++ strip [c] cs
    else
      match pending with
      | [] => c :: strip [] cs
      | [e] => if c = '[' then strip [c, e] cs else e :: c :: strip [] cs
      | pending =>
        if isParameter c then strip (c :: pending) cs
        else if c.isAlpha then strip [] cs
        else pending.reverse ++ c :: strip [] cs

theorem strip_plain : ∀ {cs : List Char}, '\x1b' ∉ cs → strip [] cs = cs
  | [], _ => rfl
  | c :: cs, h => by
    rw [List.mem_cons, not_or] at h
    rw [strip, if_neg (Ne.symm h.1), strip_plain h.2]

theorem length_strip_le (pending cs : List Char) : (strip pending cs).length ≤ pending.length + cs.length := by
  fun_induction strip pending cs <;>
    simp only [List.length_append, List.length_reverse, List.length_cons, List.length_nil] at * <;> omega

/-- Where the output is no terminal, escape sequences are left out. -/
@[reducible]
def piped : Console where
  shown s := String.ofList (strip [] s.toList)
  shown_plain h := by rw [strip_plain h, String.ofList_toList]
  length_shown_le s := by
    have h := length_strip_le [] s.toList
    rw [List.length_nil, Nat.zero_add, String.length_toList] at h
    rwa [← String.length_toList, String.toList_ofList]

end Console

variable [Surrogates] [Console]

/-- What is printed of some lines, and the error that ends the printing early. -/
def printed : List String → String × Option Text.EncodingError
  | [] => ("", none)
  | l :: ls =>
    let line := Console.shown (l ++ "\n")
    match Text.encode line with
    | .error e => ("", some e)
    | .ok _ => (line ++ (printed ls).1, (printed ls).2)

end RequestAtlas.CommandLine
