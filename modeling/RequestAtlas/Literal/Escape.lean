import RequestAtlas.Text.Utf16
/-!
# Cooking string literals

The text between the quotes of a literal is raw: escape sequences stand for other characters.  Cooking
replaces them.  Escapes may spell single surrogates, so the result is a sequence of code points first;
surrogate pairs then join, and lone surrogates are replaced.  Text without a backslash is cooked already.
-/

namespace RequestAtlas.Literal

open RequestAtlas.Text

/-- The value of a hexadecimal digit. -/
def hexValue? (c : Char) : Option Nat :=
  if '0' ≤ c ∧ c ≤ '9' then some (c.toNat - 48)
  else if 'a' ≤ c ∧ c ≤ 'f' then some (c.toNat - 87)
  else if 'A' ≤ c ∧ c ≤ 'F' then some (c.toNat - 55)
  else none

/-- The value of an octal digit. -/
def octalValue? (c : Char) : Option Nat := if '0' ≤ c ∧ c ≤ '7' then some (c.toNat - 48) else none

/-- The number spelled by the leading hexadecimal digits, with how many there are. -/
def hexRun : List Char → Nat → Nat → Nat × Nat × List Char
  | [], v, n => (v, n, [])
  | c :: cs, v, n =>
    match hexValue? c with
    | some d => hexRun cs (16 * v + d) (n + 1)
    | none => (v, n, c :: cs)

/-- The number spelled by exactly `n` hexadecimal digits. -/
def hexFixed? : Nat → List Char → Nat → Option (Nat × List Char)
  | 0, cs, v => some (v, cs)
  | _ + 1, [], _ => none
  | n + 1, c :: cs, v =>
    match hexValue? c with
    | some d => hexFixed? n cs (16 * v + d)
    | none => none

/-- The number spelled by at most `n` octal digits. -/
def octalRun : Nat → List Char → Nat → Nat × List Char
  | 0, cs, v => (v, cs)
  | _ + 1, [], v => (v, [])
  | n + 1, c :: cs, v =>
    match octalValue? c with
    | some d => octalRun n cs (8 * v + d)
    | none => (v, c :: cs)

/-- The code point written in braces; one that does not exist is replaced. -/
def braced? : List Char → Option (Nat × List Char)
  | '{' :: cs =>
    match hexRun cs 0 0 with
    | (v, _ + 1, '}' :: rest) => some (if v ≤ 0x10ffff then v else replacement.toNat, rest)
    | _ => none
  | _ => none

/-- The escapes of one letter. -/
def simpleEscape? : Char → Option Nat
  | 'n' => some 10
  | 't' => some 9
  | 'r' => some 13
  | 'b' => some 8
  | 'f' => some 12
  | 'v' => some 11
  | _ => none

/-- Whether a backslash before this character continues the line. -/
def isLineContinuation (c : Char) : Bool := c == '\n' || c == '\r' || c == '\u2028' || c == '\u2029'

/-- Read one escape sequence behind its backslash (`_cook_escape`): the code points it stands for and what follows
it. -/
def escape (c : Char) (cs : List Char) : List Nat × List Char :=
  match simpleEscape? c with
  | some n => ([n], cs)
  | none =>
    if isLineContinuation c then
      match c, cs with
      | '\r', '\n' :: rest => ([], rest)
      | _, _ => ([], cs)
    else if c = 'u' then
      match braced? cs with
      | some (n, rest) => ([n], rest)
      | none =>
        match hexFixed? 4 cs 0 with
        | some (n, rest) => ([n], rest)
        | none => ([c.toNat], cs)
    else if c = 'x' then
      match hexFixed? 2 cs 0 with
      | some (n, rest) => ([n], rest)
      | none => ([c.toNat], cs)
    else
      match octalValue? c with
      | some d =>
        let (n, rest) := octalRun 2 cs d
        ([n], rest)
      | none => ([c.toNat], cs)

/-! ## An escape reads no further than its literal -/

theorem hexRun_length (cs : List Char) (v n : Nat) : (hexRun cs v n).2.2.length ≤ cs.length := by
  induction cs generalizing v n with
  | nil => simp [hexRun]
  | cons c cs ih =>
    unfold hexRun
    split
    · exact Nat.le_trans (ih _ _) (Nat.le_succ _)
    · simp

theorem hexFixed?_length {n : Nat} {cs rest : List Char} {v w : Nat}
    (h : hexFixed? n cs v = some (w, rest)) : rest.length ≤ cs.length := by
  induction n generalizing cs v with
  | zero => simp [hexFixed?] at h; simp [h.2]
  | succ n ih =>
    cases cs with
    | nil => simp [hexFixed?] at h
    | cons c cs =>
      unfold hexFixed? at h
      split at h
      · exact Nat.le_trans (ih h) (Nat.le_succ _)
      · simp at h

theorem octalRun_length (n : Nat) (cs : List Char) (v : Nat) :
    (octalRun n cs v).2.length ≤ cs.length := by
  induction n generalizing cs v with
  | zero => simp [octalRun]
  | succ n ih =>
    cases cs with
    | nil => simp [octalRun]
    | cons c cs =>
      unfold octalRun
      split
      · exact Nat.le_trans (ih _ _) (Nat.le_succ _)
      · simp

theorem braced?_length {cs rest : List Char} {n : Nat} (h : braced? cs = some (n, rest)) :
    rest.length ≤ cs.length := by
  unfold braced? at h
  split at h
  · rename_i cs
    have hl := hexRun_length cs 0 0
    split at h
    · rename_i v k r heq
      rw [heq] at hl
      simp only [Option.some.injEq, Prod.mk.injEq] at h
      simp only [List.length_cons] at hl ⊢
      rw [← h.2]
      omega
    · simp at h
  · simp at h

theorem escape_length (c : Char) (cs : List Char) : (escape c cs).2.length ≤ cs.length := by
  unfold escape
  split
  · simp
  · split
    · split <;> simp
    · split
      · split
        · exact braced?_length ‹_›
        · split
          · exact hexFixed?_length ‹_›
          · simp
      · split
        · split
          · exact hexFixed?_length ‹_›
          · simp
        · split
          · exact octalRun_length _ _ _
          · simp

/-- The code points of a raw text with its escapes replaced.  A backslash at the very end stays. -/
def cookPoints : List Char → List Nat
  | [] => []
  | [c] => [c.toNat]
  | c :: d :: cs =>
    if c = '\\' then
      have : (escape d cs).2.length ≤ cs.length := escape_length d cs
      (escape d cs).1 ++ cookPoints (escape d cs).2
    else c.toNat :: cookPoints (d :: cs)
termination_by cs => cs.length
decreasing_by all_goals simp only [List.length_cons]; omega

/-- Cook the raw text of a literal (`_cook`). -/
def cook (raw : List Char) : List Char :=
  if raw.contains '\\' then decodePoints (cookPoints raw) else raw

end RequestAtlas.Literal
