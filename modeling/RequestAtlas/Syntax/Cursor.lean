import RequestAtlas.Syntax.Node
/-!
# Reading position and parsing steps

A `Cursor` is the part of the source that is still to be read together with the byte offset reached.
A parsing step either fails or returns a value and a later cursor; alternatives backtrack.  Every
repetition is bounded by the number of characters that are left.
-/

namespace RequestAtlas.Syntax

/-- A reading position. -/
structure Cursor where
  rest : List Char
  /-- Bytes read so far. -/
  offset : Nat
  /-- Characters left, a bound for every loop that starts here. -/
  left : Nat
deriving Repr, Inhabited

namespace Cursor

def ofList (cs : List Char) : Cursor := ⟨cs, 0, cs.length⟩

def ofString (s : String) : Cursor := ofList s.toList

/-- One character further. -/
def skip : Cursor → Cursor
  | ⟨[], o, n⟩ => ⟨[], o, n⟩
  | ⟨c :: cs, o, n⟩ => ⟨cs, o + c.utf8Size, n - 1⟩

/-- The cursor `n` characters further. -/
def skipN : Nat → Cursor → Cursor
  | 0, c => c
  | n + 1, c => skipN n c.skip

/-- Past all leading characters that satisfy `p`. -/
def skipWhile (p : Char → Bool) (c : Cursor) : Cursor := go c.rest c.offset c.left
where
  go : List Char → Nat → Nat → Cursor
    | [], o, n => ⟨[], o, n⟩
    | c :: cs, o, n => if p c then go cs (o + c.utf8Size) (n - 1) else ⟨c :: cs, o, n⟩

/-- The characters of the source from one cursor to a later one. -/
def charsTo (a b : Cursor) : List Char := go (b.offset - a.offset) a.rest
where
  go : Nat → List Char → List Char
    | 0, _ => []
    | _, [] => []
    | n, c :: cs => c :: go (n - c.utf8Size) cs

/-- The source text from one cursor to a later one. -/
def textTo (a b : Cursor) : String := String.ofList (a.charsTo b)

end Cursor

/-- A parsing step. -/
abbrev Parse := StateT Cursor Option

namespace Parse

/-- Accept the next characters if they are exactly `s`. -/
def exactly (s : String) : Parse Unit := fun c =>
  if s.toList.isPrefixOf c.rest then some ((), c.skipN s.length) else none

/-- Look at the characters ahead. -/
def ahead : Parse (List Char) := fun c => some (c.rest, c)

/-- Fail unless the condition holds. -/
def ensure (b : Bool) : Parse Unit := if b then pure () else failure

/-- Whether a step would succeed here, without taking it. -/
def peeks {α : Type} (p : Parse α) : Parse Bool := fun c => some ((p c).isSome, c)

/-- Take a step if it succeeds. -/
def maybe {α : Type} (p : Parse α) : Parse (Option α) := fun c =>
  match p c with
  | some (a, c') => some (some a, c')
  | none => some (none, c)

/-- Repeat a step until it fails or stands still. -/
def many {α : Type} (p : Parse α) : Parse (List α) := fun c => some (go (c.left + 1) [] c)
where
  go : Nat → List α → Cursor → List α × Cursor
    | 0, acc, c => (acc.reverse, c)
    | n + 1, acc, c =>
      match p c with
      | none => (acc.reverse, c)
      | some (a, c') => if c'.offset ≤ c.offset then (acc.reverse, c) else go n (a :: acc) c'

/-- A step followed by any number of further ones, each behind a separator. -/
def sepBy1 {α β : Type} (p : Parse α) (sep : Parse β) : Parse (List α) := do
  let a ← p
  let as ← many (sep *> p)
  return a :: as

/-- The first alternative that succeeds. -/
def firstOf {α : Type} : List (Parse α) → Parse α
  | [] => failure
  | p :: ps => p <|> firstOf ps

/-- Build a node from where it starts to where the cursor stands now. -/
def node (kind : Kind) (start : Cursor) (children : List Node) : Parse Node := fun c =>
  some (.mk kind none start.offset (start.charsTo c) children, c)

end Parse

end RequestAtlas.Syntax
