/-!
# Texts with surrogates

Names come from the system as bytes.  A byte that is no part of a text is kept as a surrogate, which becomes that byte
again where the name is used; quoted scalars of a settings file may spell surrogates as well.  A surrogate is no
character, so texts hold characters that stand for them.

Which characters these are is a parameter (`Surrogates`): what is proved holds whichever they are, and any that the
texts of a run do not use otherwise will do.  A text with a surrogate cannot be written to a file (`Text.encode`).  In a
path it can be used if it stands for a byte.
-/

namespace RequestAtlas

/-- The characters that stand for surrogates. -/
class Surrogates where
  /-- The character that stands for a surrogate. -/
  stand : Nat → Char
  /-- The surrogate that a character stands for. -/
  unit? : Char → Option Nat
  unit?_eq_some_iff : ∀ {c : Char} {n : Nat}, unit? c = some n ↔ (0xd800 ≤ n ∧ n < 0xe000) ∧ stand n = c
  unit?_ascii : ∀ {c : Char}, c.toNat < 0x80 → unit? c = none

/-- The 2048 characters from U+C0000 on, none of which is assigned, stand for the surrogates. -/
@[reducible]
def Surrogates.unassigned : Surrogates where
  stand n := Char.ofNat (0xb2800 + n)
  unit? c := if 0xc0000 ≤ c.toNat ∧ c.toNat < 0xc0800 then some (c.toNat - 0xb2800) else none
  unit?_eq_some_iff := by
    intro c n
    have htoNat : ∀ {n : Nat}, 0xd800 ≤ n ∧ n < 0xe000 → (Char.ofNat (0xb2800 + n)).toNat = 0xb2800 + n := by
      intro n hn
      rw [Char.ofNat, dif_pos (.inr ⟨by omega, by omega⟩)]
      rfl
    split
    · next hc =>
      rw [Option.some.injEq]
      constructor
      · rintro rfl
        refine ⟨⟨by omega, by omega⟩, ?_⟩
        rw [Nat.add_sub_cancel' (by omega), Char.ofNat_toNat]
      · rintro ⟨hn, rfl⟩
        rw [htoNat hn]
        omega
    · next hc =>
      refine iff_of_false nofun ?_
      rintro ⟨hn, rfl⟩
      rw [htoNat hn] at hc
      omega
  unit?_ascii := fun h => if_neg (by omega)

namespace Text

/-- Surrogates in a row that cannot be encoded. -/
structure EncodingError where
  start : Nat
  length : Nat
  /-- The first of them. -/
  unit : Nat
deriving DecidableEq, Repr, Inhabited

def EncodingError.message (e : EncodingError) : String :=
  let range :=
    if e.length = 1 then
      "character '\\u" ++ String.ofList (Nat.toDigits 16 e.unit) ++ "' in position " ++ toString e.start
    else "characters in position " ++ toString e.start ++ "-" ++ toString (e.start + e.length - 1)
  "'utf-8' codec can't encode " ++ range ++ ": surrogates not allowed"

variable [Surrogates]

/-- Whether a character stands for a surrogate. -/
def standsIn (c : Char) : Bool := (Surrogates.unit? c).isSome

/-- The first surrogates of a text that cannot be encoded, where `allowed` are those that can. -/
def encodingError? (allowed : Nat → Bool) (position : Nat) : List Char → Option EncodingError
  | [] => none
  | c :: cs =>
    match Surrogates.unit? c with
    | none => encodingError? allowed (position + 1) cs
    | some n =>
      if allowed n then encodingError? allowed (position + 1) cs
      else some ⟨position, (cs.takeWhile standsIn).length + 1, n⟩

/-- The bytes of a text in a file. -/
def encode (s : String) : Except EncodingError (List UInt8) :=
  match encodingError? (fun _ => false) 0 s.toList with
  | none => .ok s.toUTF8.toList
  | some e => .error e

/-! ## Names -/

/-- Whether a surrogate stands for a byte. -/
def isEscapedByte (n : Nat) : Bool := 0xdc80 ≤ n && n < 0xdd00

/-- How many bytes of a name a character is. -/
def charSize (c : Char) : Nat := if standsIn c then 1 else c.utf8Size

/-- How many bytes of a name some characters are. -/
def charsSize : List Char → Nat
  | [] => 0
  | c :: cs => charSize c + charsSize cs

/-- How many bytes a name has. -/
def nameSize (s : String) : Nat := charsSize s.toList

/-- The code point of a character, or that of the surrogate it stands for. -/
def code (c : Char) : Nat := (Surrogates.unit? c).getD c.toNat

/-- The code points of a text. -/
def codes (s : String) : List Nat := s.toList.map code

/-- The order of names by code points. -/
def nameLe (a b : String) : Bool := !decide (codes b < codes a)

end Text

end RequestAtlas
