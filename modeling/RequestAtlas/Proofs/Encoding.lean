import RequestAtlas.FileTree.Walk
import RequestAtlas.Proofs.PathText
import Mathlib.Data.List.Lex
/-!
# Texts that can be encoded

A text can be written to a file just if no character of it stands for a surrogate (`encode_eq_ok_iff`).  A path can be
handed to the system just if each of its names can (`fault?_eq_none_iff`): surrogates that stand for bytes are no
obstacle there, but the character of code zero is.
-/

namespace RequestAtlas

namespace Text

/-- No character has the code point of a surrogate itself. -/
theorem toNat_ne_surrogate (c : Char) {n : Nat} (h : 0xd800 ≤ n ∧ n < 0xe000) : c.toNat ≠ n := by
  rintro rfl
  rcases c.valid with hc | hc
  · exact absurd hc (Nat.not_lt.2 h.1)
  · exact absurd h.2 (Nat.not_lt.2 (Nat.succ_le_of_lt hc.1))

theorem length_toList_loop (bs : ByteArray) (i : Nat) (r : List UInt8) :
    (ByteArray.toList.loop bs i r).length = r.length + (bs.size - i) := by
  fun_induction ByteArray.toList.loop bs i r with
  | case1 i r h ih =>
    rw [ih, List.length_cons]
    omega
  | case2 i r h =>
    rw [List.length_reverse]
    omega

/-- A text has as many bytes as its size says. -/
theorem length_toUTF8 (s : String) : s.toUTF8.toList.length = s.utf8ByteSize := by
  rw [ByteArray.toList, length_toList_loop, List.length_nil, Nat.zero_add, Nat.sub_zero]
  rfl

/-- Every character is one of the first 128. -/
def isAscii (cs : List Char) : Bool := cs.all (·.toNat < 0x80)

theorem isAscii_iff {cs : List Char} : isAscii cs = true ↔ ∀ c ∈ cs, c.toNat < 0x80 := by simp [isAscii]

@[simp]
theorem isAscii_cons {c : Char} {cs : List Char} : isAscii (c :: cs) = true ↔ c.toNat < 0x80 ∧ isAscii cs = true := by
  simp [isAscii]

variable [Surrogates]

/-- No character stands for a surrogate. -/
def Writable (s : String) : Prop := ∀ c ∈ s.toList, Surrogates.unit? c = none

/-- A character of a name is not of code zero, and if it stands for a surrogate, that stands for a byte. -/
def NameChar (c : Char) : Prop := c ≠ '\x00' ∧ ∀ n, Surrogates.unit? c = some n → isEscapedByte n = true

/-- The characters are those of a name. -/
def Nameable (s : String) : Prop := ∀ c ∈ s.toList, NameChar c

-- the characters of the text are tried, and not all that there are
instance : DecidablePred Writable :=
  fun s => List.decidableBAll (fun c => Surrogates.unit? c = none) s.toList

instance (c : Char) : Decidable (NameChar c) :=
  decidable_of_iff (c ≠ '\x00' ∧ (Surrogates.unit? c).all isEscapedByte = true) (by simp [NameChar, Option.all_eq_true])

instance : DecidablePred Nameable := fun s => List.decidableBAll NameChar s.toList

theorem nameChar_of_ascii {c : Char} (h : c.toNat < 0x80) (hzero : c ≠ '\x00') : NameChar c := by
  refine ⟨hzero, fun n hn => ?_⟩
  rw [Surrogates.unit?_ascii h] at hn
  cases hn

theorem nameable_of_ascii {s : String} (h : isAscii s.toList = true) (hzero : '\x00' ∉ s.toList) : Nameable s :=
  fun c hc => nameChar_of_ascii (isAscii_iff.1 h c hc) fun heq => hzero (heq ▸ hc)

theorem encodingError?_eq_none_iff {allowed : Nat → Bool} : ∀ {position : Nat} {cs : List Char},
    encodingError? allowed position cs = none ↔ ∀ c ∈ cs, ∀ n, Surrogates.unit? c = some n → allowed n = true
  | _, [] => by simp [encodingError?]
  | position, c :: cs => by
    have ih : encodingError? allowed (position + 1) cs = none ↔ _ := encodingError?_eq_none_iff
    rw [encodingError?, List.forall_mem_cons]
    cases hc : Surrogates.unit? c with
    | none => simpa using ih
    | some n => by_cases hn : allowed n = true <;> simp [hn, ih]

theorem encode_eq_ok_iff {s : String} {bytes : List UInt8} :
    encode s = .ok bytes ↔ Writable s ∧ bytes = s.toUTF8.toList := by
  have hnone : encodingError? (fun _ => false) 0 s.toList = none ↔ Writable s := by
    rw [encodingError?_eq_none_iff]
    simp [Writable, Option.eq_none_iff_forall_ne_some]
  rw [encode, ← hnone]
  cases encodingError? (fun _ => false) 0 s.toList <;> simp [eq_comm]

theorem encode_of_writable {s : String} (h : Writable s) : encode s = .ok s.toUTF8.toList := encode_eq_ok_iff.2 ⟨h, rfl⟩

/-- What cannot be written has a first surrogate. -/
theorem exists_encode_error {s : String} (h : ¬ Writable s) : ∃ e, encode s = .error e := by
  cases he : encode s with
  | ok bytes => exact absurd (encode_eq_ok_iff.1 he).1 h
  | error e => exact ⟨e, rfl⟩

theorem writable_append {s t : String} : Writable (s ++ t) ↔ Writable s ∧ Writable t := by
  simp only [Writable, String.toList_append, List.forall_mem_append]

theorem writable_of_ascii {s : String} (h : isAscii s.toList = true) : Writable s :=
  fun c hc => Surrogates.unit?_ascii (isAscii_iff.1 h c hc)

/-! ## Code points -/

theorem code_of_some {c : Char} {n : Nat} (h : Surrogates.unit? c = some n) : code c = n := by
  rw [code, h, Option.getD_some]

theorem code_of_none {c : Char} (h : Surrogates.unit? c = none) : code c = c.toNat := by
  rw [code, h, Option.getD_none]

theorem code_injective : Function.Injective code := by
  intro c d h
  cases hc : Surrogates.unit? c with
  | none =>
    cases hd : Surrogates.unit? d with
    | none => exact Char.toNat_inj.1 ((code_of_none hc).symm.trans (h.trans (code_of_none hd)))
    | some n =>
      rw [code_of_none hc, code_of_some hd] at h
      exact absurd h (toNat_ne_surrogate c (Surrogates.unit?_eq_some_iff.1 hd).1)
  | some m =>
    cases hd : Surrogates.unit? d with
    | none =>
      rw [code_of_some hc, code_of_none hd] at h
      exact absurd h.symm (toNat_ne_surrogate d (Surrogates.unit?_eq_some_iff.1 hc).1)
    | some n =>
      rw [code_of_some hc, code_of_some hd] at h
      rw [← (Surrogates.unit?_eq_some_iff.1 hc).2, h, (Surrogates.unit?_eq_some_iff.1 hd).2]

theorem nameLe_eq (a b : String) : nameLe a b = decide (codes a ≤ codes b) := by
  rw [nameLe, ← decide_not, decide_eq_decide]
  exact not_lt

/-- Texts of the same code points are the same. -/
theorem codes_injective : Function.Injective codes := fun _ _ h =>
  String.toList_inj.1 (List.map_injective_iff.2 code_injective h)

end Text

namespace Path

variable [Surrogates]

theorem fault?_eq_none_iff_text {p : Path} : p.fault? = none ↔ Text.Nameable p.text := by
  rw [fault?]
  cases he : Text.encodingError? Text.isEscapedByte 0 p.text.toList with
  | some e =>
    refine iff_of_false nofun fun h => ?_
    rw [Text.encodingError?_eq_none_iff.2 fun c hc => (h c hc).2] at he
    cases he
  | none =>
    rw [Text.encodingError?_eq_none_iff] at he
    simp only [List.contains_eq_mem, decide_eq_true_eq, ite_eq_right_iff, reduceCtorEq, imp_false]
    constructor
    · intro hzero c hc
      exact ⟨fun h => hzero (h ▸ hc), he c hc⟩
    · intro h hzero
      exact (h _ hzero).1 rfl

/-- A path can be handed to the system just if its names can. -/
theorem fault?_eq_none_iff {p : Path} : p.fault? = none ↔ ∀ part ∈ p.parts, Text.Nameable part := by
  -- slashes and dots, which the text may have besides, are no obstacle
  have hmark : ∀ {c : Char}, c = '/' ∨ c = '.' → Text.NameChar c := by
    rintro c (rfl | rfl) <;> exact Text.nameChar_of_ascii (by decide) (by decide)
  rw [fault?_eq_none_iff_text]
  constructor
  · intro h part hpart c hc
    by_cases hc' : c = '/' ∨ c = '.'
    · exact hmark hc'
    · rw [not_or] at hc'
      exact h c ((mem_text hc'.1 hc'.2).2 ⟨part, hpart, hc⟩)
  · intro h c hc
    by_cases hc' : c = '/' ∨ c = '.'
    · exact hmark hc'
    · rw [not_or] at hc'
      obtain ⟨part, hpart, hmem⟩ := (mem_text hc'.1 hc'.2).1 hc
      exact h part hpart c hmem

end Path

end RequestAtlas
