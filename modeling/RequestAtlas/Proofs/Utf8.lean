import RequestAtlas.Proofs.Syntax.Steps
import RequestAtlas.Text.Utf8
/-!
# Text and its bytes

Every text is read back from its bytes (`decodeUtf8_encodeUtf8`).  A stretch of bytes that starts behind some characters
and ends behind more is the bytes of those between (`slice_encodeUtf8`), so a cut there never splits a character.
-/

namespace RequestAtlas.Text

open Syntax (bytes bytes_append)

/-- The bytes of a text. -/
def encodeUtf8 (cs : List Char) : List UInt8 := cs.flatMap String.utf8EncodeChar

theorem encodeUtf8_append (a b : List Char) : encodeUtf8 (a ++ b) = encodeUtf8 a ++ encodeUtf8 b :=
  List.flatMap_append

theorem length_encodeUtf8 : ∀ cs : List Char, (encodeUtf8 cs).length = bytes cs
  | [] => rfl
  | c :: cs => by
    rw [encodeUtf8, List.flatMap_cons, List.length_append, String.length_utf8EncodeChar, ← encodeUtf8,
      length_encodeUtf8 cs, Syntax.bytes_cons]

/-! ## One character -/

theorem toNat_ofNat_of_lt {n : Nat} (h : n < 256) : (UInt8.ofNat n).toNat = n := by
  rw [UInt8.toNat_ofNat', Nat.mod_eq_of_lt h]

theorem isContinuation_add (n : Nat) : isContinuation (n % 64 + 128) = true := by
  simp only [isContinuation, Bool.and_eq_true, decide_eq_true_eq]
  omega

/-- The second byte is restricted behind four leading bytes: no longer form than needed, no surrogate, nothing beyond
the last character. -/
theorem isSecond_add {lead n : Nat} (hlong : lead = 0xe0 → 32 ≤ n % 64) (hsurrogate : lead = 0xed → n % 64 < 32)
    (hlong' : lead = 0xf0 → 16 ≤ n % 64) (hlast : lead = 0xf4 → n % 64 < 16) :
    isSecond lead (n % 64 + 128) = true := by
  simp only [isSecond, isContinuation_add, Bool.true_and, Bool.and_eq_true, Bool.not_eq_true', Bool.and_eq_false_iff,
    beq_eq_false_iff_ne, decide_eq_false_iff_not, ne_eq]
  omega

theorem continuation_second {lead n value count : Nat} (bs : List UInt8)
    (h : isSecond lead (n % 64 + 128) = true) :
    continuation lead (count + 1) value 1 (.ofNat (n % 64 + 128) :: bs) =
      continuation lead count (value * 64 + n % 64) 2 bs := by
  have hb : n % 64 + 128 < 256 := by omega
  have hvalue : (n % 64 + 128) % 64 = n % 64 := by omega
  rw [continuation, toNat_ofNat_of_lt hb, if_pos (by rw [if_pos rfl, h]), hvalue]

theorem continuation_further {lead n value count good : Nat} (hgood : good ≠ 1) (bs : List UInt8) :
    continuation lead (count + 1) value good (.ofNat (n % 64 + 128) :: bs) =
      continuation lead count (value * 64 + n % 64) (good + 1) bs := by
  have hb : n % 64 + 128 < 256 := by omega
  have hvalue : (n % 64 + 128) % 64 = n % 64 := by omega
  rw [continuation, toNat_ofNat_of_lt hb, if_pos (by rw [if_neg hgood, isContinuation_add]), hvalue]

theorem decodeUtf8_go_ascii {n : Nat} (hn : n < 0x80) (fuel pos : Nat) (acc : List Char) (bs : List UInt8) :
    decodeUtf8.go (fuel + 1) pos acc (.ofNat n :: bs) = decodeUtf8.go fuel (pos + 1) (.ofNat n :: acc) bs := by
  rw [decodeUtf8.go]
  simp only [toNat_ofNat_of_lt (Nat.lt_trans hn (by decide)), if_pos hn]

/-- A leading byte, and the character of which it is the first byte. -/
theorem decodeUtf8_go_lead {lead count value : Nat} {bs rest : List UInt8} (hlead : 0x80 ≤ lead) (hlt : lead < 256)
    (hcount : continuationCount? lead = some count)
    (hvalue : continuation lead count
      (if count = 1 then lead % 32 else if count = 2 then lead % 16 else lead % 8) 1 bs = .ok (value, rest))
    (fuel pos : Nat) (acc : List Char) : decodeUtf8.go (fuel + 1) pos acc (.ofNat lead :: bs) =
      decodeUtf8.go fuel (pos + count + 1) (.ofNat value :: acc) rest := by
  rw [decodeUtf8.go]
  simp only [toNat_ofNat_of_lt hlt, if_neg (Nat.not_lt.2 hlead), hcount, hvalue]

/-- The bytes of a character are read as that character, whatever follows. -/
theorem decodeUtf8_go_char (c : Char) (fuel pos : Nat) (acc : List Char) (bs : List UInt8) :
    decodeUtf8.go (fuel + 1) pos acc (String.utf8EncodeChar c ++ bs) =
      decodeUtf8.go fuel (pos + c.utf8Size) (c :: acc) bs := by
  have hvalid : c.val.toNat < 0xd800 ∨ 0xdfff < c.val.toNat ∧ c.val.toNat < 0x110000 := c.valid
  have hchar : c = Char.ofNat c.val.toNat := (Char.ofNat_toNat c).symm
  rw [← String.length_utf8EncodeChar, String.utf8EncodeChar]
  generalize c.val.toNat = n at hvalid hchar ⊢
  subst hchar
  split
  · exact decodeUtf8_go_ascii (by omega) fuel pos acc bs
  split
  · have hcount : continuationCount? (n / 64 % 32 + 192) = some 1 := by
      rw [continuationCount?, if_neg (by omega), if_pos (by omega)]
    rw [List.cons_append, List.singleton_append]
    refine decodeUtf8_go_lead (by omega) (by omega) hcount ?_ fuel pos acc
    have hsecond : isSecond (n / 64 % 32 + 192) (n % 64 + 128) = true := by
      apply isSecond_add <;> omega
    show continuation _ 1 ((n / 64 % 32 + 192) % 32) 1 _ = _
    rw [continuation_second bs hsecond, continuation]
    congr 2
    omega
  split
  · have hcount : continuationCount? (n / 4096 % 16 + 224) = some 2 := by
      rw [continuationCount?, if_neg (by omega), if_neg (by omega), if_pos (by omega)]
    rw [List.cons_append, List.cons_append, List.singleton_append]
    refine decodeUtf8_go_lead (by omega) (by omega) hcount ?_ fuel pos acc
    have hsecond : isSecond (n / 4096 % 16 + 224) (n / 64 % 64 + 128) = true := by
      apply isSecond_add <;> omega
    show continuation _ 2 ((n / 4096 % 16 + 224) % 16) 1 _ = _
    rw [continuation_second _ hsecond, continuation_further (by decide), continuation]
    congr 2
    omega
  · have hcount : continuationCount? (n / 262144 % 8 + 240) = some 3 := by
      rw [continuationCount?, if_neg (by omega), if_neg (by omega), if_neg (by omega), if_pos (by omega)]
    rw [List.cons_append, List.cons_append, List.cons_append, List.singleton_append]
    refine decodeUtf8_go_lead (by omega) (by omega) hcount ?_ fuel pos acc
    have hsecond : isSecond (n / 262144 % 8 + 240) (n / 4096 % 64 + 128) = true := by
      apply isSecond_add <;> omega
    show continuation _ 3 ((n / 262144 % 8 + 240) % 8) 1 _ = _
    rw [continuation_second _ hsecond, continuation_further (by decide), continuation_further (by decide), continuation]
    congr 2
    omega

/-! ## Whole texts -/

theorem decodeUtf8_go_encodeUtf8 : ∀ (cs : List Char) {fuel : Nat} (pos : Nat) (acc : List Char), cs.length < fuel →
    decodeUtf8.go fuel pos acc (encodeUtf8 cs) = .ok (acc.reverse ++ cs)
  | [], fuel + 1, pos, acc, _ => by
    rw [List.append_nil]
    rfl
  | c :: cs, fuel + 1, pos, acc, h => by
    rw [encodeUtf8, List.flatMap_cons, decodeUtf8_go_char, ← encodeUtf8,
      decodeUtf8_go_encodeUtf8 cs _ _ (Nat.lt_of_succ_lt_succ h), List.reverse_cons, List.append_assoc,
      List.singleton_append]

/-- **Text is read back from its bytes.** -/
theorem decodeUtf8_encodeUtf8 (cs : List Char) : decodeUtf8 (encodeUtf8 cs) = .ok cs := by
  have hlength : cs.length < (encodeUtf8 cs).length + 1 := by
    rw [length_encodeUtf8]
    exact Nat.lt_succ_of_le (Syntax.length_le_bytes cs)
  exact decodeUtf8_go_encodeUtf8 cs 0 [] hlength

/-! ## Stretches -/

/-- The bytes from one offset to another. -/
def slice (bs : List UInt8) (start stop : Nat) : List UInt8 := (bs.take stop).drop start

theorem slice_encodeUtf8 (front cs back : List Char) :
    slice (encodeUtf8 (front ++ (cs ++ back))) (bytes front) (bytes front + bytes cs) = encodeUtf8 cs := by
  rw [encodeUtf8_append, encodeUtf8_append, slice, ← length_encodeUtf8 front, ← length_encodeUtf8 cs,
    ← List.append_assoc, ← List.length_append, List.take_left, List.drop_left]

/-- A stretch that starts and ends between characters is text. -/
theorem decodeUtf8_slice (front cs back : List Char) :
    decodeUtf8 (slice (encodeUtf8 (front ++ (cs ++ back))) (bytes front) (bytes front + bytes cs)) = .ok cs := by
  rw [slice_encodeUtf8, decodeUtf8_encodeUtf8]

end RequestAtlas.Text
