import RequestAtlas.Literal.Reconstruction
import RequestAtlas.Proofs.Json.RoundTrip
import RequestAtlas.Proofs.Literal.Numerals
import RequestAtlas.Proofs.Numeric.Nearest
import Mathlib.Data.Nat.Digits.Defs
/-!
# Written texts and integers as literals of a script

What documents write inside quotes is a string literal of a script for the same text (`stringValue_writeString`): the
escapes of the writer are among those that cooking replaces.  The digits of an integer up to `2 ^ 53` are a number
literal for it (`numberValue_int`), although a literal is read as the nearest double: up to there that double is the
integer.
-/

namespace RequestAtlas.Literal

open Value (escapeChar writeString)

/-! ## Texts -/

theorem cookPoints_cons {c : Char} (h : c ≠ '\\') (cs : List Char) :
    cookPoints (c :: cs) = c.toNat :: cookPoints cs := by
  cases cs with
  | nil => rw [cookPoints, cookPoints]
  | cons d cs => rw [cookPoints, if_neg h]

theorem cookPoints_escape {d : Char} {n : Nat} {cs rest : List Char} (h : escape d cs = ([n], rest)) :
    cookPoints ('\\' :: d :: cs) = n :: cookPoints rest := by
  rw [cookPoints, if_pos rfl, h]
  rfl

theorem hexValue?_digitChar : ∀ n < 16, hexValue? (Nat.digitChar n) = some n := by
  decide

/-- Four hexadecimal digits spell a number below 32. -/
theorem escape_small {n : Nat} (h : n < 32) (cs : List Char) :
    escape 'u' (Text.hexPadded 4 n ++ cs) = ([n], cs) := by
  have hzero : hexValue? '0' = some 0 := rfl
  have hhigh := hexValue?_digitChar (n / 16) (by omega)
  have hlow := hexValue?_digitChar (n % 16) (by omega)
  have hspelled : 16 * (n / 16) + n % 16 = n := Nat.div_add_mod n 16
  rw [Json.hexPadded_four n h]
  simp [escape, simpleEscape?, isLineContinuation, braced?, hexFixed?, hzero, hhigh, hlow, hspelled]

/-- One written character is cooked to itself. -/
theorem cookPoints_escapeChar (c : Char) (cs : List Char) :
    cookPoints (escapeChar c ++ cs) = c.toNat :: cookPoints cs := by
  unfold escapeChar
  split
  case h_8 hq hb hn hr ht h8 hf =>
    split
    · rename_i h
      exact cookPoints_escape (escape_small h cs)
    · exact cookPoints_cons hb cs
  all_goals exact cookPoints_escape rfl

theorem cookPoints_escaped : ∀ cs : List Char, cookPoints (cs.flatMap escapeChar) = cs.map Char.toNat
  | [] => by rw [List.flatMap_nil, cookPoints, List.map_nil]
  | c :: cs => by rw [List.flatMap_cons, cookPoints_escapeChar, cookPoints_escaped cs, List.map_cons]

/-- Every escape starts with a backslash, so a character without one is written as it is. -/
theorem escapeChar_of_notMem {c : Char} (h : '\\' ∉ escapeChar c) : escapeChar c = [c] := by
  unfold escapeChar at h ⊢
  split at h
  case h_8 =>
    split at h
    · simp at h
    · rename_i hlarge
      rw [if_neg hlarge]
  all_goals simp at h

/-- Cooking undoes escaping. -/
theorem cook_escaped (cs : List Char) : cook (cs.flatMap escapeChar) = cs := by
  rw [cook]
  split
  · rw [cookPoints_escaped, Text.decodePoints_toNat]
  · rename_i h
    rw [List.contains_iff_mem, List.mem_flatMap, not_exists] at h
    have hplain : ∀ c ∈ cs, escapeChar c = [c] := fun c hc => escapeChar_of_notMem fun hb => h c ⟨hc, hb⟩
    rw [List.flatMap_def, List.map_congr_left hplain, ← List.flatMap_def, List.flatMap_singleton']

/-- **A written text is a string literal for the text.** -/
theorem stringValue_writeString (s : String) : stringValue (writeString s) = s := by
  rw [stringValue, writeString, List.cons_append, List.drop_one, List.tail_cons, List.dropLast_concat, cook_escaped,
    String.ofList_toList]

/-! ## Integers as doubles -/

theorem isExact_of_le {n : Nat} (h : n ≤ 2 ^ 53) : Binary64.IsExact n := by
  rcases Nat.lt_or_eq_of_le h with hlt | rfl
  · exact ⟨n, 0, hlt, by decide, (Nat.mul_one n).symm⟩
  · -- the limit itself has 54 bits, the last of them zero
    exact ⟨2 ^ 52, 1, by decide, by decide, by decide⟩

/-- Up to `2 ^ 53` the number that digits spell, read as a double, is the integer they spell. -/
theorem ofBinary64_ofDecimal {n : Nat} (h : n ≤ 2 ^ 53) :
    Number.ofBinary64 (Binary64.ofDecimal false n 0) = .int n := by
  have hvalue := (Binary64.rounds_ofDecimal n).value?_of_isExact (isExact_of_le h)
  have hlimit : (n : Int).natAbs < integerLimit := by
    rw [Int.natAbs_natCast]
    exact Nat.lt_of_le_of_lt h (by decide)
  simp only [Number.ofBinary64, Binary64.toInt?_of_value? hvalue, if_pos hlimit]

/-! ## Digits as a literal -/

theorem digitIn?_of_isDigit {c : Char} (h : c.isDigit = true) : digitIn? 10 c = some (c.toNat - 48) := by
  rw [Char.isDigit_iff_toNat] at h
  have hlo : '0' ≤ c := h.1
  have hhi : c ≤ '9' := h.2
  have hbound : c.toNat ≤ 57 := h.2
  simp only [digitIn?, hlo, hhi, and_self, if_true]
  rw [if_pos (by omega)]

theorem digitsIn?_of_digits : ∀ {ds : List Char} (v : Nat), (∀ c ∈ ds, c.isDigit = true) →
    digitsIn? 10 ds v = some (Nat.ofDigitChars 10 ds v)
  | [], _, _ => rfl
  | c :: ds, v, h => by
    rw [List.forall_mem_cons] at h
    rw [digitsIn?, digitIn?_of_isDigit h.1, Option.bind_some, digitsIn?_of_digits _ h.2]
    rfl

theorem digitsIn?_toDigits (n : Nat) : digitsIn? 10 (Nat.toDigits 10 n) 0 = some n := by
  rw [digitsIn?_of_digits 0 (List.all_eq_true.1 (Json.toDigits_all n)),
    Nat.ofDigitChars_toDigits (by decide) (by decide)]

theorem signed_digits {ds : List Char} (h : ∀ c ∈ ds, c.isDigit = true) :
    signed (Text.trim (ds.map plainChar)) = (false, ds) := by
  refine @signed_of_digits 10 (by decide) ds fun c hc => ?_
  rw [digitIn?_of_isDigit (h c hc)]
  rfl

theorem toLower_of_isDigit {c : Char} (h : c.isDigit = true) : c.toLower = c := by
  rw [Char.isDigit_iff_toNat] at h
  have hhi : c.toNat ≤ 57 := h.2
  refine dif_neg fun hupper => ?_
  have hlo : 65 ≤ c.toNat := hupper.1
  omega

/-- Digits are no word with a letter in it. -/
theorem sameWord_digits {ds : List Char} (h : ∀ c ∈ ds, c.isDigit = true) {w : String} {c : Char}
    (hc : c ∈ w.toList) (hletter : c.isDigit = false) : sameWord ds w = false := by
  rw [sameWord, beq_eq_false_iff_ne]
  intro heq
  rw [← heq, List.mem_map] at hc
  obtain ⟨d, hd, rfl⟩ := hc
  rw [toLower_of_isDigit (h d hd), h d hd] at hletter
  cases hletter

theorem decimal?_of_digits {ds : List Char} (hne : ds ≠ []) (hds : ∀ c ∈ ds, c.isDigit = true) {n : Nat}
    (hn : digitsIn? 10 ds 0 = some n) : decimal? (String.ofList ds) = some (Binary64.ofDecimal false n 0) := by
  have hwhole := @Json.takeWhile_digits ds [] (List.all_eq_true.2 hds) (by simp)
  rw [List.append_nil] at hwhole
  simp only [decimal?, String.toList_ofList, signed_digits hds,
    sameWord_digits hds (w := "inf") (c := 'i') (by decide) rfl,
    sameWord_digits hds (w := "infinity") (c := 'i') (by decide) rfl,
    sameWord_digits hds (w := "nan") (c := 'n') (by decide) rfl, hwhole.1, hwhole.2, List.append_nil, hn, exponent?]
  obtain ⟨d, ds, rfl⟩ := List.exists_cons_of_ne_nil hne
  rfl

/-- Digits that are not octal are neither a big numeral nor in another base. -/
theorem parseNumber_decimal {cs : List Char} (hne : cs.filter (· != '_') ≠ [])
    (hds : ∀ c ∈ cs.filter (· != '_'), c.isDigit = true) (hoctal : isLegacyOctal (cs.filter (· != '_')) = false)
    {n : Nat} (hn : digitsIn? 10 (cs.filter (· != '_')) 0 = some n) :
    parseNumber (String.ofList cs) = .ok (some (Number.ofBinary64 (Binary64.ofDecimal false n 0))) := by
  simp only [parseNumber, String.toList_ofList]
  generalize cs.filter (· != '_') = ds at hne hds hoctal hn
  have hlast : ∀ c, ds.getLast? = some c → c.isDigit = true := fun c hc => hds c (List.mem_of_getLast? hc)
  have hletter : ∀ c ∈ ds, baseLetter? c = none := fun c hc =>
    baseLetter?_of_decimal (.inl (by rw [digitIn?_of_isDigit (hds c hc)]; rfl))
  split
  · exact absurd (hlast _ ‹_›) (by decide)
  · exact absurd (hlast _ ‹_›) (by decide)
  · split
    · rename_i hannounced
      split at hannounced
      · rw [hletter _ (by simp)] at hannounced
        cases hannounced
      · cases hannounced
    · rw [hoctal, decimal?_of_digits hne hds hn]
      rfl

theorem parseNumber_digits {n : Nat} (h : n ≤ 2 ^ 53) :
    parseNumber (String.ofList (Nat.toDigits 10 n)) = .ok (some (.int n)) := by
  have hdigits := List.all_eq_true.1 (Json.toDigits_all n)
  have hkept : (Nat.toDigits 10 n).filter (· != '_') = Nat.toDigits 10 n := by
    rw [List.filter_eq_self]
    intro c hc
    rw [bne_iff_ne]
    rintro rfl
    exact absurd (hdigits _ hc) (by decide)
  have halone : ∀ c cs, Nat.toDigits 10 n ≠ '0' :: c :: cs := by
    intro c cs heq
    by_cases hn : n = 0
    · subst hn
      cases heq
    · exact Json.toDigits_head_ne_zero hn '0' (by rw [heq]; rfl) rfl
  have hoctal : isLegacyOctal (Nat.toDigits 10 n) = false := by
    unfold isLegacyOctal
    split
    · exact absurd ‹_› (halone _ _)
    · rfl
  rw [← ofBinary64_ofDecimal h]
  refine parseNumber_decimal ?_ ?_ ?_ ?_ <;> rw [hkept]
  · exact Nat.toDigits_ne_nil
  · exact hdigits
  · exact hoctal
  · exact digitsIn?_toDigits n

theorem numberValue_of_parse {chars : List Char} {n : Int}
    (h : parseNumber (String.ofList chars) = .ok (some (.int n))) : numberValue chars = .int n := by
  rw [numberValue, tryNumber, h]
  rfl

/-- **The digits of an integer up to `2 ^ 53` are a number literal for it.** -/
theorem numberValue_int {n : Int} (hpos : 0 ≤ n) (h : n ≤ 2 ^ 53) : numberValue (toString n).toList = .int n := by
  obtain ⟨m, rfl⟩ := Int.eq_ofNat_of_zero_le hpos
  have hm : m ≤ 2 ^ 53 := by omega
  rw [Json.toList_toString_int, if_neg (by omega), Int.natAbs_natCast]
  exact numberValue_of_parse (parseNumber_digits hm)

end RequestAtlas.Literal
