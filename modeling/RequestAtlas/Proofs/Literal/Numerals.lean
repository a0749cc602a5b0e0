import RequestAtlas.Literal.Numeral
import Mathlib.Data.List.Basic
/-!
# Number literals can be read

`IsNumeral` are the number literals of the language: decimal with a fraction and an exponent, or digits behind the
letter of a base, with separators among the digits and perhaps an `n` at the end.  Main statement
`parseNumber_of_isNumeral`: reading one never fails.  Only digits that an announced base does not have are refused, and
a literal has none.
-/

namespace RequestAtlas.Literal

/-- The letters that announce a base. -/
def baseLetters : List (Char × Nat) := [('x', 16), ('X', 16), ('o', 8), ('O', 8), ('b', 2), ('B', 2)]

/-- Digits of a base with separators among them. -/
structure Digits (base : Nat) (cs : List Char) : Prop where
  all : ∀ c ∈ cs, (digitIn? base c).isSome = true ∨ c = '_'
  some : ∃ c ∈ cs, (digitIn? base c).isSome = true

/-- The exponent of a number literal, or nothing. -/
inductive ExponentPart : List Char → Prop
  | none : ExponentPart []
  | some {e : Char} {sign ds : List Char} (he : e = 'e' ∨ e = 'E') (hs : sign = [] ∨ sign = ['+'] ∨ sign = ['-'])
      (hds : Digits 10 ds) : ExponentPart (e :: (sign ++ ds))

/-- A number literal.  A zero in front of octal digits makes them octal, so those literals are spelled like decimal
ones.  An `n` at the end marks a big integer. -/
inductive IsNumeral : List Char → Prop
  | decimal {whole point fraction exponent suffix : List Char} (hds : Digits 10 (whole ++ fraction))
      (hp : point = ['.'] ∨ point = [] ∧ fraction = []) (he : ExponentPart exponent)
      (hs : suffix = [] ∨ suffix = ['n']) : IsNumeral (whole ++ (point ++ (fraction ++ (exponent ++ suffix))))
  | announced {letter : Char} {base : Nat} {ds suffix : List Char} (hb : (letter, base) ∈ baseLetters)
      (hds : Digits base ds) (hs : suffix = [] ∨ suffix = ['n']) : IsNumeral ('0' :: letter :: (ds ++ suffix))

theorem mem_baseLetters_iff {c : Char} {base : Nat} : (c, base) ∈ baseLetters ↔ baseLetter? c = some base := by
  constructor
  · intro h
    have hall : ∀ e ∈ baseLetters, baseLetter? e.1 = some e.2 := by decide
    exact hall _ h
  · intro h
    unfold baseLetter? at h
    split at h
    · rename_i hc
      simp only [Bool.or_eq_true, beq_iff_eq] at hc
      rcases hc with rfl | rfl <;> cases h <;> decide
    · split at h
      · rename_i hc
        simp only [Bool.or_eq_true, beq_iff_eq] at hc
        rcases hc with rfl | rfl <;> cases h <;> decide
      · split at h
        · rename_i hc
          simp only [Bool.or_eq_true, beq_iff_eq] at hc
          rcases hc with rfl | rfl <;> cases h <;> decide
        · cases h

/-- A digit is a plain digit or a plain letter. -/
theorem digit_bounds {base : Nat} (hbase : base ≤ 36) {c : Char} (h : (digitIn? base c).isSome = true) :
    (48 ≤ c.toNat ∧ c.toNat ≤ 57) ∨ (97 ≤ c.toNat ∧ c.toNat ≤ 122) ∨ (65 ≤ c.toNat ∧ c.toNat ≤ 90) := by
  unfold digitIn? at h
  by_cases hdigit : '0' ≤ c ∧ c ≤ '9'
  · exact .inl hdigit
  · by_cases hlower : 'a' ≤ c ∧ c ≤ 'z'
    · exact .inr (.inl hlower)
    · by_cases hupper : 'A' ≤ c ∧ c ≤ 'Z'
      · exact .inr (.inr hupper)
      · simp only [if_neg hdigit, if_neg hlower, if_neg hupper, if_neg (Nat.not_lt.2 hbase)] at h
        cases h

theorem digitsIn?_isSome {base : Nat} : ∀ {ds : List Char} (v : Nat), (∀ c ∈ ds, (digitIn? base c).isSome = true) →
    ∃ n, digitsIn? base ds v = some n
  | [], v, _ => ⟨v, rfl⟩
  | c :: ds, v, h => by
    rw [List.forall_mem_cons] at h
    obtain ⟨d, hd⟩ := Option.isSome_iff_exists.1 h.1
    obtain ⟨n, hn⟩ := digitsIn?_isSome (base * v + d) h.2
    exact ⟨n, by rw [digitsIn?, hd, Option.bind_some, hn]⟩

section
variable {base : Nat} (hbase : base ≤ 36) {ds : List Char} (hds : ∀ c ∈ ds, (digitIn? base c).isSome = true)
include hbase hds

/-- Digits have no blanks around them and no sign in front. -/
theorem signed_of_digits : signed (Text.trim (ds.map plainChar)) = (false, ds) := by
  have hplain : ds.map plainChar = ds := by
    refine (List.map_congr_left fun c hc => ?_).trans (List.map_id ds)
    have hb := digit_bounds hbase (hds c hc)
    rw [plainChar, if_neg (by omega), if_pos (by omega)]
    rfl
  have hblank : ∀ c ∈ ds, Text.isBlank c = false := by
    intro c hc
    have hb := digit_bounds hbase (hds c hc)
    simp only [Text.isBlank, Bool.or_eq_false_iff, Bool.and_eq_false_iff, decide_eq_false_iff_not, beq_eq_false_iff_ne]
    omega
  have hkept : ∀ {l : List Char}, (∀ c ∈ l, Text.isBlank c = false) → l.dropWhile Text.isBlank = l := by
    intro l hl
    cases l with
    | nil => rfl
    | cons c l => rw [List.dropWhile_cons, hl c (by simp), if_neg (by simp)]
  have htrim : Text.trim ds = ds := by
    rw [Text.trim, hkept hblank, Text.trimEnd, hkept (by simpa using hblank), List.reverse_reverse]
  rw [hplain, htrim]
  unfold signed
  split
  · exact absurd (digit_bounds hbase (hds '-' (by simp))) (by decide)
  · exact absurd (digit_bounds hbase (hds '+' (by simp))) (by decide)
  · rfl

end

/-- The digits of a base are read as the number they spell. -/
theorem integerIn_eq {letter : Char} {base : Nat} (hb : (letter, base) ∈ baseLetters) {ds : List Char}
    (hne : ds ≠ []) (hds : ∀ c ∈ ds, (digitIn? base c).isSome = true) {n : Nat} (hn : digitsIn? base ds 0 = some n) :
    integerIn base (String.ofList ds) = .ok (n : Int) := by
  have hbase : base ≤ 36 := by
    have hall : ∀ e ∈ baseLetters, e.2 ≤ 36 := by decide
    exact hall _ hb
  -- no letter that announces a base is a digit of it, so nothing is dropped
  have hdrop : dropBase base ds = ds := by
    unfold dropBase
    split
    · rename_i c cs
      refine if_neg fun hc => ?_
      have hall : ∀ e ∈ baseLetters, digitIn? e.2 e.1 = none := by decide
      have hnone := hall _ (mem_baseLetters_iff.2 (beq_iff_eq.1 hc))
      have hsome := hds c (by simp)
      rw [hnone] at hsome
      cases hsome
    · rfl
  obtain ⟨d, ds, rfl⟩ := List.exists_cons_of_ne_nil hne
  rw [integerIn, String.toList_ofList, signed_of_digits hbase hds]
  simp only [hdrop, hn]
  rfl

theorem integerIn_of_digits {letter : Char} {base : Nat} (hb : (letter, base) ∈ baseLetters) {ds : List Char}
    (hne : ds ≠ []) (hds : ∀ c ∈ ds, (digitIn? base c).isSome = true) :
    ∃ n, integerIn base (String.ofList ds) = .ok n := by
  obtain ⟨n, hn⟩ := digitsIn?_isSome 0 hds
  exact ⟨n, integerIn_eq hb hne hds hn⟩

/-- What is left of digits without their separators. -/
theorem Digits.filter {base : Nat} {ds : List Char} (h : Digits base ds) (hbase : base ≤ 36) :
    ds.filter (· != '_') ≠ [] ∧ ∀ c ∈ ds.filter (· != '_'), (digitIn? base c).isSome = true := by
  constructor
  · obtain ⟨c, hc, hdigit⟩ := h.some
    refine List.ne_nil_of_mem (List.mem_filter.2 ⟨hc, ?_⟩)
    rw [bne_iff_ne]
    rintro rfl
    exact absurd (digit_bounds hbase hdigit) (by decide)
  · intro c hc
    rw [List.mem_filter, bne_iff_ne] at hc
    exact (h.all c hc.1).resolve_right hc.2

theorem digits_of_isLegacyOctal {cs : List Char} (h : isLegacyOctal cs = true) :
    cs ≠ [] ∧ ∀ c ∈ cs, (digitIn? 8 c).isSome = true := by
  unfold isLegacyOctal at h
  split at h
  · rename_i d ds
    rw [List.all_eq_true] at h
    refine ⟨by simp, List.forall_mem_cons.2 ⟨rfl, fun c hc => ?_⟩⟩
    have hoctal := h c hc
    simp only [Bool.and_eq_true, decide_eq_true_eq] at hoctal
    have hhi : c.toNat ≤ 55 := hoctal.2
    have hnine : c ≤ '9' := Nat.le_trans hoctal.2 (by decide)
    simp only [digitIn?, if_pos (And.intro hoctal.1 hnine)]
    rw [if_pos (by omega)]
    rfl
  · cases h

/-- Without an announced base a literal can be read. -/
theorem parseNumber_unannounced {cs : List Char} (h : ∀ c ∈ cs, baseLetter? c = none) :
    ∃ x, parseNumber (String.ofList cs) = .ok x := by
  have hfilter : ∀ c ∈ cs.filter (· != '_'), baseLetter? c = none := fun c hc => h c (List.mem_of_mem_filter hc)
  simp only [parseNumber, String.toList_ofList]
  generalize cs.filter (· != '_') = fs at hfilter
  split
  · exact ⟨_, rfl⟩
  · exact ⟨_, rfl⟩
  · split
    · rename_i base rest hannounced
      split at hannounced
      · rw [hfilter _ (by simp)] at hannounced
        cases hannounced
      · cases hannounced
    · split
      · rename_i hoctal
        obtain ⟨hne, hdigits⟩ := digits_of_isLegacyOctal hoctal
        have hletter : ('o', 8) ∈ baseLetters := by decide
        obtain ⟨n, hn⟩ := integerIn_of_digits hletter hne hdigits
        exact ⟨_, by rw [hn]; rfl⟩
      · exact ⟨_, rfl⟩

/-- Digits behind the letter of their base can be read, and with an `n` they are left alone. -/
theorem parseNumber_announced {letter : Char} {base : Nat} {ds suffix : List Char} (hb : (letter, base) ∈ baseLetters)
    (hds : Digits base ds) (hs : suffix = [] ∨ suffix = ['n']) :
    ∃ x, parseNumber (String.ofList ('0' :: letter :: (ds ++ suffix))) = .ok x := by
  have hall : ∀ e ∈ baseLetters, e.1 ≠ '_' ∧ e.2 ≤ 36 := by decide
  obtain ⟨hne, hbase⟩ := hall _ hb
  obtain ⟨hsome, hdigits⟩ := hds.filter hbase
  have hfilter : ('0' :: letter :: (ds ++ suffix)).filter (· != '_') =
      '0' :: letter :: (ds.filter (· != '_') ++ suffix) := by
    have hsuffix : suffix.filter (· != '_') = suffix := by rcases hs with rfl | rfl <;> rfl
    simp [hne, hsuffix]
  simp only [parseNumber, String.toList_ofList, hfilter]
  rcases hs with rfl | rfl
  · obtain ⟨n, hn⟩ := integerIn_of_digits hb hsome hdigits
    simp only [List.append_nil, mem_baseLetters_iff.1 hb, Option.map_some, hn]
    split <;> exact ⟨_, rfl⟩
  · have hlast : ('0' :: letter :: (ds.filter (· != '_') ++ ['n'])).getLast? = some 'n' := by
      rw [← List.cons_append, ← List.cons_append, List.getLast?_concat]
    rw [hlast]
    exact ⟨_, rfl⟩

/-! ### No part of a decimal literal announces a base -/

theorem baseLetter?_of_decimal {c : Char} (h : (digitIn? 10 c).isSome = true ∨ c = '_') : baseLetter? c = none := by
  rw [Option.eq_none_iff_forall_ne_some]
  intro base hbase
  have hall : ∀ e ∈ baseLetters, digitIn? 10 e.1 = none ∧ e.1 ≠ '_' := by decide
  obtain ⟨hnone, hne⟩ := hall _ (mem_baseLetters_iff.2 hbase)
  rcases h with hdigit | rfl
  · rw [hnone] at hdigit
    cases hdigit
  · exact hne rfl

theorem baseLetter?_of_exponent {cs : List Char} (h : ExponentPart cs) : ∀ c ∈ cs, baseLetter? c = none := by
  cases h with
  | none => simp
  | some he hsign hds =>
    intro c hc
    rw [List.mem_cons, List.mem_append] at hc
    rcases hc with rfl | hc | hc
    · rcases he with rfl | rfl <;> rfl
    · rcases hsign with rfl | rfl | rfl
      · cases hc
      · rw [List.mem_singleton.1 hc]
        rfl
      · rw [List.mem_singleton.1 hc]
        rfl
    · exact baseLetter?_of_decimal (hds.all c hc)

/-- **Reading a number literal never fails.** -/
theorem parseNumber_of_isNumeral {cs : List Char} (h : IsNumeral cs) :
    ∃ x, parseNumber (String.ofList cs) = .ok x := by
  cases h with
  | announced hb hds hs => exact parseNumber_announced hb hds hs
  | decimal hds hp he hs =>
    apply parseNumber_unannounced
    intro c hc
    simp only [List.mem_append] at hc
    rcases hc with hc | hc | hc | hc | hc
    · exact baseLetter?_of_decimal (hds.all c (List.mem_append_left _ hc))
    · rcases hp with rfl | ⟨rfl, -⟩
      · rw [List.mem_singleton.1 hc]
        rfl
      · cases hc
    · exact baseLetter?_of_decimal (hds.all c (List.mem_append_right _ hc))
    · exact baseLetter?_of_exponent he c hc
    · rcases hs with rfl | rfl
      · cases hc
      · rw [List.mem_singleton.1 hc]
        rfl

end RequestAtlas.Literal
