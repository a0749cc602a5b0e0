import RequestAtlas.Proofs.Literal.Atoms
import RequestAtlas.Proofs.Numeric.Nearest
/-!
# Integer literals in every base

`IntegerLiteral n` are the spellings of a natural number: plain decimal digits, digits behind the letter of their base,
and octal digits behind a zero, the first two kinds with separators between the digits.  A literal denotes the double
nearest to the number it spells.

Main statement `parseNumber_integerLiteral_iff`: plain decimal spellings are read as that double, all others as the
number itself.  So two spellings are read as the nearest double exactly where both are plain decimal or the number is a
double.  From `2 ^ 53 + 1` on there are numbers that are none (`parseNumber_oddBeyond`).
-/

namespace RequestAtlas.Literal

open Binary64 (Rounds IsExact value? ofDecimal rounds_ofDecimal value?_of_toInt?)

/-! ## Spellings of a number -/

/-- A character stands for a digit of a base, in either case. -/
def IsDigit (base : Nat) (c : Char) (d : Nat) : Prop :=
  d < base ∧ (c = Nat.digitChar d ∨ c = (Nat.digitChar d).toUpper)

/-- Characters spell digits, with single separators between some of them. -/
inductive SpellsDigits (base : Nat) : List Char → List Nat → Prop
  | last {c : Char} {d : Nat} (h : IsDigit base c d) : SpellsDigits base [c] [d]
  | next {c : Char} {d : Nat} {cs : List Char} {ds : List Nat} (h : IsDigit base c d) (hs : SpellsDigits base cs ds) :
      SpellsDigits base (c :: cs) (d :: ds)
  | separated {c : Char} {d : Nat} {cs : List Char} {ds : List Nat} (h : IsDigit base c d)
      (hs : SpellsDigits base cs ds) : SpellsDigits base (c :: '_' :: cs) (d :: ds)

instance (base : Nat) (c : Char) (d : Nat) : Decidable (IsDigit base c d) := inferInstanceAs (Decidable (_ ∧ _))

instance SpellsDigits.decidable (base : Nat) : (cs : List Char) → (ds : List Nat) → Decidable (SpellsDigits base cs ds)
  | [], _ => .isFalse nofun
  | _ :: _, [] => .isFalse nofun
  | [c], d :: ds => decidable_of_iff (IsDigit base c d ∧ ds = []) <| by
      constructor
      · rintro ⟨h, rfl⟩
        exact .last h
      · rintro (h | ⟨_, hs⟩)
        · exact ⟨h, rfl⟩
        · cases hs
  | c :: e :: cs, d :: ds =>
    have := SpellsDigits.decidable base (e :: cs) ds
    have := SpellsDigits.decidable base cs ds
    decidable_of_iff (IsDigit base c d ∧ (SpellsDigits base (e :: cs) ds ∨ e = '_' ∧ SpellsDigits base cs ds)) <| by
      constructor
      · rintro ⟨h, hs | ⟨rfl, hs⟩⟩
        · exact .next h hs
        · exact .separated h hs
      · intro hs
        cases hs with
        | next h hs => exact ⟨h, .inl hs⟩
        | separated h hs => exact ⟨h, .inr ⟨rfl, hs⟩⟩

/-- Decimal digits for `n`.  Behind a leading zero there is an eight or a nine, and no separator. -/
def PlainDecimal (n : Nat) (cs : List Char) : Prop :=
  ∃ ds, SpellsDigits 10 cs ds ∧ Nat.ofDigits 10 ds.reverse = n ∧
    (ds.head? = some 0 → ds = [0] ∨ '_' ∉ cs ∧ ∃ d ∈ ds, 8 ≤ d)

/-- The spellings of `n` as an integer literal. -/
inductive IntegerLiteral (n : Nat) : List Char → Prop
  | plain {cs : List Char} (h : PlainDecimal n cs) : IntegerLiteral n cs
  | announced {letter : Char} {base : Nat} {cs : List Char} {ds : List Nat} (hb : (letter, base) ∈ baseLetters)
      (h : SpellsDigits base cs ds) (hn : Nat.ofDigits base ds.reverse = n) : IntegerLiteral n ('0' :: letter :: cs)
  | legacyOctal {cs : List Char} {ds : List Nat} (h : SpellsDigits 8 cs ds) (hn : Nat.ofDigits 8 ds.reverse = n)
      (hplain : '_' ∉ cs) : IntegerLiteral n ('0' :: cs)

/-! ## What is read -/

/-- A number that was read denotes the same as a double. -/
def Denotes (v : Number) (x : Binary64) : Prop := v = .float x ∨ ∃ k : Int, v = .int k ∧ x.value? = some (k : ℚ)

/-- A literal is read as the number that a double denotes. -/
def Reads (cs : List Char) (x : Binary64) : Prop :=
  ∃ v, parseNumber (String.ofList cs) = .ok (some v) ∧ Denotes v x

theorem denotes_ofBinary64 (x : Binary64) : Denotes (Number.ofBinary64 x) x := by
  unfold Number.ofBinary64
  split
  · rename_i k hk
    split
    · exact .inr ⟨k, rfl, value?_of_toInt? hk⟩
    · exact .inl rfl
  · exact .inl rfl

theorem denotes_int_iff {n : Nat} {x : Binary64} : Denotes (.int n) x ↔ x.value? = some (n : ℚ) := by
  constructor
  · rintro (h | ⟨k, h, hk⟩)
    · cases h
    · cases h
      exact hk
  · exact fun h => .inr ⟨n, rfl, h⟩

/-! ## Digits without their separators -/

theorem IsDigit.digitIn?_eq {base : Nat} (hbase : base ≤ 16) {c : Char} {d : Nat} (h : IsDigit base c d) :
    digitIn? base c = some d := by
  have hall : ∀ base ≤ 16, ∀ d < base,
      digitIn? base (Nat.digitChar d) = some d ∧ digitIn? base (Nat.digitChar d).toUpper = some d := by decide
  obtain ⟨hd, rfl | rfl⟩ := h
  · exact (hall base hbase d hd).1
  · exact (hall base hbase d hd).2

/-- The characters of a spelling that are no separators are its digits, one for one. -/
theorem SpellsDigits.map_digitIn? {base : Nat} (hbase : base ≤ 16) {cs : List Char} {ds : List Nat}
    (h : SpellsDigits base cs ds) : (cs.filter (· != '_')).map (digitIn? base) = ds.map some := by
  have hkept : ∀ {c d}, IsDigit base c d → c ≠ '_' := by
    rintro c d hc rfl
    have hsome : (digitIn? base '_').isSome = true := by rw [hc.digitIn?_eq hbase]; rfl
    exact absurd (digit_bounds (by omega) hsome) (by decide)
  induction h with
  | last h => simp [hkept h, h.digitIn?_eq hbase]
  | next h _ ih => simp [hkept h, h.digitIn?_eq hbase, ih]
  | separated h _ ih => simp [hkept h, h.digitIn?_eq hbase, ih]

theorem SpellsDigits.ne_nil {base : Nat} {cs : List Char} {ds : List Nat} (h : SpellsDigits base cs ds) : ds ≠ [] := by
  cases h <;> simp

/-- Digits are read as the number that they are in their base. -/
theorem digitsIn?_of_map {base : Nat} {cs : List Char} {ds : List Nat} (h : cs.map (digitIn? base) = ds.map some)
    (v : Nat) : digitsIn? base cs v = some (Nat.ofDigits base (ds.reverse ++ [v])) := by
  induction cs generalizing ds v with
  | nil =>
    obtain rfl : ds = [] := List.map_eq_nil_iff.1 h.symm
    simp [digitsIn?]
  | cons c cs ih =>
    obtain ⟨d, ds, rfl, hc, hcs⟩ := List.map_eq_cons_iff.1 h.symm
    rw [digitsIn?, ← hc, Option.bind_some, ih hcs.symm]
    simp [Nat.ofDigits_append, Nat.ofDigits_cons, Nat.add_comm]

section
variable {base : Nat} (hbase : base ≤ 16) {cs : List Char} {ds : List Nat} (h : SpellsDigits base cs ds)
include hbase h

theorem SpellsDigits.filter_ne_nil : cs.filter (· != '_') ≠ [] := by
  intro hnil
  have hmap := h.map_digitIn? hbase
  rw [hnil, List.map_nil, eq_comm, List.map_eq_nil_iff] at hmap
  exact h.ne_nil hmap

theorem SpellsDigits.isSome_digitIn? : ∀ c ∈ cs.filter (· != '_'), (digitIn? base c).isSome = true := by
  intro c hc
  have hmem : digitIn? base c ∈ ds.map some := h.map_digitIn? hbase ▸ List.mem_map_of_mem hc
  obtain ⟨d, -, hd⟩ := List.mem_map.1 hmem
  rw [← hd]
  rfl

theorem SpellsDigits.digitsIn?_eq : digitsIn? base (cs.filter (· != '_')) 0 = some (Nat.ofDigits base ds.reverse) := by
  rw [digitsIn?_of_map (h.map_digitIn? hbase), Nat.ofDigits_append_zero]

/-- The last character of a literal that ends in digits is one of them, so it does not mark a big integer. -/
theorem SpellsDigits.getLast?_ne (front : List Char) : (front ++ cs.filter (· != '_')).getLast? ≠ some 'n' ∧
    (front ++ cs.filter (· != '_')).getLast? ≠ some 'N' := by
  have hnone : ∀ base ≤ 16, digitIn? base 'n' = none ∧ digitIn? base 'N' = none := by decide
  have hlast : ∀ c, digitIn? base c = none → (front ++ cs.filter (· != '_')).getLast? ≠ some c := by
    intro c hc heq
    rw [List.getLast?_append_of_ne_nil _ (h.filter_ne_nil hbase)] at heq
    have hsome := h.isSome_digitIn? hbase c (List.mem_of_getLast? heq)
    rw [hc] at hsome
    cases hsome
  exact ⟨hlast 'n' (hnone base hbase).1, hlast 'N' (hnone base hbase).2⟩

end

theorem toNat_of_digitIn? {base : Nat} (hbase : base ≤ 10) {c : Char} {d : Nat} (h : digitIn? base c = some d) :
    c.toNat = 48 + d ∧ d < base := by
  unfold digitIn? at h
  by_cases hdigit : '0' ≤ c ∧ c ≤ '9'
  · have hlo : 48 ≤ c.toNat := hdigit.1
    simp only [if_pos hdigit, Option.ite_none_right_eq_some, Option.some_inj] at h
    omega
  · simp only [if_neg hdigit, Option.ite_none_right_eq_some, Option.some_inj] at h
    split at h
    · rename_i hlower
      have hlo : 97 ≤ c.toNat := hlower.1
      omega
    · split at h
      · rename_i hupper
        have hlo : 65 ≤ c.toNat := hupper.1
        omega
      · omega

theorem isDigit_of_digitIn? {base : Nat} (hbase : base ≤ 10) {c : Char} {d : Nat} (h : digitIn? base c = some d) :
    c.isDigit = true := by
  obtain ⟨hc, hd⟩ := toNat_of_digitIn? hbase h
  rw [Char.isDigit_iff_toNat]
  exact ⟨show 48 ≤ c.toNat by omega, show c.toNat ≤ 57 by omega⟩

/-! ## Reading each kind of literal -/

/-- Digits behind the letter of their base are read as the number itself. -/
theorem parseNumber_base {letter : Char} {base : Nat} (hb : (letter, base) ∈ baseLetters) {cs : List Char}
    {ds : List Nat} (h : SpellsDigits base cs ds) :
    parseNumber (String.ofList ('0' :: letter :: cs)) = .ok (some (.int (Nat.ofDigits base ds.reverse : Nat))) := by
  have hall : ∀ e ∈ baseLetters, e.1 ≠ '_' ∧ e.2 ≤ 16 := by decide
  obtain ⟨hne, hbase⟩ := hall _ hb
  have hfilter : ('0' :: letter :: cs).filter (· != '_') = ['0', letter] ++ cs.filter (· != '_') := by simp [hne]
  have hlast := h.getLast?_ne hbase ['0', letter]
  simp only [parseNumber, String.toList_ofList, hfilter]
  split
  · exact absurd ‹_› hlast.1
  · exact absurd ‹_› hlast.2
  · simp only [List.cons_append, List.nil_append, mem_baseLetters_iff.1 hb, Option.map_some,
      integerIn_eq hb (h.filter_ne_nil hbase) (h.isSome_digitIn? hbase) (h.digitsIn?_eq hbase)]
    rfl

theorem isLegacyOctal_of_octal {cs : List Char} {ds : List Nat} (h : SpellsDigits 8 cs ds) :
    isLegacyOctal ('0' :: cs.filter (· != '_')) = true := by
  have hdigits := h.isSome_digitIn? (by decide)
  obtain ⟨c, fs, hfs⟩ := List.exists_cons_of_ne_nil (h.filter_ne_nil (by decide))
  rw [hfs] at hdigits ⊢
  rw [isLegacyOctal, List.all_eq_true]
  intro c hc
  obtain ⟨d, hd⟩ := Option.isSome_iff_exists.1 (hdigits c hc)
  have hvalue := toNat_of_digitIn? (by decide) hd
  have hlo : '0' ≤ c := show 48 ≤ c.toNat by omega
  have hhi : c ≤ '7' := show c.toNat ≤ 55 by omega
  simp [hlo, hhi]

/-- Octal digits behind a zero are read as the number itself. -/
theorem parseNumber_octal {cs : List Char} {ds : List Nat} (h : SpellsDigits 8 cs ds) :
    parseNumber (String.ofList ('0' :: cs)) = .ok (some (.int (Nat.ofDigits 8 ds.reverse : Nat))) := by
  have hzero : SpellsDigits 8 ('0' :: cs) (0 :: ds) := .next ⟨by decide, .inl rfl⟩ h
  have hfilter : ('0' :: cs).filter (· != '_') = '0' :: cs.filter (· != '_') := by simp
  have hvalue : Nat.ofDigits 8 (0 :: ds).reverse = Nat.ofDigits 8 ds.reverse := by
    rw [List.reverse_cons, Nat.ofDigits_append_zero]
  have hlast := hzero.getLast?_ne (by decide) []
  have hinteger := integerIn_eq (by decide : ('o', 8) ∈ baseLetters) (hzero.filter_ne_nil (by decide))
    (hzero.isSome_digitIn? (by decide)) (hzero.digitsIn?_eq (by decide))
  have hletter : ∀ c ∈ cs.filter (· != '_'), baseLetter? c = none := by
    intro c hc
    obtain ⟨d, hd⟩ := Option.isSome_iff_exists.1 (h.isSome_digitIn? (by decide) c hc)
    refine baseLetter?_of_decimal (.inl ?_)
    rw [digitIn?_of_isDigit (isDigit_of_digitIn? (by decide) hd)]
    rfl
  rw [hvalue, hfilter] at hinteger
  rw [List.nil_append, hfilter] at hlast
  simp only [parseNumber, String.toList_ofList, hfilter, isLegacyOctal_of_octal h, hinteger]
  split
  · exact absurd ‹_› hlast.1
  · exact absurd ‹_› hlast.2
  · split
    · rename_i hannounced
      split at hannounced
      · rename_i heq
        rw [hletter _ ((List.cons.inj heq).2 ▸ List.mem_cons_self)] at hannounced
        cases hannounced
      · cases hannounced
    · rfl

/-- Decimal digits are not octal where there is no zero in front of others, or an eight or a nine among them. -/
theorem isLegacyOctal_of_decimal {cs : List Char} {ds : List Nat} (h : SpellsDigits 10 cs ds)
    (hzero : ds.head? = some 0 → ds = [0] ∨ ∃ d ∈ ds, 8 ≤ d) : isLegacyOctal (cs.filter (· != '_')) = false := by
  have hmap := h.map_digitIn? (by decide)
  generalize cs.filter (· != '_') = fs at hmap
  rw [Bool.eq_false_iff]
  intro hoctal
  have hdigits := (digits_of_isLegacyOctal hoctal).2
  have hsmall : ∀ d ∈ ds, d < 8 := by
    intro d hd
    obtain ⟨c, hc, hvalue⟩ := List.mem_map.1 (hmap ▸ List.mem_map_of_mem hd : some d ∈ fs.map (digitIn? 10))
    obtain ⟨e, he⟩ := Option.isSome_iff_exists.1 (hdigits c hc)
    have hten := toNat_of_digitIn? le_rfl hvalue
    have height := toNat_of_digitIn? (by decide) he
    omega
  unfold isLegacyOctal at hoctal
  split at hoctal
  · obtain ⟨d, ds, rfl, hd, hrest⟩ := List.map_eq_cons_iff.1 hmap.symm
    obtain rfl : d = 0 := Option.some.inj hd
    rcases hzero rfl with halone | ⟨e, he, hlarge⟩
    · cases halone
      cases hrest
    · exact absurd (hsmall e he) (Nat.not_lt.2 hlarge)
  · cases hoctal

/-- Plain decimal digits are read as the nearest double. -/
theorem PlainDecimal.parseNumber_eq {n : Nat} {cs : List Char} (h : PlainDecimal n cs) :
    parseNumber (String.ofList cs) = .ok (some (Number.ofBinary64 (ofDecimal false n 0))) := by
  obtain ⟨ds, hds, rfl, hzero⟩ := h
  have hoctal := isLegacyOctal_of_decimal hds fun hhead => (hzero hhead).imp_right And.right
  refine parseNumber_decimal (hds.filter_ne_nil (by decide)) (fun c hc => ?_) hoctal (hds.digitsIn?_eq (by decide))
  obtain ⟨d, hd⟩ := Option.isSome_iff_exists.1 (hds.isSome_digitIn? (by decide) c hc)
  exact isDigit_of_digitIn? le_rfl hd

/-- All other literals are read as the number itself. -/
theorem IntegerLiteral.parseNumber_eq {n : Nat} {cs : List Char} (h : IntegerLiteral n cs)
    (hplain : ¬ PlainDecimal n cs) : parseNumber (String.ofList cs) = .ok (some (.int n)) := by
  cases h with
  | plain h => exact absurd h hplain
  | announced hb h hn =>
    subst hn
    exact parseNumber_base hb h
  | legacyOctal h hn =>
    subst hn
    exact parseNumber_octal h

/-! ## Two spellings of one number -/

theorem PlainDecimal.reads {n : Nat} {cs : List Char} (h : PlainDecimal n cs) : Reads cs (ofDecimal false n 0) :=
  ⟨_, h.parseNumber_eq, denotes_ofBinary64 _⟩

/-- A number that is a double is read as that double, however it is spelled. -/
theorem IntegerLiteral.reads {n : Nat} {cs : List Char} (h : IntegerLiteral n cs) (hn : IsExact n) :
    Reads cs (ofDecimal false n 0) := by
  by_cases hplain : PlainDecimal n cs
  · exact hplain.reads
  · exact ⟨_, h.parseNumber_eq hplain, denotes_int_iff.2 ((rounds_ofDecimal n).value?_of_isExact hn)⟩

/-- A spelling that is not plain decimal is read as the nearest double only where the number is one. -/
theorem IntegerLiteral.isExact_of_reads {n : Nat} {cs : List Char} (h : IntegerLiteral n cs)
    (hplain : ¬ PlainDecimal n cs) {x : Binary64} (hx : Rounds n x) (hreads : Reads cs x) : IsExact n := by
  obtain ⟨v, hv, hdenotes⟩ := hreads
  rw [h.parseNumber_eq hplain] at hv
  cases hv
  exact hx.isExact_of_value? (denotes_int_iff.1 hdenotes)

/-- **Plain decimal spellings of a number are read as the nearest double, its other spellings as the number itself**, so
two spellings are both read as the nearest double exactly where both are plain decimal or the number is a double. -/
theorem parseNumber_integerLiteral_iff {n : Nat} {s t : List Char} (hs : IntegerLiteral n s)
    (ht : IntegerLiteral n t) :
    (PlainDecimal n s → ∃ x, Rounds n x ∧ Reads s x) ∧
      (¬ PlainDecimal n s → parseNumber (String.ofList s) = .ok (some (.int n))) ∧
      ((∃ x, Rounds n x ∧ Reads s x ∧ Reads t x) ↔ PlainDecimal n s ∧ PlainDecimal n t ∨ IsExact n) := by
  refine ⟨fun h => ⟨_, rounds_ofDecimal n, h.reads⟩, hs.parseNumber_eq, ?_, ?_⟩
  · rintro ⟨x, hx, hreads, hreadt⟩
    by_cases hps : PlainDecimal n s
    · by_cases hpt : PlainDecimal n t
      · exact .inl ⟨hps, hpt⟩
      · exact .inr (ht.isExact_of_reads hpt hx hreadt)
    · exact .inr (hs.isExact_of_reads hps hx hreads)
  · rintro (⟨hps, hpt⟩ | hn)
    · exact ⟨_, rounds_ofDecimal n, hps.reads, hpt.reads⟩
    · exact ⟨_, rounds_ofDecimal n, hs.reads hn, ht.reads hn⟩

theorem parseNumber_integerLiteral_iff_separated :
    let s := "9_007_199_254_740_994".toList
    let t := "0x20_0000_0000_0002".toList
    IntegerLiteral 9007199254740994 s ∧ IntegerLiteral 9007199254740994 t ∧
      ∃ x, Rounds 9007199254740994 x ∧ Reads s x ∧ Reads t x := by
  have hs : IntegerLiteral 9007199254740994 "9_007_199_254_740_994".toList :=
    .plain ⟨[9, 0, 0, 7, 1, 9, 9, 2, 5, 4, 7, 4, 0, 9, 9, 4], by decide, by decide, by decide⟩
  have ht : IntegerLiteral 9007199254740994 "0x20_0000_0000_0002".toList :=
    @IntegerLiteral.announced _ 'x' 16 _ [2, 0, 0, 0, 0, 0, 0, 0, 0, 0, 0, 0, 0, 2] (by decide) (by decide) (by decide)
  have hexact : IsExact 9007199254740994 := ⟨2 ^ 52 + 1, 1, by decide, by decide, by decide⟩
  exact ⟨hs, ht, (parseNumber_integerLiteral_iff hs ht).2.2.2 (.inr hexact)⟩

/-- The first number that is no double is read in two ways. -/
theorem parseNumber_oddBeyond :
    let s := "9007199254740993".toList
    let t := "0x20000000000001".toList
    IntegerLiteral 9007199254740993 s ∧ IntegerLiteral 9007199254740993 t ∧
      parseNumber (String.ofList s) = .ok (some (.int 9007199254740992)) ∧
      parseNumber (String.ofList t) = .ok (some (.int 9007199254740993)) ∧
      ¬ ∃ x, Rounds 9007199254740993 x ∧ Reads s x ∧ Reads t x := by
  intro s t
  have hs : parseNumber (String.ofList s) = .ok (some (.int (9007199254740992 : Nat))) := by decide
  have ht : parseNumber (String.ofList t) = .ok (some (.int (9007199254740993 : Nat))) := by decide
  refine ⟨?_, ?_, hs, ht, ?_⟩
  · exact .plain ⟨[9, 0, 0, 7, 1, 9, 9, 2, 5, 4, 7, 4, 0, 9, 9, 3], by decide, by decide, by decide⟩
  · exact @IntegerLiteral.announced _ 'x' 16 _ [2, 0, 0, 0, 0, 0, 0, 0, 0, 0, 0, 0, 0, 1] (by decide) (by decide)
      (by decide)
  · rintro ⟨x, -, ⟨v, hv, hx⟩, w, hw, hx'⟩
    rw [hs] at hv
    rw [ht] at hw
    cases hv
    cases hw
    have heq := (denotes_int_iff.1 hx).symm.trans (denotes_int_iff.1 hx')
    norm_num at heq

end RequestAtlas.Literal
