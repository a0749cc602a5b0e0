import RequestAtlas.Proofs.Json.Reader
import RequestAtlas.Value.Printer
/-!
# What is written is read back: texts and numbers

The leaves of a document.  A written text reads back as itself, whatever characters it holds (`text?_escaped`),
an integer as itself (`number?_int`), and the text of a finite double is a number with a fraction or an exponent
in the sense of the standard (`number?_finite`), because its first digit is no zero unless it is the only one in
front of the point.
-/

namespace RequestAtlas

namespace Text

/-- The scalar values leave out the surrogates. -/
theorem isSurrogate_toNat (c : Char) : isSurrogate c.toNat = false := by
  have hv : c.toNat < 0xd800 ∨ (0xdfff < c.toNat ∧ c.toNat < 0x110000) := c.valid
  simp only [isSurrogate, Bool.and_eq_false_iff, decide_eq_false_iff_not]
  omega

theorem isHighSurrogate_toNat (c : Char) : isHighSurrogate c.toNat = false := by
  have hs := isSurrogate_toNat c
  simp only [isSurrogate, isHighSurrogate, Bool.and_eq_false_iff, decide_eq_false_iff_not] at hs ⊢
  omega

/-- A unit that is no surrogate stands for itself, whatever follows. -/
theorem decodeUnits_cons_plain (c : Char) (us : List Nat) :
    decodeUnits (c.toNat :: us) = c :: decodeUnits us := by
  cases us with
  | nil => simp [decodeUnits, isSurrogate_toNat]
  | cons v us => simp [decodeUnits, isSurrogate_toNat, isHighSurrogate_toNat]

/-- The two units of a character beyond the first plane join. -/
theorem decodeUnits_cons_pair {n : Nat} (hlo : 0x10000 ≤ n) (hhi : n < 0x110000) (us : List Nat) :
    decodeUnits ((0xd800 + (n - 0x10000) / 0x400) :: (0xdc00 + (n - 0x10000) % 0x400) :: us) =
      Char.ofNat n :: decodeUnits us := by
  have hu : isHighSurrogate (0xd800 + (n - 0x10000) / 0x400) = true := by
    simp only [isHighSurrogate, Bool.and_eq_true, decide_eq_true_eq]; omega
  have hv : isLowSurrogate (0xdc00 + (n - 0x10000) % 0x400) = true := by
    simp only [isLowSurrogate, Bool.and_eq_true, decide_eq_true_eq]; omega
  have hn : 0x10000 + (0xd800 + (n - 0x10000) / 0x400 - 0xd800) * 0x400 +
      (0xdc00 + (n - 0x10000) % 0x400 - 0xdc00) = n := by omega
  rw [decodeUnits, hu, hv, hn]
  rfl

/-- Decoding the code points of a text gives the text. -/
theorem decodePoints_toNat : ∀ cs : List Char, decodePoints (cs.map Char.toNat) = cs
  | [] => rfl
  | c :: cs => by
    have ih := decodePoints_toNat cs
    simp only [decodePoints, List.map_cons, List.flatMap_cons] at ih ⊢
    by_cases h : c.toNat < 0x10000
    · rw [unitsOf, if_pos h, List.singleton_append, decodeUnits_cons_plain, ih]
    · have hv : c.toNat < 0xd800 ∨ (0xdfff < c.toNat ∧ c.toNat < 0x110000) := c.valid
      rw [unitsOf, if_neg h, List.cons_append, List.singleton_append,
        decodeUnits_cons_pair (by omega) (by omega), ih, Char.ofNat_toNat]

end Text

namespace Json

open Value (escapeChar writeString)

/-! ## Texts -/

/-- Four hexadecimal digits spell a number below 32. -/
theorem hexPadded_four : ∀ n, n < 32 →
    Text.hexPadded 4 n = ['0', '0', Nat.digitChar (n / 16), Nat.digitChar (n % 16)] := by
  decide

theorem fourDigits?_small : ∀ n, n < 32 →
    fourDigits? '0' '0' (Nat.digitChar (n / 16)) (Nat.digitChar (n % 16)) = some n := by
  decide

theorem points?_cons_plain {c : Char} (hq : c ≠ '"') (hb : c ≠ '\\') (h : ¬ c.toNat < 32) (cs : List Char) :
    points? (c :: cs) = (points? cs).map fun r => (c.toNat :: r.1, r.2) := by
  rw [points?, if_neg (not_or.2 ⟨hb, h⟩)]
  · exact hq
  · exact fun _ _ _ _ _ hc => absurd hc hb
  · exact fun _ _ hc => absurd hc hb

theorem points?_cons_letter {c : Char} {n : Nat} (h : letterEscape? c = some n) (cs : List Char) :
    points? ('\\' :: c :: cs) = (points? cs).map fun r => (n :: r.1, r.2) := by
  have hu : c ≠ 'u' := by rintro rfl; simp [letterEscape?] at h
  rw [points?, h, Option.bind_some]
  exact fun _ _ _ _ _ hc => absurd hc hu

/-- One written character reads back as itself. -/
theorem points?_escapeChar (c : Char) (cs : List Char) :
    points? (escapeChar c ++ cs) = (points? cs).map fun r => (c.toNat :: r.1, r.2) := by
  unfold escapeChar
  split
  case h_8 hq hb hn hr ht h8 hf =>
    split
    · rename_i h
      rw [hexPadded_four _ h]
      simp only [List.cons_append, List.nil_append, points?, fourDigits?_small _ h, Option.bind_some]
    · rename_i h
      exact points?_cons_plain hq hb h cs
  all_goals exact points?_cons_letter rfl cs

theorem points?_escaped : ∀ (cs rest : List Char),
    points? (cs.flatMap escapeChar ++ '"' :: rest) = some (cs.map Char.toNat, rest)
  | [], rest => by simp [points?]
  | c :: cs, rest => by
    rw [List.flatMap_cons, List.append_assoc, points?_escapeChar, points?_escaped cs rest]
    rfl

/-- A written text reads back as itself. -/
theorem text?_escaped (s : String) (rest : List Char) :
    text? (s.toList.flatMap escapeChar ++ '"' :: rest) = some (s, rest) := by
  simp only [text?, points?_escaped, Option.map_some, Text.decodePoints_toNat, String.ofList_toList]

/-! ## Digits -/

theorem toDigits_all (n : Nat) : (Nat.toDigits 10 n).all Char.isDigit = true := by
  rw [List.all_eq_true]
  exact fun c hc => Nat.isDigit_of_mem_toDigits (by decide) (by decide) hc

theorem isDigits_toDigits (n : Nat) : isDigits (Nat.toDigits 10 n) = true := by
  simp [isDigits, -List.all_eq_true, toDigits_all]

/-- No zero stands in front of the digits of a positive number. -/
theorem toDigits_head_ne_zero : ∀ {n : Nat}, n ≠ 0 → ∀ c ∈ (Nat.toDigits 10 n).head?, c ≠ '0' := by
  intro n
  induction n using Nat.strongRecOn with
  | _ n ih =>
    intro hn c hc
    rw [Nat.toDigits_eq_if (by decide)] at hc
    split at hc
    · simp only [List.head?_cons, Option.mem_def, Option.some.injEq] at hc
      rw [← hc]
      simpa using hn
    · obtain ⟨d, ds, hd⟩ := List.exists_cons_of_ne_nil (Nat.toDigits_ne_nil (n := n / 10) (b := 10))
      have ih' := ih (n / 10) (by omega) (by omega) c
      rw [hd] at hc ih'
      exact ih' hc

/-- Digits that do not start with a zero spell a whole number. -/
theorem isWhole_of_head {ds : List Char} (h : isDigits ds = true) (h0 : ∀ c ∈ ds.head?, c ≠ '0') :
    isWhole ds = true := by
  unfold isWhole
  split
  · rfl
  · exact absurd rfl (h0 '0' (by simp))
  · exact h

theorem isWhole_toDigits (n : Nat) : isWhole (Nat.toDigits 10 n) = true := by
  by_cases hn : n = 0
  · subst hn; rfl
  · exact isWhole_of_head (isDigits_toDigits n) (toDigits_head_ne_zero hn)

/-! ## Numbers -/

theorem takeWhile_digits {ds rest : List Char} (hd : ds.all Char.isDigit = true)
    (hr : ∀ c ∈ rest.head?, c.isDigit = false) :
    (ds ++ rest).takeWhile Char.isDigit = ds ∧ (ds ++ rest).dropWhile Char.isDigit = rest := by
  rw [List.all_eq_true] at hd
  rw [List.takeWhile_append_of_pos hd, List.dropWhile_append_of_pos hd]
  cases rest with
  | nil => simp
  | cons c rest =>
    have hc : c.isDigit = false := hr c (by simp)
    simp [hc]

/-- Digits alone spell an integer. -/
theorem unsigned?_digits (negative : Bool) (n : Nat) :
    unsigned? negative (Nat.toDigits 10 n) = some (.int (if negative then -(n : Int) else n)) := by
  have hstop : ∀ c ∈ ([] : List Char).head?, c.isDigit = false := by simp
  have h := takeWhile_digits (toDigits_all n) hstop
  rw [List.append_nil] at h
  simp [unsigned?, h.1, h.2, isWhole_toDigits, isFraction, isExponent]

/-- A whole number with more behind it spells a real. -/
theorem unsigned?_real {whole fraction : List Char} (negative : Bool) (hw : isWhole whole = true)
    (hd : whole.all Char.isDigit = true) (hf : isFraction fraction = true) (hne : fraction ≠ [])
    (hr : ∀ c ∈ fraction.head?, c.isDigit = false) :
    unsigned? negative (whole ++ fraction) =
      some (.real (String.ofList (if negative then '-' :: (whole ++ fraction) else whole ++ fraction))) := by
  have h := takeWhile_digits hd hr
  simp [unsigned?, h.1, h.2, hw, hf, hne]

/-- A sign in front of digits is read as such. -/
theorem number?_signed {ds : List Char} (negative : Bool) (h : ∀ c ∈ ds.head?, c.isDigit = true) :
    number? (if negative then '-' :: ds else ds) = unsigned? negative ds := by
  cases negative with
  | true => rfl
  | false =>
    rw [if_neg (by simp)]
    unfold number?
    split
    · exact absurd (h '-' (by simp)) (by decide)
    · rfl

theorem toList_toString_int (n : Int) : (toString n).toList =
    if n < 0 then '-' :: Nat.toDigits 10 n.natAbs else Nat.toDigits 10 n.natAbs := by
  rw [Int.toString_eq_repr, Int.repr_eq_if]
  by_cases h : n < 0
  · rw [if_neg (by omega), if_pos h, String.toList_append, Nat.toList_repr, show (-n).toNat = n.natAbs by omega]
    rfl
  · rw [if_pos (by omega), if_neg h, Nat.toList_repr, show n.toNat = n.natAbs by omega]

theorem toDigits_head_isDigit (n : Nat) : ∀ c ∈ (Nat.toDigits 10 n).head?, c.isDigit = true := by
  intro c hc
  exact Nat.isDigit_of_mem_toDigits (by decide) (by decide) (List.mem_of_mem_head? hc)

/-- A written integer reads back as itself. -/
theorem number?_int (n : Int) : number? (toString n).toList = some (.int n) := by
  have h := number?_signed (decide (n < 0)) (toDigits_head_isDigit n.natAbs)
  simp only [decide_eq_true_eq] at h
  rw [toList_toString_int, h, unsigned?_digits]
  by_cases hn : n < 0
  · simp only [hn, decide_true, if_true]
    rw [show -(n.natAbs : Int) = n by omega]
  · simp only [hn, decide_false, Bool.false_eq_true, if_false]
    rw [show (n.natAbs : Int) = n by omega]

/-! ## Doubles -/

theorem isDigits_append {ds es : List Char} (hd : ds.all Char.isDigit = true) (he : isDigits es = true) :
    isDigits (ds ++ es) = true := by
  simp only [isDigits, Bool.and_eq_true, Bool.not_eq_true', List.isEmpty_eq_false_iff] at he ⊢
  exact ⟨by simp [he.1], by rw [List.all_append, hd, he.2]; rfl⟩

theorem all_zeros (n : Nat) : (List.replicate n '0').all Char.isDigit = true := by
  rw [List.all_eq_true]
  intro c hc
  rw [(List.mem_replicate.1 hc).2]
  rfl

theorem isDigits_all {ds : List Char} (h : isDigits ds = true) : ds.all Char.isDigit = true := by
  simp only [isDigits, Bool.and_eq_true] at h
  exact h.2

/-- A point and digits are a fraction, with or without an exponent behind. -/
theorem isFraction_point {ds tail : List Char} (hd : isDigits ds = true) (ht : isExponent tail = true)
    (hr : ∀ c ∈ tail.head?, c.isDigit = false) : isFraction ('.' :: (ds ++ tail)) = true := by
  have h := takeWhile_digits (isDigits_all hd) hr
  simp [isFraction, h.1, h.2, hd, ht]

/-- An exponent as the layout writes it. -/
theorem isExponent_signed {ds : List Char} (negative : Prop) [Decidable negative] (h : isDigits ds = true) :
    isExponent ('e' :: (if negative then '-' else '+') :: ds) = true := by
  by_cases hn : negative <;> simp [isExponent, dropSign, hn, h]

/-- Digits in which a zero in front stands alone, at the place of the units. -/
def Leading (digits : List Char) (lead : Int) : Prop :=
  isDigits digits = true ∧ ((∀ c ∈ digits.head?, c ≠ '0') ∨ (digits = ['0'] ∧ lead = 0))

open NumberLayout (positional scientific)

/-- A positional layout is a whole number, a point and more digits. -/
theorem positional_split {digits : List Char} {lead : Int} (h : Leading digits lead) :
    ∃ whole behind, positional digits lead = whole ++ '.' :: behind ∧ isWhole whole = true ∧
      whole.all Char.isDigit = true ∧ isDigits behind = true := by
  obtain ⟨hd, h0⟩ := h
  have hall := isDigits_all hd
  unfold positional
  split
  · exact ⟨['0'], List.replicate (-lead - 1).toNat '0' ++ digits, by simp, rfl, rfl,
      isDigits_append (all_zeros _) hd⟩
  · simp only
    split
    · refine ⟨digits ++ List.replicate (lead.toNat + 1 - digits.length) '0', ['0'], by simp, ?_, ?_, rfl⟩
      · rcases h0 with h0 | ⟨rfl, rfl⟩
        · obtain ⟨d, ds, rfl⟩ : ∃ d ds, digits = d :: ds := by
            cases digits with
            | nil => simp [isDigits] at hd
            | cons d ds => exact ⟨d, ds, rfl⟩
          apply isWhole_of_head _ (by simpa using h0)
          simp only [isDigits, List.all_append, hall, all_zeros]
          rfl
        · rfl
      · rw [List.all_append, hall, all_zeros]; rfl
    · rename_i hlen
      have hdrop : isDigits (digits.drop (lead.toNat + 1)) = true := by
        simp only [isDigits, Bool.and_eq_true, Bool.not_eq_true', List.isEmpty_eq_false_iff]
        refine ⟨?_, List.all_eq_true.2 fun c hc => List.all_eq_true.1 hall c (List.mem_of_mem_drop hc)⟩
        intro hnil
        have := congrArg List.length hnil
        simp only [List.length_drop, List.length_nil] at this
        omega
      have htake : (digits.take (lead.toNat + 1)).all Char.isDigit = true :=
        List.all_eq_true.2 fun c hc => List.all_eq_true.1 hall c (List.mem_of_mem_take hc)
      refine ⟨digits.take (lead.toNat + 1), digits.drop (lead.toNat + 1), by simp, ?_, htake, hdrop⟩
      rcases h0 with h0 | ⟨rfl, rfl⟩
      · cases digits with
        | nil => simp [isDigits] at hd
        | cons d ds =>
          apply isWhole_of_head _ (by simpa using h0)
          simp only [isDigits, htake]
          rfl
      · simp at hlen

/-- A layout with an exponent is a digit and a fraction. -/
theorem scientific_split {digits : List Char} (lead : Int) (hd : isDigits digits = true) (width : Nat) :
    ∃ d fraction, scientific width digits lead = d :: fraction ∧ d.isDigit = true ∧
      isFraction fraction = true ∧ fraction ≠ [] ∧ ∀ c ∈ fraction.head?, c.isDigit = false := by
  have hexp : isDigits (List.replicate (width - (Nat.toDigits 10 lead.natAbs).length) '0' ++
      Nat.toDigits 10 lead.natAbs) = true :=
    isDigits_append (all_zeros _) (isDigits_toDigits _)
  have htail := isExponent_signed (lead < 0) hexp
  have hall := isDigits_all hd
  unfold scientific
  match digits, hd, hall with
  | [], hd, _ => simp [isDigits] at hd
  | [d], _, hall =>
    refine ⟨d, _, by simp; rfl, by simpa using hall, ?_, by simp, by simp⟩
    simpa [isFraction] using htail
  | d :: c :: ds, _, hall =>
    simp only [List.all_cons, Bool.and_eq_true] at hall
    refine ⟨d, _, by simp; rfl, hall.1, ?_, by simp, by simp⟩
    have hcs : isDigits (c :: ds) = true := by simp [isDigits, hall.2.1, hall.2.2, -List.all_eq_true]
    simpa using isFraction_point hcs htail (by simp)

/-- What a decimal reads back as a double other than zero is not zero. -/
theorem shortestFrom_ne_zero {m : Nat} (hm : m ≠ 0) (e lead : Int) : ∀ fuel count : Nat,
    (Binary64.shortestFrom m e lead fuel count).1 ≠ 0
  | 0, _ => hm
  | fuel + 1, count => by
    have reads : ∀ x, (Binary64.ofDecimal false x (lead + 1 - count) == Binary64.finite false m e) = true →
        x ≠ 0 := by
      rintro x hx rfl
      simp only [Binary64.ofDecimal, if_true, beq_iff_eq, Binary64.finite.injEq] at hx
      exact hm hx.2.1.symm
    have tried : ∀ near far : Nat,
        (if Binary64.ofDecimal false near (lead + 1 - count) == Binary64.finite false m e then
          (near, lead + 1 - count)
        else if Binary64.ofDecimal false far (lead + 1 - count) == Binary64.finite false m e then
          (far, lead + 1 - count)
        else Binary64.shortestFrom m e lead fuel (count + 1)).1 ≠ 0 := by
      intro near far
      split
      · exact reads _ ‹_›
      · split
        · exact reads _ ‹_›
        · exact shortestFrom_ne_zero hm e lead fuel (count + 1)
    simp only [Binary64.shortestFrom]
    split <;> exact tried _ _

theorem stripZeros_ne_zero : ∀ (fuel x : Nat) (k : Int), x ≠ 0 → (Binary64.stripZeros fuel x k).1 ≠ 0
  | 0, _, _, hx => hx
  | fuel + 1, x, k, hx => by
    unfold Binary64.stripZeros
    split
    · rename_i h
      simp only [ne_eq, Bool.and_eq_true, decide_eq_true_eq] at h
      exact stripZeros_ne_zero fuel (x / 10) (k + 1) (by omega)
    · exact hx

/-- The digits of a double start with no zero, unless it is zero. -/
theorem leading_shortest (m : Nat) (e : Int) :
    Leading (Nat.toDigits 10 (Binary64.shortest m e).1)
      ((Binary64.shortest m e).2 + (Nat.toDigits 10 (Binary64.shortest m e).1).length - 1) := by
  refine ⟨isDigits_toDigits _, ?_⟩
  by_cases hm : m = 0
  · have h0 : Binary64.shortest m e = (0, 0) := by simp [Binary64.shortest, hm]
    rw [h0]
    exact .inr ⟨rfl, rfl⟩
  · left
    apply toDigits_head_ne_zero
    simp only [Binary64.shortest, hm, if_false]
    exact stripZeros_ne_zero _ _ _ (shortestFrom_ne_zero hm _ _ _ _)

/-- The digits and the layout of a finite double, without its sign. -/
def magnitude (l : NumberLayout) (m : Nat) (e : Int) : List Char :=
  let (x, k) := Binary64.shortest m e
  let digits := Nat.toDigits 10 x
  let lead : Int := k + digits.length - 1
  if l.positionalFrom ≤ lead && lead < l.positionalTo then positional digits lead
  else scientific l.exponentDigits digits lead

theorem render_finite (l : NumberLayout) (s : Bool) (m : Nat) (e : Int) :
    l.render (.finite s m e) = String.ofList (if s then '-' :: magnitude l m e else magnitude l m e) := rfl

/-- The magnitude of a double is a whole number with more behind it. -/
theorem magnitude_split (l : NumberLayout) (m : Nat) (e : Int) :
    ∃ whole fraction, magnitude l m e = whole ++ fraction ∧ isWhole whole = true ∧
      whole.all Char.isDigit = true ∧ isFraction fraction = true ∧ fraction ≠ [] ∧
      ∀ c ∈ fraction.head?, c.isDigit = false := by
  have hl := leading_shortest m e
  simp only [magnitude]
  split
  · obtain ⟨whole, behind, heq, hw, hd, hb⟩ := positional_split hl
    refine ⟨whole, '.' :: behind, heq, hw, hd, ?_, by simp, by simp⟩
    have hexp : isExponent [] = true := rfl
    simpa using isFraction_point hb hexp (by simp)
  · obtain ⟨d, fraction, heq, hd, hf, hne, hr⟩ := scientific_split
      ((Binary64.shortest m e).2 + (Nat.toDigits 10 (Binary64.shortest m e).1).length - 1) hl.1 l.exponentDigits
    refine ⟨[d], fraction, heq, ?_, by simpa using hd, hf, hne, hr⟩
    unfold isWhole
    split
    · rfl
    · rename_i h; cases h; contradiction
    · simpa [isDigits] using hd

/-- The text of a finite double is that of a number which is no integer. -/
theorem number?_finite (l : NumberLayout) (s : Bool) (m : Nat) (e : Int) :
    number? (l.render (.finite s m e)).toList = some (.real (l.render (.finite s m e))) := by
  obtain ⟨whole, fraction, heq, hw, hd, hf, hne, hr⟩ := magnitude_split l m e
  have hhead : ∀ c ∈ (whole ++ fraction).head?, c.isDigit = true := by
    cases whole with
    | nil => simp [isWhole, isDigits] at hw
    | cons d ds =>
      simp only [List.all_cons, Bool.and_eq_true] at hd
      simpa using hd.1
  rw [render_finite, heq, String.toList_ofList, number?_signed s hhead, unsigned?_real s hw hd hf hne hr]

/-! ## Where a number ends -/

theorem isNumeral_of_isDigit {c : Char} (h : c.isDigit = true) : isNumeral c = true := by
  simp [isNumeral, h]

theorem numerals_of_digits {ds : List Char} (h : ds.all Char.isDigit = true) : ∀ c ∈ ds, isNumeral c = true :=
  fun c hc => isNumeral_of_isDigit (List.all_eq_true.1 h c hc)

theorem numerals_of_isExponent : ∀ {cs : List Char}, isExponent cs = true → ∀ c ∈ cs, isNumeral c = true
  | [], _, c, hc => by simp at hc
  | e :: cs, h, c, hc => by
    simp only [isExponent, Bool.and_eq_true, Bool.or_eq_true, beq_iff_eq] at h
    rcases List.mem_cons.1 hc with rfl | hc
    · rcases h.1 with rfl | rfl <;> rfl
    · have hd := numerals_of_digits (isDigits_all h.2)
      unfold dropSign at hd
      split at hd
      · rcases List.mem_cons.1 hc with rfl | hc
        · rfl
        · exact hd c hc
      · rcases List.mem_cons.1 hc with rfl | hc
        · rfl
        · exact hd c hc
      · exact hd c hc

theorem numerals_of_split {cs : List Char} (h : ∀ c ∈ cs.dropWhile Char.isDigit, isNumeral c = true) :
    ∀ c ∈ cs, isNumeral c = true := by
  intro c hc
  rw [← List.takeWhile_append_dropWhile (p := Char.isDigit) (l := cs), List.mem_append] at hc
  rcases hc with hc | hc
  · exact numerals_of_digits List.all_takeWhile c hc
  · exact h c hc

theorem numerals_of_isFraction {cs : List Char} (h : isFraction cs = true) : ∀ c ∈ cs, isNumeral c = true := by
  unfold isFraction at h
  split at h
  · rename_i cs
    rw [Bool.and_eq_true] at h
    intro c hc
    rcases List.mem_cons.1 hc with rfl | hc
    · rfl
    · exact numerals_of_split (numerals_of_isExponent h.2) c hc
  · exact numerals_of_isExponent h

theorem numerals_of_unsigned? {negative : Bool} {cs : List Char} {v : Json} (h : unsigned? negative cs = some v) :
    ∀ c ∈ cs, isNumeral c = true := by
  simp only [unsigned?] at h
  split at h
  · rename_i hw
    rw [Bool.and_eq_true] at hw
    exact numerals_of_split (numerals_of_isFraction hw.2)
  · cases h

/-- The spelling of a number holds nothing but parts of numbers. -/
theorem numerals_of_number? {cs : List Char} {v : Json} (h : number? cs = some v) :
    ∀ c ∈ cs, isNumeral c = true := by
  unfold number? at h
  split at h
  · intro c hc
    rcases List.mem_cons.1 hc with rfl | hc
    · rfl
    · exact numerals_of_unsigned? h c hc
  · exact numerals_of_unsigned? h

/-- What may follow a number: nothing, or a character that is no part of one. -/
def Stops (rest : List Char) : Prop := ∀ c ∈ rest.head?, isNumeral c = false

theorem stops_cons {c : Char} (h : isNumeral c = false) (rest : List Char) : Stops (c :: rest) := by
  simpa [Stops] using h

theorem takeWhile_numerals {t rest : List Char} (ht : ∀ c ∈ t, isNumeral c = true) (hr : Stops rest) :
    (t ++ rest).takeWhile isNumeral = t ∧ (t ++ rest).dropWhile isNumeral = rest := by
  rw [List.takeWhile_append_of_pos ht, List.dropWhile_append_of_pos ht]
  cases rest with
  | nil => simp
  | cons c rest =>
    have hc : isNumeral c = false := hr c (by simp)
    simp [hc]

/-- No word starts like a number. -/
theorem words_number {t rest : List Char} {v : Json} (h : number? t = some v) :
    (words.findSome? fun (w, v) => (Text.dropStart? w (t ++ rest)).map fun r => (v, r)) = none := by
  have ht := numerals_of_number? h
  match t, h, ht with
  | [], h, _ => simp [number?, unsigned?, isWhole, isDigits] at h
  | c :: t, h, ht =>
    have hne : ∀ {x y : Char}, isNumeral x = false → y ∈ c :: t → x ≠ y := by
      rintro x y hx hy rfl
      rw [ht x hy] at hx
      cases hx
    -- only the last word shares its first character with some numbers
    have hinf : '-' = c → Text.dropStart? ['I', 'n', 'f', 'i', 'n', 'i', 't', 'y'] (t ++ rest) = none := by
      rintro rfl
      cases t with
      | nil => simp [number?, unsigned?, isWhole, isDigits] at h
      | cons d t => simp [Text.dropStart?, hne (x := 'I') (y := d) rfl (by simp)]
    have hc : c ∈ c :: t := by simp
    have hword : ∀ {x : Char} {w : List Char}, isNumeral x = false →
        Text.dropStart? (x :: w) (c :: t ++ rest) = none := by
      intro x w hx
      simp [Text.dropStart?, hne hx hc]
    have hminus : Text.dropStart? ['-', 'I', 'n', 'f', 'i', 'n', 'i', 't', 'y'] (c :: t ++ rest) = none := by
      by_cases hm : '-' = c
      · rw [List.cons_append, Text.dropStart?, if_pos hm, hinf hm]
      · rw [List.cons_append, Text.dropStart?, if_neg hm]
    simp only [words, List.findSome?_cons, List.findSome?_nil, hword (x := 'n') rfl, hword (x := 't') rfl,
      hword (x := 'f') rfl, hword (x := 'N') rfl, hword (x := 'I') rfl, hminus, Option.map_none]

/-- A number in a text is read up to where it ends. -/
theorem atom?_number {t rest : List Char} {v : Json} (h : number? t = some v) (hr : Stops rest) :
    atom? (t ++ rest) = some (v, rest) := by
  have hsplit := takeWhile_numerals (numerals_of_number? h) hr
  rw [atom?, words_number h, hsplit.1, hsplit.2, h]
  rfl

end Json

end RequestAtlas
