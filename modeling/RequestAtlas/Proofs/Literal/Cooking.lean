import RequestAtlas.Proofs.Literal.Atoms
/-!
# Cooking against the string values of the language

`StringValue body us` is the language's own rule for string literals: the text `body` between the quotes has the UTF-16
units `us` as its value.  An octal escape takes as many digits as keep its value below 256, and a line continuation
takes a line feed behind a carriage return; both are said by what may follow the escape.

`cook` takes three octal digits in any case.  Hence `cook_eq_iff`: it gives the text whose units are the value exactly
if no octal escape that starts with `4` to `7` is followed by a third digit.  Where one is, a unit is missing.
-/

namespace RequestAtlas

namespace Text

/-- The units of a text. -/
def units (cs : List Char) : List Nat := cs.flatMap fun c => unitsOf c.toNat

theorem units_eq (cs : List Char) : units cs = (cs.map Char.toNat).flatMap unitsOf := by
  rw [units, List.flatMap_map]

/-- Decoding the units of a text gives the text. -/
theorem decodeUnits_units (cs : List Char) : decodeUnits (units cs) = cs := by
  rw [units_eq]
  exact decodePoints_toNat cs

theorem units_injective {cs ds : List Char} (h : units cs = units ds) : cs = ds := by
  rw [← decodeUnits_units cs, h, decodeUnits_units]

theorem lt_of_mem_unitsOf {n u : Nat} (hn : n ≤ 0x10ffff) (h : u ∈ unitsOf n) : u < 0x10000 := by
  unfold unitsOf at h
  split at h
  · simp only [List.mem_singleton] at h
    omega
  · simp only [List.mem_cons, List.not_mem_nil, or_false] at h
    omega

theorem unitsOf_small {n : Nat} (h : n < 0x10000) : unitsOf n = [n] := if_pos h

theorem toNat_le (c : Char) : c.toNat ≤ 0x10ffff := by
  have hv : c.toNat < 0xd800 ∨ (0xdfff < c.toNat ∧ c.toNat < 0x110000) := c.valid
  omega

theorem toNat_ofNat {n : Nat} (h : n.isValidChar) : (Char.ofNat n).toNat = n := by
  rw [Char.ofNat, dif_pos h]
  rfl

/-- A single unit is decoded to a character of a single unit. -/
theorem length_unitsOf_single {u : Nat} (hu : u < 0x10000) :
    (unitsOf (if isSurrogate u then replacement else Char.ofNat u).toNat).length = 1 := by
  by_cases hs : isSurrogate u = true
  · rw [if_pos hs]
    rfl
  · have hvalid : u.isValidChar := by
      simp only [isSurrogate, Bool.and_eq_true, decide_eq_true_eq] at hs
      unfold Nat.isValidChar
      omega
    rw [if_neg hs, toNat_ofNat hvalid, unitsOf, if_pos hu]
    rfl

/-- Decoding replaces single surrogates but loses no unit. -/
theorem length_units_decodeUnits (us : List Nat) (h : ∀ u ∈ us, u < 0x10000) :
    (units (decodeUnits us)).length = us.length := by
  fun_induction decodeUnits us with
  | case1 => rfl
  | case2 u => simpa [units] using length_unitsOf_single (h u (by simp))
  | case3 u v us hpair ih =>
    simp only [isHighSurrogate, isLowSurrogate, Bool.and_eq_true, decide_eq_true_eq] at hpair
    have hvalid : (0x10000 + (u - 0xd800) * 0x400 + (v - 0xdc00)).isValidChar := by
      unfold Nat.isValidChar
      omega
    have ih := ih fun w hw => h w (by simp [hw])
    rw [units, List.flatMap_cons, List.length_append, toNat_ofNat hvalid, unitsOf, if_neg (by omega)]
    simp only [units] at ih
    simp only [List.length_cons, List.length_nil, ih]
    omega
  | case4 u v us hpair ih =>
    have ih := ih fun w hw => h w (List.mem_cons_of_mem _ hw)
    rw [units, List.flatMap_cons, List.length_append, length_unitsOf_single (h u (by simp))]
    simp only [units] at ih
    rw [ih, Nat.add_comm, ← List.length_cons]

end Text

namespace Literal

open Text (unitsOf units decodeUnits)

/-! ## String values -/

def isHex (c : Char) : Bool := (hexValue? c).isSome

/-- The number that hexadecimal digits spell behind digits that spell `v`. -/
def hexFrom (v : Nat) (ds : List Char) : Nat := ds.foldl (fun v d => 16 * v + (hexValue? d).getD 0) v

/-- The number that hexadecimal digits spell. -/
def hexNumber (ds : List Char) : Nat := hexFrom 0 ds

def isOctal (c : Char) : Bool := '0' ≤ c && c ≤ '7'

/-- The number that octal digits spell. -/
def octalNumber (ds : List Char) : Nat := ds.foldl (fun v d => 8 * v + (d.toNat - 48)) 0

/-- The letters that stand for a control character behind a backslash. -/
def letterEscapes : List (Char × Nat) := [('b', 8), ('t', 9), ('n', 10), ('v', 11), ('f', 12), ('r', 13)]

/-- The digits of an octal escape in front of `rest`: as many as keep the value below 256. -/
inductive OctalEscape : List Char → List Char → Prop
  | one {a : Char} {rest : List Char} (ha : isOctal a = true) (hrest : ∀ c ∈ rest.head?, isOctal c = false) :
      OctalEscape [a] rest
  | two {a b : Char} {rest : List Char} (ha : '0' ≤ a ∧ a ≤ '3') (hb : isOctal b = true)
      (hrest : ∀ c ∈ rest.head?, isOctal c = false) : OctalEscape [a, b] rest
  | high {a b : Char} {rest : List Char} (ha : '4' ≤ a ∧ a ≤ '7') (hb : isOctal b = true) : OctalEscape [a, b] rest
  | three {a b c : Char} {rest : List Char} (ha : '0' ≤ a ∧ a ≤ '3') (hb : isOctal b = true) (hc : isOctal c = true) :
      OctalEscape [a, b, c] rest

/-- The end of a line in front of `rest`. -/
inductive LineEnd : List Char → List Char → Prop
  | lineFeed (rest : List Char) : LineEnd ['\n'] rest
  | carriageReturn {rest : List Char} (h : rest.head? ≠ some '\n') : LineEnd ['\r'] rest
  | both (rest : List Char) : LineEnd ['\r', '\n'] rest
  | lineSeparator (rest : List Char) : LineEnd ['\u2028'] rest
  | paragraphSeparator (rest : List Char) : LineEnd ['\u2029'] rest

/-- The characters that stand for something else behind a backslash. -/
def isSpecial (c : Char) : Bool :=
  isOctal c || isLineContinuation c || c == 'x' || c == 'u' || letterEscapes.any (·.1 == c)

/-- The text between the quotes of a string literal, and the units of its value. -/
inductive StringValue : List Char → List Nat → Prop
  | nil : StringValue [] []
  | plain {c : Char} {cs : List Char} {us : List Nat} (hc : c ≠ '\\' ∧ c ≠ '\n' ∧ c ≠ '\r') (h : StringValue cs us) :
      StringValue (c :: cs) (unitsOf c.toNat ++ us)
  | letter {c : Char} {n : Nat} {cs : List Char} {us : List Nat} (hc : (c, n) ∈ letterEscapes)
      (h : StringValue cs us) : StringValue ('\\' :: c :: cs) (n :: us)
  | hex {a b : Char} {cs : List Char} {us : List Nat} (ha : isHex a = true) (hb : isHex b = true)
      (h : StringValue cs us) : StringValue ('\\' :: 'x' :: a :: b :: cs) (hexNumber [a, b] :: us)
  | unit {a b c d : Char} {cs : List Char} {us : List Nat} (hds : ∀ x ∈ [a, b, c, d], isHex x = true)
      (h : StringValue cs us) : StringValue ('\\' :: 'u' :: a :: b :: c :: d :: cs) (hexNumber [a, b, c, d] :: us)
  | codePoint {ds cs : List Char} {us : List Nat} (hne : ds ≠ []) (hds : ∀ x ∈ ds, isHex x = true)
      (hle : hexNumber ds ≤ 0x10ffff) (h : StringValue cs us) :
      StringValue ('\\' :: 'u' :: '{' :: (ds ++ '}' :: cs)) (unitsOf (hexNumber ds) ++ us)
  | octal {ds cs : List Char} {us : List Nat} (hds : OctalEscape ds cs) (h : StringValue cs us) :
      StringValue ('\\' :: (ds ++ cs)) (octalNumber ds :: us)
  | identity {c : Char} {cs : List Char} {us : List Nat} (hc : isSpecial c = false) (h : StringValue cs us) :
      StringValue ('\\' :: c :: cs) (unitsOf c.toNat ++ us)
  | continuation {end_ cs : List Char} {us : List Nat} (hend : LineEnd end_ cs) (h : StringValue cs us) :
      StringValue ('\\' :: (end_ ++ cs)) us

/-- Whether three octal digits, the first of them too large, stand in front. -/
def startsLong : List Char → Bool
  | a :: b :: c :: _ => '4' ≤ a && a ≤ '7' && isOctal b && isOctal c
  | _ => false

/-- Whether some escape starts with three octal digits that spell more than 255.  Nothing inside an escape is a
backslash but the character that a backslash stands before. -/
def hasLongOctal : List Char → Bool
  | '\\' :: c :: cs => startsLong (c :: cs) || hasLongOctal cs
  | _ :: cs => hasLongOctal cs
  | [] => false

/-! ## What cooking makes of each part -/

/-- The units of a text with its escapes replaced, before they are decoded. -/
def cookUnits (body : List Char) : List Nat := (cookPoints body).flatMap unitsOf

theorem cookUnits_nil : cookUnits [] = [] := by
  rw [cookUnits, cookPoints, List.flatMap_nil]

theorem cookUnits_cons {c : Char} (h : c ≠ '\\') (cs : List Char) :
    cookUnits (c :: cs) = unitsOf c.toNat ++ cookUnits cs := by
  rw [cookUnits, cookPoints_cons h, List.flatMap_cons]
  rfl

theorem cookUnits_escape {d : Char} {n : Nat} {cs rest : List Char} (h : escape d cs = ([n], rest)) :
    cookUnits ('\\' :: d :: cs) = unitsOf n ++ cookUnits rest := by
  rw [cookUnits, cookPoints_escape h, List.flatMap_cons]
  rfl

theorem cookUnits_continuation {d : Char} {cs rest : List Char} (h : escape d cs = ([], rest)) :
    cookUnits ('\\' :: d :: cs) = cookUnits rest := by
  rw [cookUnits, cookPoints, if_pos rfl, h]
  rfl

theorem cookUnits_of_notMem : ∀ {body : List Char}, '\\' ∉ body → cookUnits body = units body
  | [], _ => cookUnits_nil
  | c :: cs, h => by
    rw [List.mem_cons, not_or] at h
    rw [cookUnits_cons (Ne.symm h.1), cookUnits_of_notMem h.2]
    rfl

theorem hexValue?_lt {c : Char} {d : Nat} (h : hexValue? c = some d) : d < 16 := by
  unfold hexValue? at h
  split at h
  · rename_i hc
    have hhi : c.toNat ≤ 57 := hc.2
    cases h
    omega
  · split at h
    · rename_i hc
      have hhi : c.toNat ≤ 102 := hc.2
      cases h
      omega
    · split at h
      · rename_i hc
        have hhi : c.toNat ≤ 70 := hc.2
        cases h
        omega
      · cases h

theorem exists_of_isHex {c : Char} (h : isHex c = true) : ∃ d, hexValue? c = some d ∧ d < 16 := by
  obtain ⟨d, hd⟩ := Option.isSome_iff_exists.1 h
  exact ⟨d, hd, hexValue?_lt hd⟩

theorem ne_of_isHex {c d : Char} (h : isHex c = true) (hd : isHex d = false) : c ≠ d := by
  rintro rfl
  rw [h] at hd
  cases hd

theorem hexFrom_cons {d : Char} {n : Nat} (h : hexValue? d = some n) (v : Nat) (ds : List Char) :
    hexFrom v (d :: ds) = hexFrom (16 * v + n) ds := by
  rw [hexFrom, List.foldl_cons, h]
  rfl

theorem hexFrom_lt : ∀ {ds : List Char} (v : Nat), (∀ x ∈ ds, isHex x = true) →
    hexFrom v ds < (v + 1) * 16 ^ ds.length
  | [], v, _ => by simp [hexFrom]
  | d :: ds, v, h => by
    rw [List.forall_mem_cons] at h
    obtain ⟨n, hn, hlt⟩ := exists_of_isHex h.1
    rw [hexFrom_cons hn, List.length_cons]
    calc hexFrom (16 * v + n) ds < (16 * v + n + 1) * 16 ^ ds.length := hexFrom_lt _ h.2
      _ ≤ (16 * (v + 1)) * 16 ^ ds.length := Nat.mul_le_mul_right _ (by omega)
      _ = (v + 1) * 16 ^ (ds.length + 1) := by rw [Nat.pow_succ]; ring

theorem hexNumber_lt {ds : List Char} (h : ∀ x ∈ ds, isHex x = true) : hexNumber ds < 16 ^ ds.length := by
  have hlt := hexFrom_lt 0 h
  rwa [Nat.zero_add, Nat.one_mul] at hlt

theorem hexFixed?_append (cs : List Char) : ∀ (ds : List Char) (v : Nat), (∀ x ∈ ds, isHex x = true) →
    hexFixed? ds.length (ds ++ cs) v = some (hexFrom v ds, cs)
  | [], v, _ => rfl
  | d :: ds, v, h => by
    rw [List.forall_mem_cons] at h
    obtain ⟨n, hn, -⟩ := exists_of_isHex h.1
    rw [List.length_cons, List.cons_append, hexFixed?, hexFrom_cons hn, hn]
    exact hexFixed?_append cs ds _ h.2

theorem hexRun_append (cs : List Char) : ∀ {ds : List Char} (v n : Nat), (∀ x ∈ ds, isHex x = true) →
    hexRun (ds ++ '}' :: cs) v n = (hexFrom v ds, n + ds.length, '}' :: cs)
  | [], v, n, _ => rfl
  | d :: ds, v, n, h => by
    rw [List.forall_mem_cons] at h
    obtain ⟨m, hm, -⟩ := exists_of_isHex h.1
    have hlength : n + (d :: ds).length = n + 1 + ds.length := by rw [List.length_cons]; omega
    rw [List.cons_append, hexRun, hexFrom_cons hm, hm, hlength]
    exact hexRun_append cs _ _ h.2

/-! ### One lemma for each kind of escape -/

theorem escape_letter {c : Char} {n : Nat} (h : (c, n) ∈ letterEscapes) (cs : List Char) :
    escape c cs = ([n], cs) := by
  simp only [letterEscapes, List.mem_cons, Prod.mk.injEq, List.not_mem_nil, or_false] at h
  rcases h with ⟨rfl, rfl⟩ | ⟨rfl, rfl⟩ | ⟨rfl, rfl⟩ | ⟨rfl, rfl⟩ | ⟨rfl, rfl⟩ | ⟨rfl, rfl⟩ <;> rfl

theorem escape_hex {a b : Char} (ha : isHex a = true) (hb : isHex b = true) (cs : List Char) :
    escape 'x' (a :: b :: cs) = ([hexNumber [a, b]], cs) := by
  have h := hexFixed?_append cs [a, b] 0 (by simp [ha, hb])
  simp only [List.length_cons, List.length_nil, List.cons_append, List.nil_append] at h
  simp [escape, simpleEscape?, isLineContinuation, h, hexNumber]

theorem escape_unit {a b c d : Char} (hds : ∀ x ∈ [a, b, c, d], isHex x = true) (cs : List Char) :
    escape 'u' (a :: b :: c :: d :: cs) = ([hexNumber [a, b, c, d]], cs) := by
  have h := hexFixed?_append cs [a, b, c, d] 0 hds
  simp only [List.length_cons, List.length_nil, List.cons_append, List.nil_append] at h
  have hbrace : a ≠ '{' := ne_of_isHex (hds a (by simp)) (by decide)
  have hnone : braced? (a :: b :: c :: d :: cs) = none := by
    unfold braced?
    split
    · rename_i heq
      exact absurd (List.cons.inj heq).1 hbrace
    · rfl
  simp [escape, simpleEscape?, isLineContinuation, hnone, h, hexNumber]

theorem escape_codePoint {ds : List Char} (hne : ds ≠ []) (hds : ∀ x ∈ ds, isHex x = true)
    (hle : hexNumber ds ≤ 0x10ffff) (cs : List Char) :
    escape 'u' ('{' :: (ds ++ '}' :: cs)) = ([hexNumber ds], cs) := by
  have h := hexRun_append cs 0 0 hds
  obtain ⟨k, hk⟩ : ∃ k, ds.length = k + 1 := Nat.exists_eq_succ_of_ne_zero (by simpa using hne)
  rw [Nat.zero_add, hk] at h
  have hsome : braced? ('{' :: (ds ++ '}' :: cs)) = some (hexNumber ds, cs) := by
    simp only [braced?, h]
    rw [if_pos (show hexFrom 0 ds ≤ 0x10ffff from hle)]
    rfl
  simp [escape, simpleEscape?, isLineContinuation, hsome]

theorem octal_bounds {c : Char} (h : isOctal c = true) : 48 ≤ c.toNat ∧ c.toNat ≤ 55 := by
  simp only [isOctal, Bool.and_eq_true, decide_eq_true_eq] at h
  exact h

theorem octalValue?_of_isOctal {c : Char} (h : isOctal c = true) : octalValue? c = some (c.toNat - 48) := by
  simp only [isOctal, Bool.and_eq_true, decide_eq_true_eq] at h
  rw [octalValue?, if_pos h]

theorem octalValue?_of_not {c : Char} (h : isOctal c = false) : octalValue? c = none := by
  simp only [isOctal, Bool.and_eq_false_iff, decide_eq_false_iff_not, ← not_and_or] at h
  rw [octalValue?, if_neg h]

/-- An octal digit starts no other kind of escape. -/
theorem escape_octal {a : Char} (ha : isOctal a = true) (cs : List Char) :
    escape a cs = ([(octalRun 2 cs (a.toNat - 48)).1], (octalRun 2 cs (a.toNat - 48)).2) := by
  obtain ⟨hlo, hhi⟩ := octal_bounds ha
  have hne : ∀ {c : Char}, c.toNat < 48 ∨ 55 < c.toNat → a ≠ c := by
    rintro c hc rfl
    omega
  have hsimple : simpleEscape? a = none := by
    unfold simpleEscape?
    split
    all_goals first | rfl | (exact absurd rfl (hne (by decide)))
  have hline : isLineContinuation a = false := by
    simp only [isLineContinuation, Bool.or_eq_false_iff, beq_eq_false_iff_ne]
    exact ⟨⟨⟨hne (by decide), hne (by decide)⟩, hne (by decide)⟩, hne (by decide)⟩
  simp [escape, hsimple, hline, hne (c := 'u') (by decide), hne (c := 'x') (by decide), octalValue?_of_isOctal ha]

theorem octalRun_stop {cs : List Char} (h : ∀ c ∈ cs.head?, isOctal c = false) (n v : Nat) :
    octalRun n cs v = (v, cs) := by
  cases n with
  | zero => rfl
  | succ n =>
    cases cs with
    | nil => rfl
    | cons c cs => rw [octalRun, octalValue?_of_not (h c (by simp))]

theorem octalRun_digit {c : Char} (h : isOctal c = true) (n : Nat) (cs : List Char) (v : Nat) :
    octalRun (n + 1) (c :: cs) v = octalRun n cs (8 * v + (c.toNat - 48)) := by
  rw [octalRun, octalValue?_of_isOctal h]

theorem escape_identity {c : Char} (h : isSpecial c = false) (cs : List Char) : escape c cs = ([c.toNat], cs) := by
  simp only [isSpecial, letterEscapes, List.any_cons, List.any_nil, Bool.or_eq_false_iff, beq_eq_false_iff_ne] at h
  obtain ⟨⟨⟨⟨hoctal, hline⟩, hx⟩, hu⟩, hb, ht, hn, hv, hf, hr, -⟩ := h
  have hsimple : simpleEscape? c = none := by
    unfold simpleEscape?
    split <;> first | rfl | contradiction
  simp [escape, hsimple, hline, hx, hu, octalValue?_of_not hoctal]

theorem escape_lineEnd {d : Char} {ds cs : List Char} (h : LineEnd (d :: ds) cs) : escape d (ds ++ cs) = ([], cs) := by
  cases h with
  | lineFeed => rfl
  | both => rfl
  | lineSeparator => rfl
  | paragraphSeparator => rfl
  | carriageReturn h =>
    cases cs with
    | nil => rfl
    | cons c cs =>
      have hc : c ≠ '\n' := fun hc => h (by rw [hc]; rfl)
      simp [escape, simpleEscape?, isLineContinuation, hc]

/-! ## Where octal escapes are too long -/

theorem hasLongOctal_cons {c : Char} (h : c ≠ '\\') (cs : List Char) :
    hasLongOctal (c :: cs) = hasLongOctal cs := by
  rw [hasLongOctal]
  rintro d ds rfl rfl
  exact h rfl

theorem hasLongOctal_append : ∀ {ds : List Char}, (∀ c ∈ ds, c ≠ '\\') → ∀ cs : List Char,
    hasLongOctal (ds ++ cs) = hasLongOctal cs
  | [], _, _ => rfl
  | d :: ds, h, cs => by
    rw [List.forall_mem_cons] at h
    rw [List.cons_append, hasLongOctal_cons h.1, hasLongOctal_append h.2]

/-- An escape that starts with no octal digit above three. -/
theorem hasLongOctal_escape {c : Char} (h : ¬ ('4' ≤ c ∧ c ≤ '7')) (cs : List Char) :
    hasLongOctal ('\\' :: c :: cs) = hasLongOctal cs := by
  have hstart : startsLong (c :: cs) = false := by
    unfold startsLong
    split
    · rename_i heq
      cases heq
      simp [h]
    · rfl
  rw [hasLongOctal, hstart, Bool.false_or]

/-! ## The units of a whole text -/

/-- What cooking makes of a text whose value has the units `us`. -/
structure Cooks (body : List Char) (us : List Nat) : Prop where
  small : ∀ u ∈ cookUnits body, u < 0x10000
  exact : hasLongOctal body = false → cookUnits body = us
  short : hasLongOctal body = true → (cookUnits body).length < us.length

theorem Cooks.length_le {body : List Char} {us : List Nat} (h : Cooks body us) :
    (cookUnits body).length ≤ us.length := by
  cases hlong : hasLongOctal body with
  | false => rw [h.exact hlong]
  | true => exact Nat.le_of_lt (h.short hlong)

/-- A part in front that is cooked to its value. -/
theorem Cooks.behind {body rest : List Char} {us xs : List Nat} (h : Cooks rest us) (hxs : ∀ u ∈ xs, u < 0x10000)
    (hcook : cookUnits body = xs ++ cookUnits rest) (hlong : hasLongOctal body = hasLongOctal rest) :
    Cooks body (xs ++ us) where
  small u hu := by
    rw [hcook, List.mem_append] at hu
    exact hu.elim (hxs u) (h.small u)
  exact hbody := by
    rw [hcook, h.exact (hlong ▸ hbody)]
  short hbody := by
    have hrest := h.short (hlong ▸ hbody)
    rw [hcook, List.length_append, List.length_append]
    omega

/-- An escape that is cooked to one unit. -/
theorem Cooks.unit {d : Char} {n : Nat} {cs rest : List Char} {us : List Nat} (h : Cooks rest us) (hn : n < 0x10000)
    (hescape : escape d cs = ([n], rest)) (hlong : hasLongOctal ('\\' :: d :: cs) = hasLongOctal rest) :
    Cooks ('\\' :: d :: cs) (n :: us) := by
  have hcook : cookUnits ('\\' :: d :: cs) = [n] ++ cookUnits rest := by
    rw [cookUnits_escape hescape, Text.unitsOf_small hn]
  exact h.behind (by simpa using hn) hcook hlong

theorem isOctal_of_le {a b c : Char} (h : b ≤ a ∧ a ≤ c) (hb : '0' ≤ b) (hc : c ≤ '7') : isOctal a = true := by
  simp only [isOctal, Bool.and_eq_true, decide_eq_true_eq]
  exact ⟨Nat.le_trans hb h.1, Nat.le_trans h.2 hc⟩

theorem ne_backslash_of_isOctal {c : Char} (h : isOctal c = true) : c ≠ '\\' := by
  rintro rfl
  cases h

/-- One or two digits with no further one behind them. -/
theorem startsLong_stop {a : Char} {ds cs : List Char} (hds : ds.length ≤ 1)
    (h : ∀ c ∈ cs.head?, isOctal c = false) : startsLong (a :: (ds ++ cs)) = false := by
  match ds, cs, hds, h with
  | [], [], _, _ => rfl
  | [], [_], _, _ => rfl
  | [], b :: _ :: _, _, h => simp [startsLong, h b (by simp)]
  | [_], [], _, _ => rfl
  | [_], c :: _, _, h => simp [startsLong, h c (by simp)]
  | _ :: _ :: _, _, hds, _ => simp at hds

/-- Two octal digits with no third one behind them. -/
theorem Cooks.octal_two {a b : Char} {cs : List Char} {us : List Nat} (h : Cooks cs us) (ha : isOctal a = true)
    (hb : isOctal b = true) (hcs : ∀ c ∈ cs.head?, isOctal c = false) :
    Cooks ('\\' :: a :: b :: cs) (octalNumber [a, b] :: us) := by
  have hba := octal_bounds ha
  have hbb := octal_bounds hb
  have hvalue : octalNumber [a, b] = 8 * (a.toNat - 48) + (b.toNat - 48) := by simp [octalNumber]
  have hescape : escape a (b :: cs) = ([octalNumber [a, b]], cs) := by
    rw [escape_octal ha, octalRun_digit hb, octalRun_stop hcs, hvalue]
  refine h.unit (by omega) hescape ?_
  have hstart : startsLong (a :: b :: cs) = false := @startsLong_stop a [b] cs (by simp) hcs
  rw [hasLongOctal, hstart, Bool.false_or, hasLongOctal_cons (ne_backslash_of_isOctal hb)]

/-- Where a third digit follows two that may have none, it is lost as a unit of its own. -/
theorem Cooks.octal_long {a b c : Char} {cs : List Char} {us : List Nat} (h : Cooks (c :: cs) us)
    (ha : '4' ≤ a ∧ a ≤ '7') (hb : isOctal b = true) (hc : isOctal c = true) :
    Cooks ('\\' :: a :: b :: c :: cs) (octalNumber [a, b] :: us) := by
  have hoctal := isOctal_of_le ha (by decide) (by decide)
  have hba := octal_bounds hoctal
  have hbb := octal_bounds hb
  have hbc := octal_bounds hc
  have hescape : escape a (b :: c :: cs) = ([8 * (8 * (a.toNat - 48) + (b.toNat - 48)) + (c.toNat - 48)], cs) := by
    rw [escape_octal hoctal, octalRun_digit hb, octalRun_digit hc]
    rfl
  have hlong : hasLongOctal ('\\' :: a :: b :: c :: cs) = true := by
    simp [hasLongOctal, startsLong, ha.1, ha.2, hb, hc]
  have hcook := cookUnits_escape hescape
  rw [Text.unitsOf_small (by omega), List.singleton_append] at hcook
  have hrest := cookUnits_cons (ne_backslash_of_isOctal hc) cs
  rw [Text.unitsOf_small (by omega), List.singleton_append] at hrest
  refine ⟨?_, fun hno => ?_, fun _ => ?_⟩
  · intro u hu
    rw [hcook, List.mem_cons] at hu
    rcases hu with rfl | hu
    · omega
    · exact h.small u (by rw [hrest]; exact List.mem_cons_of_mem _ hu)
  · rw [hlong] at hno
    cases hno
  · have hle := h.length_le
    rw [hrest] at hle
    rw [hcook]
    exact Nat.lt_succ_of_le hle

theorem Cooks.octal {ds cs : List Char} {us : List Nat} (hds : OctalEscape ds cs) (h : Cooks cs us) :
    Cooks ('\\' :: (ds ++ cs)) (octalNumber ds :: us) := by
  cases hds with
  | @one a _ ha hcs =>
    have hba := octal_bounds ha
    have hvalue : octalNumber [a] = a.toNat - 48 := by simp [octalNumber]
    have hescape : escape a cs = ([octalNumber [a]], cs) := by
      rw [escape_octal ha, octalRun_stop hcs, hvalue]
    have hstart : startsLong (a :: cs) = false := @startsLong_stop a [] cs (by simp) hcs
    have hlong : hasLongOctal ('\\' :: a :: cs) = hasLongOctal cs := by rw [hasLongOctal, hstart, Bool.false_or]
    exact h.unit (by omega) hescape hlong
  | two ha hb hcs => exact h.octal_two (isOctal_of_le ha (by decide) (by decide)) hb hcs
  | @high a b _ ha hb =>
    cases cs with
    | nil => exact h.octal_two (isOctal_of_le ha (by decide) (by decide)) hb (by simp)
    | cons c cs =>
      cases hc : isOctal c with
      | true => exact h.octal_long ha hb hc
      | false => exact h.octal_two (isOctal_of_le ha (by decide) (by decide)) hb (by simpa using hc)
  | @three a b c _ ha hb hc =>
    have hoctal := isOctal_of_le ha (by decide) (by decide)
    have hba := octal_bounds hoctal
    have hbb := octal_bounds hb
    have hbc := octal_bounds hc
    have hvalue : octalNumber [a, b, c] = 8 * (8 * (a.toNat - 48) + (b.toNat - 48)) + (c.toNat - 48) := by
      simp [octalNumber]
    have hescape : escape a (b :: c :: cs) = ([octalNumber [a, b, c]], cs) := by
      rw [escape_octal hoctal, octalRun_digit hb, octalRun_digit hc, hvalue]
      rfl
    have hlow : ¬ ('4' ≤ a ∧ a ≤ '7') := fun hhigh => absurd (Nat.le_trans hhigh.1 ha.2) (by decide)
    have hlong : hasLongOctal ('\\' :: a :: b :: c :: cs) = hasLongOctal cs := by
      rw [hasLongOctal_escape hlow, hasLongOctal_cons (ne_backslash_of_isOctal hb),
        hasLongOctal_cons (ne_backslash_of_isOctal hc)]
    exact h.unit (by omega) hescape hlong

theorem ne_backslash_of_isHex {c : Char} (h : isHex c = true) : c ≠ '\\' := ne_of_isHex h (by decide)

/-- What cooking makes of every text that has a value, part by part. -/
theorem cooks_of_value {body : List Char} {us : List Nat} (h : StringValue body us) : Cooks body us := by
  induction h with
  | nil => exact ⟨by simp [cookUnits_nil], fun _ => cookUnits_nil, by simp [hasLongOctal]⟩
  | @plain c cs us hc _ ih =>
    exact ih.behind (fun u hu => Text.lt_of_mem_unitsOf (Text.toNat_le c) hu) (cookUnits_cons hc.1 cs)
      (hasLongOctal_cons hc.1 cs)
  | @letter c n cs us hc _ ih =>
    have hn : n < 0x10000 ∧ ¬ ('4' ≤ c ∧ c ≤ '7') := by
      have hall : ∀ e ∈ letterEscapes, e.2 < 0x10000 ∧ ¬ ('4' ≤ e.1 ∧ e.1 ≤ '7') := by decide
      exact hall _ hc
    exact ih.unit hn.1 (escape_letter hc cs) (hasLongOctal_escape hn.2 cs)
  | @hex a b cs us ha hb _ ih =>
    have hlt : hexNumber [a, b] < 16 ^ 2 := hexNumber_lt (by simp [ha, hb])
    refine ih.unit (by omega) (escape_hex ha hb cs) ?_
    rw [hasLongOctal_escape (by decide), hasLongOctal_cons (ne_backslash_of_isHex ha),
      hasLongOctal_cons (ne_backslash_of_isHex hb)]
  | @unit a b c d cs us hds _ ih =>
    have hlt : hexNumber [a, b, c, d] < 16 ^ 4 := hexNumber_lt hds
    refine ih.unit (by omega) (escape_unit hds cs) ?_
    rw [hasLongOctal_escape (by decide)]
    exact @hasLongOctal_append [a, b, c, d] (fun x hx => ne_backslash_of_isHex (hds x hx)) cs
  | @codePoint ds cs us hne hds hle _ ih =>
    refine ih.behind (fun u hu => Text.lt_of_mem_unitsOf hle hu) (cookUnits_escape (escape_codePoint hne hds hle cs)) ?_
    rw [hasLongOctal_escape (by decide), hasLongOctal_cons (by decide),
      hasLongOctal_append (fun x hx => ne_backslash_of_isHex (hds x hx)), hasLongOctal_cons (by decide)]
  | octal hds _ ih => exact ih.octal hds
  | @identity c cs us hc _ ih =>
    have hlow : ¬ ('4' ≤ c ∧ c ≤ '7') := by
      intro hhigh
      rw [isSpecial, isOctal_of_le hhigh (by decide) (by decide)] at hc
      cases hc
    exact ih.behind (fun u hu => Text.lt_of_mem_unitsOf (Text.toNat_le c) hu)
      (cookUnits_escape (escape_identity hc cs)) (hasLongOctal_escape hlow cs)
  | @continuation ds cs us hend _ ih =>
    cases ds with
    | nil => cases hend
    | cons d ds =>
      have hcook := cookUnits_continuation (escape_lineEnd hend)
      refine @Cooks.behind _ cs us [] ih (by simp) hcook ?_
      cases hend with
      | both => exact (hasLongOctal_escape (by decide) _).trans (hasLongOctal_cons (by decide) _)
      | _ => exact hasLongOctal_escape (by decide) _

/-- **Cooking gives the value of a string literal exactly if no octal escape of it is too long.** -/
theorem cook_eq_iff (body text : List Char) (h : StringValue body (units text)) :
    cook body = text ↔ hasLongOctal body = false := by
  have hcooks := cooks_of_value h
  rw [cook]
  split
  · have hdecode : Text.decodePoints (cookPoints body) = decodeUnits (cookUnits body) := rfl
    rw [hdecode]
    constructor
    · intro htext
      rw [← Bool.not_eq_true]
      intro hlong
      have hshort := hcooks.short hlong
      rw [← htext, Text.length_units_decodeUnits _ hcooks.small] at hshort
      exact Nat.lt_irrefl _ hshort
    · intro hlong
      rw [hcooks.exact hlong, Text.decodeUnits_units]
  · rename_i hplain
    rw [List.contains_iff_mem] at hplain
    have hlong : hasLongOctal body = false := by
      have happend := hasLongOctal_append (fun c hc (heq : c = '\\') => hplain (heq ▸ hc)) ([] : List Char)
      rwa [List.append_nil] at happend
    have hunits := hcooks.exact hlong
    rw [cookUnits_of_notMem hplain] at hunits
    exact ⟨fun _ => hlong, fun _ => Text.units_injective hunits⟩

/-- Escapes of every kind, next to digits and to each other. -/
def mixedEscapes : List Char :=
  ['a', '\\', 'n', '\\', 'x', '4', '1', '\\', 'u', 'd', '8', '3', 'd', '\\', 'u', 'd', 'e', '0', '0',
   '\\', 'u', '{', '0', '1', 'f', '6', '0', '0', '}', '\\', '0', '8', '\\', '1', '0', '1', '\\', '4', '7', 'a',
   '\\', 'q', '\\', '8', '\\', '\\', '\\', '\r', '\n', 'b']

theorem stringValue_mixedEscapes :
    StringValue mixedEscapes (units ['a', '\n', 'A', '😀', '😀', '\x00', '8', 'A', '\'', 'a', 'q', '8', '\\', 'b']) :=
  have hhex {ds : List Char} (h : ds.all isHex = true) : ∀ x ∈ ds, isHex x = true := List.all_eq_true.1 h
  .plain (by decide) <| .letter (by decide) <| .hex rfl rfl <| .unit (hhex rfl) <| .unit (hhex rfl) <|
    @StringValue.codePoint ['0', '1', 'f', '6', '0', '0'] _ _ (by decide) (hhex rfl) (by decide) <|
    .octal (.one rfl fun c hc => by cases hc; rfl) <| .plain (by decide) <| .octal (.three (by decide) rfl rfl) <|
    .octal (.high (by decide) rfl) <| .plain (by decide) <| .identity rfl <| .identity rfl <| .identity rfl <|
    .continuation (.both _) <| .plain (by decide) .nil

theorem cook_eq_iff_mixedEscapes :
    StringValue mixedEscapes (units ['a', '\n', 'A', '😀', '😀', '\x00', '8', 'A', '\'', 'a', 'q', '8', '\\', 'b']) ∧
      cook mixedEscapes = ['a', '\n', 'A', '😀', '😀', '\x00', '8', 'A', '\'', 'a', 'q', '8', '\\', 'b'] :=
  ⟨stringValue_mixedEscapes, (cook_eq_iff _ _ stringValue_mixedEscapes).2 (by decide)⟩

/-- Two digits and a third one: a blank and a zero by the rule, but one character when cooked. -/
theorem cook_threeDigits : ¬ ∀ body text, StringValue body (units text) → cook body = text := by
  intro h
  have hvalue : StringValue ['\\', '4', '0', '0'] (units [' ', '0']) :=
    .octal (.high (by decide) rfl) <| .plain (by decide) .nil
  have hcook : cook ['\\', '4', '0', '0'] = ['\u0100'] := by decide +kernel
  rw [h _ _ hvalue] at hcook
  cases hcook

end Literal

end RequestAtlas
