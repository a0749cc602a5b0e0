import RequestAtlas.Proofs.Literal.Cooking
/-!
# Escaped units

A text may spell its UTF-16 units one by one, among plain characters and lines that go on: it is a list of `Part`s.
`Decodes us text` is the encoding's own rule, unit by unit: a unit that is no surrogate is a character, a high surrogate
and the low one behind it are a character, and any other surrogate is replaced.  Main statement `cook_spelled`: cooking
the spelling of the parts gives the text that their units encode.  Since a part stands for units and not for characters,
two halves of a character join wherever no unit stands between them; hence the rules for one pair and for one surrogate
alone, whatever stands around them.
-/

namespace RequestAtlas

namespace Text

/-! ## The encoding -/

/-- The units on the left encode the text on the right. -/
inductive Decodes : List Nat → List Char → Prop
  | nil : Decodes [] []
  | single {c : Char} {us : List Nat} {cs : List Char} (hc : c.toNat < 0x10000) (h : Decodes us cs) :
      Decodes (c.toNat :: us) (c :: cs)
  | pair {c : Char} {u v : Nat} {us : List Nat} {cs : List Char} (hu : isHighSurrogate u = true)
      (hv : isLowSurrogate v = true) (hc : c.toNat = 0x10000 + (u - 0xd800) * 0x400 + (v - 0xdc00))
      (h : Decodes us cs) : Decodes (u :: v :: us) (c :: cs)
  | unpaired {u : Nat} {us : List Nat} {cs : List Char} (hu : isSurrogate u = true)
      (hfree : isHighSurrogate u = true → ∀ v ∈ us.head?, isLowSurrogate v = false) (h : Decodes us cs) :
      Decodes (u :: us) (replacement :: cs)

/-- The surrogate `u` between other units is half of no character. -/
def Unpaired (before : List Nat) (u : Nat) (behind : List Nat) : Prop :=
  (isHighSurrogate u = true ∧ ∀ v ∈ behind.head?, isLowSurrogate v = false) ∨
    (isLowSurrogate u = true ∧ ∀ v ∈ before.getLast?, isHighSurrogate v = false)

theorem isSurrogate_iff {u : Nat} : isSurrogate u = true ↔ isHighSurrogate u = true ∨ isLowSurrogate u = true := by
  simp only [isSurrogate, isHighSurrogate, isLowSurrogate, Bool.and_eq_true, decide_eq_true_eq]
  omega

theorem not_high_of_low {u : Nat} (h : isLowSurrogate u = true) : isHighSurrogate u = false := by
  simp only [isLowSurrogate, isHighSurrogate, Bool.and_eq_true, Bool.and_eq_false_iff, decide_eq_true_eq,
    decide_eq_false_iff_not] at h ⊢
  omega

/-- The two halves of a character. -/
theorem decodeUnits_pair {c : Char} {u v : Nat} (hu : isHighSurrogate u = true) (hv : isLowSurrogate v = true)
    (hc : c.toNat = 0x10000 + (u - 0xd800) * 0x400 + (v - 0xdc00)) (us : List Nat) :
    decodeUnits (u :: v :: us) = c :: decodeUnits us := by
  rw [decodeUnits, hu, hv, ← hc, Char.ofNat_toNat]
  rfl

/-- A surrogate with nothing behind it to join. -/
theorem decodeUnits_unpaired {u : Nat} {us : List Nat} (hu : isSurrogate u = true)
    (hfree : isHighSurrogate u = true → ∀ v ∈ us.head?, isLowSurrogate v = false) :
    decodeUnits (u :: us) = replacement :: decodeUnits us := by
  cases us with
  | nil => simp [decodeUnits, hu]
  | cons v us =>
    have hpair : (isHighSurrogate u && isLowSurrogate v) = false := by
      cases hhigh : isHighSurrogate u with
      | false => rfl
      | true => simpa using hfree hhigh v (by simp)
    rw [decodeUnits, hpair, hu]
    rfl

theorem exists_char_of_pair {u v : Nat} (hu : isHighSurrogate u = true) (hv : isLowSurrogate v = true) :
    ∃ c : Char, c.toNat = 0x10000 + (u - 0xd800) * 0x400 + (v - 0xdc00) := by
  simp only [isHighSurrogate, isLowSurrogate, Bool.and_eq_true, decide_eq_true_eq] at hu hv
  refine ⟨Char.ofNat (0x10000 + (u - 0xd800) * 0x400 + (v - 0xdc00)), toNat_ofNat ?_⟩
  unfold Nat.isValidChar
  omega

theorem exists_char_of_single {u : Nat} (hlt : u < 0x10000) (hu : isSurrogate u = false) :
    ∃ c : Char, c.toNat = u := by
  refine ⟨Char.ofNat u, toNat_ofNat ?_⟩
  simp only [isSurrogate, Bool.and_eq_false_iff, decide_eq_false_iff_not] at hu
  unfold Nat.isValidChar
  omega

/-- Every sequence of units encodes a text. -/
theorem exists_decodes : ∀ {us : List Nat}, (∀ u ∈ us, u < 0x10000) → ∃ cs, Decodes us cs
  | [], _ => ⟨[], .nil⟩
  | u :: us, h => by
    rw [List.forall_mem_cons] at h
    obtain ⟨cs, hcs⟩ := exists_decodes h.2
    cases hu : isSurrogate u with
    | false =>
      obtain ⟨c, rfl⟩ := exists_char_of_single h.1 hu
      exact ⟨c :: cs, .single h.1 hcs⟩
    | true =>
      by_cases hfree : isHighSurrogate u = true → ∀ v ∈ us.head?, isLowSurrogate v = false
      · exact ⟨replacement :: cs, .unpaired hu hfree hcs⟩
      · -- the other half stands behind it
        push Not at hfree
        obtain ⟨hhigh, v, hv, hlow⟩ := hfree
        obtain ⟨vs, rfl⟩ : ∃ vs, us = v :: vs := by
          cases us with
          | nil => simp at hv
          | cons w vs => exact ⟨vs, by simp at hv; rw [hv]⟩
        obtain ⟨ds, hds⟩ := exists_decodes fun w hw => h.2 w (List.mem_cons_of_mem _ hw)
        rw [Bool.ne_false_iff] at hlow
        obtain ⟨c, hc⟩ := exists_char_of_pair hhigh hlow
        exact ⟨c :: ds, .pair hhigh hlow hc hds⟩

theorem Decodes.eq_decodeUnits {us : List Nat} {cs : List Char} (h : Decodes us cs) : decodeUnits us = cs := by
  induction h with
  | nil => rfl
  | single hc h ih => rw [decodeUnits_cons_plain, ih]
  | pair hu hv hc h ih => rw [decodeUnits_pair hu hv hc, ih]
  | unpaired hu hfree h ih => rw [decodeUnits_unpaired hu hfree, ih]

/-- **Decoding finds the one text that units encode.** -/
theorem decodeUnits_eq_iff {us : List Nat} (hus : ∀ u ∈ us, u < 0x10000) {cs : List Char} :
    decodeUnits us = cs ↔ Decodes us cs := by
  obtain ⟨ds, hds⟩ := exists_decodes hus
  constructor
  · rintro rfl
    rwa [hds.eq_decodeUnits]
  · exact Decodes.eq_decodeUnits

/-- Units can be decoded in two pieces, unless the cut parts two halves of a character. -/
theorem decodeUnits_append (us vs : List Nat)
    (h : ∀ u ∈ us.getLast?, isHighSurrogate u = true → ∀ v ∈ vs.head?, isLowSurrogate v = false) :
    decodeUnits (us ++ vs) = decodeUnits us ++ decodeUnits vs := by
  fun_induction decodeUnits us with
  | case1 => rfl
  | case2 u =>
    have hcut := h u (by simp)
    cases vs with
    | nil => rfl
    | cons v vs =>
      have hpair : (isHighSurrogate u && isLowSurrogate v) = false := by
        cases hhigh : isHighSurrogate u with
        | false => rfl
        | true => simpa using hcut hhigh v (by simp)
      rw [List.singleton_append, decodeUnits, hpair]
      rfl
  | case3 u v us hpair ih =>
    have hlast : ∀ w ∈ us.getLast?, isHighSurrogate w = true → ∀ x ∈ vs.head?, isLowSurrogate x = false := by
      intro w hw
      refine h w ?_
      rw [List.getLast?_cons_cons, List.getLast?_cons, Option.mem_def.1 hw]
      rfl
    rw [List.cons_append, List.cons_append, decodeUnits, hpair, ih hlast]
    rfl
  | case4 u v us hpair ih =>
    have hlast : ∀ w ∈ (v :: us).getLast?, isHighSurrogate w = true → ∀ x ∈ vs.head?, isLowSurrogate x = false := by
      intro w hw
      exact h w (by rwa [List.getLast?_cons_cons])
    have ih := ih hlast
    rw [List.cons_append] at ih
    rw [List.cons_append, List.cons_append, decodeUnits, if_neg hpair, ih]
    rfl

end Text

namespace Literal

open Text (unitsOf decodeUnits Decodes Unpaired isHighSurrogate isLowSurrogate replacement)

/-! ## Texts in parts -/

/-- The characters that end a line. -/
def lineTerminators : List Char := ['\n', '\r', '\u2028', '\u2029']

/-- The sequences that end a line. -/
def lineEndings : List (List Char) := [['\n'], ['\r'], ['\r', '\n'], ['\u2028'], ['\u2029']]

/-- A part of a raw text: a plain character, a unit by its four digits or by digits in braces, or the end of a line that
goes on. -/
inductive Part where
  | plain (c : Char) (hc : c ≠ '\\' ∧ c ∉ lineTerminators)
  | unit (a b c d : Char) (hdigits : ∀ x ∈ [a, b, c, d], isHex x = true)
  | braced (digits : List Char) (hne : digits ≠ []) (hdigits : ∀ x ∈ digits, isHex x = true)
      (hsmall : hexNumber digits < 0x10000)
  | continuation (ending : List Char) (hending : ending ∈ lineEndings)

/-- How a part is written. -/
def Part.text : Part → List Char
  | plain c _ => [c]
  | unit a b c d _ => ['\\', 'u', a, b, c, d]
  | braced digits _ _ _ => '\\' :: 'u' :: '{' :: (digits ++ ['}'])
  | continuation ending _ => '\\' :: ending

/-- The units that a part stands for. -/
def Part.units : Part → List Nat
  | plain c _ => unitsOf c.toNat
  | unit a b c d _ => [hexNumber [a, b, c, d]]
  | braced digits _ _ _ => [hexNumber digits]
  | continuation _ _ => []

def spelled (parts : List Part) : List Char := parts.flatMap Part.text

def unitsIn (parts : List Part) : List Nat := parts.flatMap Part.units

theorem spelled_cons (p : Part) (parts : List Part) : spelled (p :: parts) = p.text ++ spelled parts :=
  List.flatMap_cons

theorem unitsIn_cons (p : Part) (parts : List Part) : unitsIn (p :: parts) = p.units ++ unitsIn parts :=
  List.flatMap_cons

theorem unitsIn_append (front back : List Part) : unitsIn (front ++ back) = unitsIn front ++ unitsIn back :=
  List.flatMap_append

theorem Part.units_lt (p : Part) : ∀ u ∈ p.units, u < 0x10000 := by
  intro u hu
  cases p with
  | plain c hc => exact Text.lt_of_mem_unitsOf (Text.toNat_le c) hu
  | unit a b c d hdigits =>
    have hlt : hexNumber [a, b, c, d] < 16 ^ 4 := hexNumber_lt hdigits
    rw [List.mem_singleton.1 hu]
    exact hlt
  | braced digits hne hdigits hsmall =>
    rw [List.mem_singleton.1 hu]
    exact hsmall
  | continuation ending hending => simp [Part.units] at hu

theorem unitsIn_lt (parts : List Part) : ∀ u ∈ unitsIn parts, u < 0x10000 := by
  intro u hu
  obtain ⟨p, _, hp⟩ := List.mem_flatMap.1 hu
  exact p.units_lt u hp

/-- No part starts with a line feed, so none lengthens the end of a line before it. -/
theorem head_spelled_ne (parts : List Part) : (spelled parts).head? ≠ some '\n' := by
  cases parts with
  | nil => simp [spelled]
  | cons p parts =>
    rw [spelled_cons]
    cases p with
    | plain c hc =>
      intro heq
      have hc' : c = '\n' := by simpa [Part.text] using heq
      exact hc.2 (by rw [hc']; decide)
    | _ => simp [Part.text]

theorem lineEnd_of_mem {ending rest : List Char} (h : ending ∈ lineEndings) (hrest : rest.head? ≠ some '\n') :
    LineEnd ending rest := by
  simp only [lineEndings, List.mem_cons, List.not_mem_nil, or_false] at h
  rcases h with rfl | rfl | rfl | rfl | rfl
  · exact .lineFeed rest
  · exact .carriageReturn hrest
  · exact .both rest
  · exact .lineSeparator rest
  · exact .paragraphSeparator rest

/-- Each part is cooked to its units, whatever parts follow. -/
theorem cookUnits_part (p : Part) (parts : List Part) :
    cookUnits (p.text ++ spelled parts) = p.units ++ cookUnits (spelled parts) := by
  cases p with
  | plain c hc => exact cookUnits_cons hc.1 _
  | unit a b c d hdigits =>
    have hlt : hexNumber [a, b, c, d] < 16 ^ 4 := hexNumber_lt hdigits
    have hcook := cookUnits_escape (escape_unit hdigits (spelled parts))
    rwa [Text.unitsOf_small (by omega)] at hcook
  | braced digits hne hdigits hsmall =>
    have hcook := cookUnits_escape (escape_codePoint hne hdigits (by omega) (spelled parts))
    rw [Text.unitsOf_small hsmall] at hcook
    simpa [Part.text, Part.units] using hcook
  | continuation ending hending =>
    have hend := lineEnd_of_mem hending (head_spelled_ne parts)
    cases ending with
    | nil => cases hend
    | cons d ds => exact cookUnits_continuation (escape_lineEnd hend)

theorem cookUnits_spelled (parts : List Part) : cookUnits (spelled parts) = unitsIn parts := by
  induction parts with
  | nil => exact cookUnits_nil
  | cons p parts ih => rw [spelled_cons, unitsIn_cons, cookUnits_part, ih]

/-- Text without a backslash is returned at once; the long way leads to the same text. -/
theorem cook_eq_decodeUnits (raw : List Char) : cook raw = decodeUnits (cookUnits raw) := by
  rw [cook]
  split
  · rfl
  · rename_i hplain
    rw [List.contains_iff_mem] at hplain
    rw [cookUnits_of_notMem hplain, Text.decodeUnits_units]

theorem cook_spelled_eq (parts : List Part) : cook (spelled parts) = decodeUnits (unitsIn parts) := by
  rw [cook_eq_decodeUnits, cookUnits_spelled]

/-- The halves of a character join over what has no units. -/
theorem cook_pair {p q : Part} {u v : Nat} (hp : p.units = [u]) (hq : q.units = [v])
    (hu : isHighSurrogate u = true) (hv : isLowSurrogate v = true) {gap : List Part} (hgap : unitsIn gap = [])
    (front back : List Part) :
    ∃ c : Char, c.toNat = 0x10000 + (u - 0xd800) * 0x400 + (v - 0xdc00) ∧
      cook (spelled (front ++ p :: (gap ++ q :: back))) = cook (spelled front) ++ c :: cook (spelled back) := by
  obtain ⟨c, hc⟩ := Text.exists_char_of_pair hu hv
  refine ⟨c, hc, ?_⟩
  have hunits : unitsIn (front ++ p :: (gap ++ q :: back)) = unitsIn front ++ (u :: v :: unitsIn back) := by
    simp [unitsIn_append, unitsIn_cons, hp, hq, hgap]
  -- a high surrogate is the second half of nothing
  have hcut : ∀ w ∈ (unitsIn front).getLast?, isHighSurrogate w = true →
      ∀ x ∈ (u :: v :: unitsIn back).head?, isLowSurrogate x = false := by
    intro w _ _ x hx
    obtain rfl : u = x := by simpa using hx
    rw [← Bool.not_eq_true]
    intro hlow
    rw [Text.not_high_of_low hlow] at hu
    cases hu
  rw [cook_spelled_eq, cook_spelled_eq, cook_spelled_eq, hunits, Text.decodeUnits_append _ _ hcut,
    Text.decodeUnits_pair hu hv hc]

/-- A surrogate alone is replaced where it stands. -/
theorem cook_unpaired {p : Part} {u : Nat} (hp : p.units = [u]) {front back : List Part}
    (halone : Unpaired (unitsIn front) u (unitsIn back)) :
    cook (spelled (front ++ p :: back)) = cook (spelled front) ++ replacement :: cook (spelled back) := by
  have hunits : unitsIn (front ++ p :: back) = unitsIn front ++ (u :: unitsIn back) := by
    simp [unitsIn_append, unitsIn_cons, hp]
  have hbefore : ∀ w ∈ (unitsIn front).getLast?, isHighSurrogate w = true →
      ∀ x ∈ (u :: unitsIn back).head?, isLowSurrogate x = false := by
    intro w hw hhigh x hx
    obtain rfl : u = x := by simpa using hx
    rcases halone with ⟨hu, _⟩ | ⟨_, hfree⟩
    · rw [← Bool.not_eq_true]
      intro hlow
      rw [Text.not_high_of_low hlow] at hu
      cases hu
    · rw [hfree w hw] at hhigh
      cases hhigh
  have hbehind : Text.isSurrogate u = true ∧
      (isHighSurrogate u = true → ∀ v ∈ (unitsIn back).head?, isLowSurrogate v = false) := by
    rcases halone with ⟨hu, hfree⟩ | ⟨hu, _⟩
    · exact ⟨Text.isSurrogate_iff.2 (.inl hu), fun _ => hfree⟩
    · refine ⟨Text.isSurrogate_iff.2 (.inr hu), fun hhigh => ?_⟩
      rw [Text.not_high_of_low hu] at hhigh
      cases hhigh
  rw [cook_spelled_eq, cook_spelled_eq, cook_spelled_eq, hunits, Text.decodeUnits_append _ _ hbefore,
    Text.decodeUnits_unpaired hbehind.1 hbehind.2]

/-! ### Code points -/

theorem hexFixed?_lt {n : Nat} {cs rest : List Char} {v w : Nat} (h : hexFixed? n cs v = some (w, rest)) :
    w < (v + 1) * 16 ^ n := by
  induction n generalizing cs v with
  | zero =>
    simp only [hexFixed?, Option.some.injEq, Prod.mk.injEq] at h
    omega
  | succ n ih =>
    cases cs with
    | nil => cases h
    | cons c cs =>
      rw [hexFixed?] at h
      cases hd : hexValue? c with
      | none => simp [hd] at h
      | some d =>
        rw [hd] at h
        have hlt := hexValue?_lt hd
        calc w < (16 * v + d + 1) * 16 ^ n := ih h
          _ ≤ ((v + 1) * 16) * 16 ^ n := Nat.mul_le_mul_right _ (by omega)
          _ = (v + 1) * 16 ^ (n + 1) := by rw [Nat.mul_assoc, Nat.pow_succ']

theorem octalValue?_lt {c : Char} {d : Nat} (h : octalValue? c = some d) : d < 8 := by
  unfold octalValue? at h
  split at h
  · next hc =>
    cases h
    have := octal_bounds (c := c) (by simpa [isOctal] using hc)
    omega
  · cases h

theorem octalRun_lt (n : Nat) (cs : List Char) (v : Nat) : (octalRun n cs v).1 < (v + 1) * 8 ^ n := by
  induction n generalizing cs v with
  | zero =>
    rw [octalRun]
    omega
  | succ n ih =>
    have hpos : v < (v + 1) * 8 ^ (n + 1) :=
      Nat.lt_of_lt_of_le (Nat.lt_succ_self v) (Nat.le_mul_of_pos_right _ (Nat.pow_pos (by decide)))
    cases cs with
    | nil => exact hpos
    | cons c cs =>
      rw [octalRun]
      cases hd : octalValue? c with
      | none => exact hpos
      | some d =>
        have hlt := octalValue?_lt hd
        calc (octalRun n cs (8 * v + d)).1 < (8 * v + d + 1) * 8 ^ n := ih cs _
          _ ≤ ((v + 1) * 8) * 8 ^ n := Nat.mul_le_mul_right _ (by omega)
          _ = (v + 1) * 8 ^ (n + 1) := by rw [Nat.mul_assoc, Nat.pow_succ']

theorem le_of_braced? {cs rest : List Char} {n : Nat} (h : braced? cs = some (n, rest)) : n ≤ 0x10ffff := by
  unfold braced? at h
  split at h
  · split at h
    · cases h
      split
      · assumption
      · decide
    · cases h
  · cases h

/-- What an escape stands for is a code point. -/
theorem le_of_mem_escape {c : Char} {cs : List Char} {n : Nat} (h : n ∈ (escape c cs).1) : n ≤ 0x10ffff := by
  have hself := Text.toNat_le c
  unfold escape at h
  split at h
  · next m hm =>
    rw [List.mem_singleton] at h
    subst h
    unfold simpleEscape? at hm
    split at hm <;> cases hm <;> decide
  · split at h
    · split at h <;> cases h
    · split at h
      · split at h
        · next hbraced => exact List.mem_singleton.1 h ▸ le_of_braced? hbraced
        · split at h
          · next hfixed =>
            have := hexFixed?_lt hfixed
            rw [List.mem_singleton] at h
            omega
          · exact List.mem_singleton.1 h ▸ hself
      · split at h
        · split at h
          · next hfixed =>
            have := hexFixed?_lt hfixed
            rw [List.mem_singleton] at h
            omega
          · exact List.mem_singleton.1 h ▸ hself
        · split at h
          · next d hd =>
            have hlt := octalValue?_lt hd
            have := octalRun_lt 2 cs d
            rw [List.mem_singleton] at h
            omega
          · exact List.mem_singleton.1 h ▸ hself

theorem le_of_mem_cookPoints {raw : List Char} {n : Nat} (h : n ∈ cookPoints raw) : n ≤ 0x10ffff := by
  fun_induction cookPoints raw with
  | case1 => cases h
  | case2 c => exact List.mem_singleton.1 h ▸ Text.toNat_le c
  | case3 d cs _ ih =>
    rcases List.mem_append.1 h with h | h
    · exact le_of_mem_escape h
    · exact ih h
  | case4 c d cs _ ih =>
    rcases List.mem_cons.1 h with rfl | h
    · exact Text.toNat_le c
    · exact ih h

/-- The code points stay as they are just if none is a surrogate: those go, the others are characters. -/
theorem cook_points_iff (raw : List Char) : (cook raw).map Char.toNat = cookPoints raw ↔
    ∀ n ∈ cookPoints raw, Text.isSurrogate n = false := by
  constructor
  · intro h n hn
    rw [← h] at hn
    obtain ⟨c, _, rfl⟩ := List.mem_map.1 hn
    exact Text.isSurrogate_toNat c
  · intro h
    have hvalid : ∀ n ∈ cookPoints raw, (Char.ofNat n).toNat = n := by
      intro n hn
      have hle := le_of_mem_cookPoints hn
      have hfree := h n hn
      refine Text.toNat_ofNat ?_
      simp only [Text.isSurrogate, Bool.and_eq_false_iff, decide_eq_false_iff_not] at hfree
      unfold Nat.isValidChar
      omega
    have hpoints : ((cookPoints raw).map Char.ofNat).map Char.toNat = cookPoints raw := by
      rw [List.map_map]
      exact (List.map_congr_left hvalid).trans (List.map_id _)
    have hunits : cookUnits raw = Text.units ((cookPoints raw).map Char.ofNat) := by
      rw [Text.units_eq, hpoints, cookUnits]
    rw [cook_eq_decodeUnits, hunits, Text.decodeUnits_units, hpoints]

/-- **Cooking a text in parts gives the text that the units of its parts encode.**  So two halves of a character join
over any gap without units, and a surrogate alone is replaced by one character, while what stands around them is cooked
by itself.  Of any text, the code points that its escapes spell reach the cooked text just if none is a surrogate; and a
text without backslashes is its own cooked text on the long way too. -/
theorem cook_spelled :
    (∀ (parts : List Part) (text : List Char), cook (spelled parts) = text ↔ Decodes (unitsIn parts) text) ∧
    (∀ (front gap back : List Part) (p q : Part) (u v : Nat), p.units = [u] → q.units = [v] →
      isHighSurrogate u = true → isLowSurrogate v = true → unitsIn gap = [] →
      ∃ c : Char, c.toNat = 0x10000 + (u - 0xd800) * 0x400 + (v - 0xdc00) ∧
        cook (spelled (front ++ p :: (gap ++ q :: back))) = cook (spelled front) ++ c :: cook (spelled back)) ∧
    (∀ (front back : List Part) (p : Part) (u : Nat), p.units = [u] → Unpaired (unitsIn front) u (unitsIn back) →
      cook (spelled (front ++ p :: back)) = cook (spelled front) ++ replacement :: cook (spelled back)) ∧
    (∀ raw : List Char, (cook raw).map Char.toNat = cookPoints raw ↔
      ∀ n ∈ cookPoints raw, Text.isSurrogate n = false) ∧
    ∀ raw : List Char, '\\' ∉ raw → cook raw = raw ∧ Text.decodePoints (cookPoints raw) = raw := by
  refine ⟨fun parts text => ?_, fun front gap back p q u v hp hq hu hv hgap => ?_,
    fun front back p u hp halone => ?_, cook_points_iff, fun raw hraw => ?_⟩
  · rw [cook_spelled_eq]
    exact Text.decodeUnits_eq_iff (unitsIn_lt parts)
  · exact cook_pair hp hq hu hv hgap front back
  · exact cook_unpaired hp halone
  · have hearly : cook raw = raw := if_neg (by rwa [List.contains_iff_mem])
    exact ⟨hearly, (cook_eq_decodeUnits raw).symm.trans hearly⟩

/-- Two halves in different spellings with a line end between them, then a low surrogate alone before a whole
character. -/
def mixedParts : List Part :=
  [.plain 'a' (by decide), .unit 'd' '8' '3' 'D' (List.all_eq_true.1 rfl), .continuation ['\r', '\n'] (by decide),
   .braced ['0', '0', 'd', 'e', '0', '0'] (by decide) (List.all_eq_true.1 rfl) (by decide),
   .unit 'D' 'C' '0' '0' (List.all_eq_true.1 rfl), .plain '😀' (by decide)]

theorem cook_spelled_mixedParts : cook (spelled mixedParts) = ['a', '😀', replacement, '😀'] :=
  (cook_spelled.1 mixedParts _).2 <| @Decodes.single 'a' _ _ (by decide) <|
    .pair (by decide) (by decide) (by decide) <| .unpaired (by decide) (by decide) <|
    .pair (by decide) (by decide) (by decide) .nil

end Literal

end RequestAtlas
