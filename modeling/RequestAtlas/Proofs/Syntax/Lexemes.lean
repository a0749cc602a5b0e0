import RequestAtlas.Proofs.Json.Spelling
import RequestAtlas.Proofs.Syntax.Steps
/-!
# Written texts, digits and words as tokens of a script

What documents write for a text is one string token (`string_written`), the digits of a number are one number token
(`number_digits`), whatever follows that cannot be a part of them.
-/

namespace RequestAtlas.Syntax

open Value (escapeChar writeString)

/-! ## Strings -/

/-- A letter or a sign behind a backslash is an escape of its own. -/
theorem pastEscape?_letter {d : Char} (hx : d ≠ 'x') (hu : d ≠ 'u') (hdigit : isOctalDigit d = false)
    (hline : d ≠ '\r' ∧ d ≠ '?') (cs : List Char) : pastEscape? (d :: cs) = some cs := by
  cases cs <;> simp [pastEscape?, hx, hu, hdigit, hline]

theorem isHexDigit_digitChar : ∀ n < 16, isHexDigit (Nat.digitChar n) = true := by
  decide

theorem pastEscape?_code {n : Nat} (h : n < 32) (cs : List Char) :
    pastEscape? ('u' :: (Text.hexPadded 4 n ++ cs)) = some cs := by
  have hzero : isHexDigit '0' = true := rfl
  have hhigh := isHexDigit_digitChar (n / 16) (by omega)
  have hlow := isHexDigit_digitChar (n % 16) (by omega)
  rw [Json.hexPadded_four n h]
  simp [pastEscape?, pastCodeEscape?, hzero, hhigh, hlow]

theorem pastString?_escape {d : Char} {cs rest : List Char} (h : pastEscape? (d :: cs) = some rest) (fuel : Nat) :
    pastString?.go '"' (fuel + 1) ('\\' :: d :: cs) = pastString?.go '"' fuel rest := by
  rw [pastString?.go, if_neg (by decide), if_pos (by decide), h]
  rfl

/-- One written character is passed in one step. -/
theorem pastString?_escapeChar (c : Char) (cs : List Char) (fuel : Nat) :
    pastString?.go '"' (fuel + 1) (escapeChar c ++ cs) = pastString?.go '"' fuel cs := by
  unfold escapeChar
  split
  case h_8 hq hb hn hr ht h8 hf =>
    split
    · rename_i h
      exact pastString?_escape (pastEscape?_code h cs) fuel
    · rw [List.singleton_append, pastString?.go, if_neg (by simpa using hq), if_neg (by simpa using hb),
        if_neg (by simpa using ⟨hn, hr⟩)]
  all_goals exact pastString?_escape (pastEscape?_letter (by decide) (by decide) (by decide) (by decide) cs) fuel

theorem pastString?_escaped : ∀ {cs rest : List Char} {fuel : Nat}, cs.length < fuel →
    pastString?.go '"' fuel (cs.flatMap escapeChar ++ '"' :: rest) = some rest
  | [], rest, fuel + 1, _ => by
    rw [List.flatMap_nil, List.nil_append, pastString?.go, if_pos (by decide)]
  | c :: cs, rest, fuel + 1, h => by
    rw [List.flatMap_cons, List.append_assoc, pastString?_escapeChar, pastString?_escaped (by simpa using h)]

theorem length_le_flatMap_escapeChar : ∀ cs : List Char, cs.length ≤ (cs.flatMap escapeChar).length
  | [] => Nat.le_refl 0
  | c :: cs => by
    have hpos : 0 < (escapeChar c).length := by
      unfold escapeChar
      split
      case h_8 => split <;> simp
      all_goals simp
    have ih := length_le_flatMap_escapeChar cs
    rw [List.flatMap_cons, List.length_append, List.length_cons]
    omega

namespace Parse

theorem node_before (kind : Kind) (a b : List Char) (o : Nat) (children : List Node) :
    node kind (.before (a ++ b) o) children (.before b (o + bytes a)) =
      some (.mk kind none o a children, .before b (o + bytes a)) := by
  rw [node, Cursor.charsTo_before]
  rfl

theorem jumpTo_before (a b : List Char) (o : Nat) :
    jumpTo b (.before (a ++ b) o) = some ((), .before b (o + bytes a)) := by
  have hleft : (Cursor.before (a ++ b) o).left - b.length = a.length := by
    simp [Cursor.before]
  show some ((), (Cursor.before (a ++ b) o).skipN ((Cursor.before (a ++ b) o).left - b.length)) = _
  rw [hleft, Cursor.skipN_before]

/-- **A written text is one string.** -/
theorem string_written (s : String) (rest : List Char) (o : Nat) :
    string (.before (writeString s ++ rest) o) =
      some (.mk .string none o (writeString s) [], .before rest (o + bytes (writeString s))) := by
  have htext : writeString s ++ rest = '"' :: (s.toList.flatMap escapeChar ++ '"' :: rest) := by
    rw [writeString, List.append_assoc]
    rfl
  have hstart : Starts (writeString s ++ rest) := by
    rw [htext]
    intro c hc
    cases hc
    decide
  have hpast : pastString? '"' (s.toList.flatMap escapeChar ++ '"' :: rest) = some rest := by
    refine pastString?_escaped ?_
    have hlength := length_le_flatMap_escapeChar s.toList
    rw [List.length_append]
    omega
  have hrest : (Cursor.before (writeString s ++ rest) o).rest =
      '"' :: (s.toList.flatMap escapeChar ++ '"' :: rest) := htext
  rw [string, bind_of_some (here_of_starts hstart o)]
  simp only [hrest]
  rw [bind_of_some (ensure_of_true (by decide))]
  simp only [hpast]
  rw [bind_of_some (jumpTo_before (writeString s) rest o), node_before]

end Parse

/-! ## Numbers -/

/-- What ends a number is none of the characters that could go on with it. -/
theorem Ends.ne {c d : Char} {cs : List Char} (h : Ends (c :: cs)) (hd : isWordChar d = true) : c ≠ d := by
  rintro rfl
  have hc := (h c (by simp)).1
  rw [hd] at hc
  cases hc

theorem isWordChar_of_isDigit {c : Char} (h : c.isDigit = true) : isWordChar c = true := by
  have hall : ∀ n < 58, 48 ≤ n → isWordChar (Char.ofNat n) = true := by decide
  rw [Char.isDigit_iff_toNat] at h
  have hlo : 48 ≤ c.toNat := h.1
  have hhi : c.toNat ≤ 57 := h.2
  rw [← Char.ofNat_toNat c]
  exact hall c.toNat (by omega) hlo

theorem Ends.not_isDigit {c : Char} {cs : List Char} (h : Ends (c :: cs)) : c.isDigit = false := by
  rw [← Bool.not_eq_true]
  exact fun hc => h.ne (isWordChar_of_isDigit hc) rfl

theorem pastDigits?_go {rest : List Char} (hrest : Ends rest) : ∀ {ds : List Char}, (∀ c ∈ ds, c.isDigit = true) →
    pastDigits?.go Char.isDigit (ds ++ rest) = rest
  | [], _ => by
    cases rest with
    | nil => rfl
    | cons c rest =>
      have hdigit := hrest.not_isDigit
      have hunderscore : c ≠ '_' := hrest.ne (by decide)
      rw [List.nil_append]
      unfold pastDigits?.go
      split <;> simp_all
  | d :: ds, h => by
    rw [List.forall_mem_cons] at h
    have hunderscore : d ≠ '_' := by
      rintro rfl
      exact absurd h.1 (by decide)
    have ih := pastDigits?_go hrest h.2
    rw [List.cons_append]
    unfold pastDigits?.go
    split <;> simp_all

theorem pastDigits?_digits {ds rest : List Char} (hds : ∀ c ∈ ds, c.isDigit = true) (hne : ds ≠ [])
    (hrest : Ends rest) : pastDigits? Char.isDigit (ds ++ rest) = some rest := by
  obtain ⟨d, ds, rfl⟩ := List.exists_cons_of_ne_nil hne
  rw [List.forall_mem_cons] at hds
  rw [List.cons_append, pastDigits?, if_pos hds.1, pastDigits?_go hrest hds.2]

/-- Neither a letter nor a point comes behind digits. -/
theorem head_ne_of_digits {ds rest : List Char} (hds : ∀ c ∈ ds, c.isDigit = true) (hrest : Ends rest) {d : Char}
    (hd : d.isDigit = false) (hword : isWordChar d = true ∨ d = '.') : ∀ c ∈ (ds ++ rest).head?, c ≠ d := by
  intro c hc
  cases ds with
  | nil =>
    rcases hword with hword | rfl
    · rintro rfl
      rw [(hrest c hc).1] at hword
      cases hword
    · exact (hrest c hc).2.2
  | cons e ds =>
    cases hc
    rintro rfl
    rw [hds c (by simp)] at hd
    cases hd

theorem pastPrefixed?_digits {ds rest : List Char} (hds : ∀ c ∈ ds, c.isDigit = true) (hne : ds ≠ [])
    (hrest : Ends rest) : pastPrefixed? (ds ++ rest) = none := by
  obtain ⟨d, ds, rfl⟩ := List.exists_cons_of_ne_nil hne
  rw [List.forall_mem_cons] at hds
  rw [List.cons_append]
  cases htail : ds ++ rest with
  | nil => simp [pastPrefixed?]
  | cons p r =>
    have hp : ∀ e, e.isDigit = false → isWordChar e = true → p ≠ e := fun e he hword =>
      head_ne_of_digits hds.2 hrest he (.inl hword) p (by rw [htail]; rfl)
    unfold pastPrefixed?
    split
    · rename_i heq
      obtain ⟨rfl, rfl⟩ := List.cons.inj (List.cons.inj heq).2
      simp [hp 'x' (by decide) (by decide), hp 'X' (by decide) (by decide), hp 'o' (by decide) (by decide),
        hp 'O' (by decide) (by decide), hp 'b' (by decide) (by decide), hp 'B' (by decide) (by decide)]
    · rfl

/-- No exponent starts behind digits. -/
theorem pastExponent?_digits {ds rest : List Char} (hds : ∀ c ∈ ds, c.isDigit = true) (hrest : Ends rest) :
    pastExponent? (ds ++ rest) = none := by
  have he := head_ne_of_digits hds hrest (d := 'e') (by decide) (.inl (by decide))
  have hE := head_ne_of_digits hds hrest (d := 'E') (by decide) (.inl (by decide))
  cases htail : ds ++ rest with
  | nil => rfl
  | cons c r =>
    rw [htail] at he hE
    have hc : c ≠ 'e' := he c rfl
    have hC : c ≠ 'E' := hE c rfl
    simp [pastExponent?, hc, hC]

/-- The integer part of what digits spell ends among the digits or behind them. -/
theorem pastIntegerParts_digits {ds rest : List Char} (hds : ∀ c ∈ ds, c.isDigit = true) (hne : ds ≠ [])
    (hrest : Ends rest) :
    ∀ r ∈ pastIntegerParts (ds ++ rest), ∃ back, (∀ c ∈ back, c.isDigit = true) ∧ r = back ++ rest := by
  have nonzero : ∀ {es : List Char}, (∀ c ∈ es, c.isDigit = true) → es ≠ [] →
      ∀ r ∈ pastIntegerParts.fromNonzero (es ++ rest), ∃ back, (∀ c ∈ back, c.isDigit = true) ∧ r = back ++ rest := by
    intro es hes hne r hr
    rw [pastIntegerParts.fromNonzero, pastDigits?_digits hes hne hrest] at hr
    obtain ⟨d, es, rfl⟩ := List.exists_cons_of_ne_nil hne
    rcases List.mem_append.1 hr with hr | hr
    · exact ⟨es, (List.forall_mem_cons.1 hes).2, List.mem_singleton.1 hr⟩
    · exact ⟨[], by simp, List.mem_singleton.1 hr⟩
  intro r hr
  obtain ⟨d, ds, rfl⟩ := List.exists_cons_of_ne_nil hne
  rw [List.cons_append] at hr
  unfold pastIntegerParts at hr
  split at hr
  · rename_i heq
    obtain ⟨rfl, rfl⟩ := List.cons.inj heq
    rcases List.mem_cons.1 hr with rfl | hr
    · exact ⟨ds, (List.forall_mem_cons.1 hds).2, rfl⟩
    · split at hr
      · rename_i c tail heq
        split at hr
        · rename_i hc
          have hdigit : c.isDigit = true := by
            rw [Bool.and_eq_true, decide_eq_true_eq, decide_eq_true_eq] at hc
            have hlo : 49 ≤ c.toNat := hc.1
            exact Char.isDigit_iff_toNat.2 ⟨by show 48 ≤ c.toNat; omega, hc.2⟩
          refine nonzero (List.forall_mem_cons.1 hds).2 ?_ r hr
          rintro rfl
          rw [List.nil_append] at heq
          rw [heq] at hrest
          rw [hrest.not_isDigit] at hdigit
          cases hdigit
        · cases hr
      · cases hr
  · rename_i heq
    obtain ⟨rfl, rfl⟩ := List.cons.inj heq
    split at hr
    · exact nonzero hds hne r hr
    · cases hr
  · cases hr

/-- **The digits of a number are one number.** -/
theorem numberLength_digits {ds rest : List Char} (hds : ∀ c ∈ ds, c.isDigit = true) (hne : ds ≠ [])
    (hrest : Ends rest) : numberLength (ds ++ rest) = ds.length := by
  have hpointed : ∀ r ∈ pastIntegerParts (ds ++ rest), (∀ r', r ≠ '.' :: r') ∧ pastExponent? r = none := by
    intro r hr
    obtain ⟨back, hback, rfl⟩ := pastIntegerParts_digits hds hne hrest r hr
    refine ⟨fun r' heq => ?_, pastExponent?_digits hback hrest⟩
    exact head_ne_of_digits hback hrest (d := '.') (by decide) (.inr rfl) '.' (by rw [heq]; rfl) rfl
  have hbare : ∀ r', ds ++ rest ≠ '.' :: r' := fun r' heq =>
    head_ne_of_digits hds hrest (d := '.') (by decide) (.inr rfl) '.' (by rw [heq]; rfl) rfl
  -- of all forms a number may have only the plain digits match
  have hends : numberEnds (ds ++ rest) = [rest] := by
    have alone : ∀ {a b c d : List (List Char)}, b = [] → c = [] → d = [] → a ++ b ++ c ++ d = a := by
      rintro a _ _ _ rfl rfl rfl
      simp
    simp only [numberEnds, pastPrefixed?_digits hds hne hrest, pastDigits?_digits hds hne hrest, Option.toList_none,
      Option.toList_some, List.nil_append]
    refine alone ?_ (List.flatMap_eq_nil_iff.2 fun r hr => ?_) ?_
    · cases rest with
      | nil => rfl
      | cons c rest => simp [hrest.ne (d := 'n') (by decide)]
    · obtain ⟨hdot, hexponent⟩ := hpointed r hr
      split
      · exact absurd rfl (hdot _)
      · rw [hexponent]
        rfl
    · rfl
  rw [numberLength, hends]
  simp

namespace Parse

theorem number_digits {ds rest : List Char} (hds : ∀ c ∈ ds, c.isDigit = true) (hne : ds ≠ []) (hrest : Ends rest)
    (o : Nat) :
    number (.before (ds ++ rest) o) = some (.mk .number none o ds [], .before rest (o + bytes ds)) := by
  have hstart : Starts (ds ++ rest) := by
    obtain ⟨d, ds, rfl⟩ := List.exists_cons_of_ne_nil hne
    intro c hc
    cases hc
    exact startsToken_of_isWordChar (isWordChar_of_isDigit (hds d (by simp)))
  have hlength := numberLength_digits hds hne hrest
  have hpositive : (numberLength (ds ++ rest) != 0) = true := by
    rw [hlength, bne_iff_ne]
    simpa using hne
  have hskip : (Cursor.before (ds ++ rest) o).skipN (numberLength (ds ++ rest)) = .before rest (o + bytes ds) := by
    rw [hlength, Cursor.skipN_before]
  rw [number, bind_of_some (here_of_starts hstart o)]
  refine (bind_of_some (ensure_of_true hpositive)).trans ?_
  show node .number (.before (ds ++ rest) o) [] ((Cursor.before (ds ++ rest) o).skipN (numberLength (ds ++ rest))) = _
  rw [hskip, node_before]

/-! ## Words and signs -/

theorem tokenNode_before {s : String} {rest : List Char} (hs : Starts (s.toList ++ rest)) (o : Nat) :
    tokenNode s (.before (s.toList ++ rest) o) =
      some (.mk (.token s) none o s.toList [], .before rest (o + bytes s.toList)) := by
  rw [tokenNode, bind_of_some (here_of_starts hs o), bind_of_some (exactly_before s rest o), node_before]

theorem wordAhead_before {w : String} (hw : IsWord w) {rest : List Char} (hrest : Ends rest) (o : Nat) :
    wordAhead (.before (w.toList ++ rest) o) = some (some w, .before (w.toList ++ rest) o) := by
  rw [wordAhead, word_before hw hrest]
  rfl

theorem wordAhead_of_length {cs : List Char} (h : Starts cs) (hw : wordLength cs = 0) (o : Nat) :
    wordAhead (.before cs o) = some (none, .before cs o) := by
  rw [wordAhead, word_of_length h.plain (by rwa [h.dropWhile])]
  rfl

theorem keywordNode_before {w : String} (hw : IsWord w) (kind : Kind) {rest : List Char} (hrest : Ends rest) (o : Nat) :
    keywordNode kind w (.before (w.toList ++ rest) o) =
      some (.mk kind none o w.toList [], .before rest (o + bytes w.toList)) := by
  have hkeyword : keyword w (.before (w.toList ++ rest) o) = some ((), .before rest (o + bytes w.toList)) := by
    rw [keyword, bind_of_some (word_before hw hrest o), ensure_of_true (beq_self_eq_true w)]
  rw [keywordNode, bind_of_some (here_of_starts (hw.starts rest) o), bind_of_some hkeyword, node_before]

end Parse

end RequestAtlas.Syntax
