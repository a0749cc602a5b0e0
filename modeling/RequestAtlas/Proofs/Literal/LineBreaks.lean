import RequestAtlas.Proofs.Literal.Segments
import RequestAtlas.Proofs.Literal.Surrogates
/-!
# Line breaks in templates

A script may end its lines with a line feed alone or with a carriage return in front of it.  `Node.withCrlf` is a
literal's tree as it stands in the second kind of script: every text in it has the carriage returns, and every place is
moved by those before it.

A line feed behind a backslash continues the line either way.  Any other one is bare, and cooking keeps a bare line
break as it is written.  Main statement `url?_withCrlf_iff`: the URL of a template is the same in both scripts exactly
if no segment of it has a bare line feed; each one adds a carriage return to the URL.
-/

namespace RequestAtlas

namespace Text

/-- Only one unit is decoded to a carriage return. -/
theorem count_decodeUnits (us : List Nat) : (decodeUnits us).count '\r' = us.count 13 := by
  have hsingle : ∀ u, ((if isSurrogate u then replacement else Char.ofNat u) == '\r') = (u == 13) := by
    intro u
    rw [Bool.eq_iff_iff, beq_iff_eq, beq_iff_eq]
    constructor
    · intro heq
      by_cases hvalid : u.isValidChar
      · split at heq
        · cases heq
        · rw [← toNat_ofNat hvalid, heq]
          rfl
      · split at heq
        · cases heq
        · rw [Char.ofNat, dif_neg hvalid] at heq
          cases heq
    · rintro rfl
      rfl
  fun_induction decodeUnits us with
  | case1 => rfl
  | case2 u => rw [List.count_cons, List.count_cons, hsingle u]; rfl
  | case3 u v us hpair ih =>
    simp only [isHighSurrogate, isLowSurrogate, Bool.and_eq_true, decide_eq_true_eq] at hpair
    have hne : Char.ofNat (0x10000 + (u - 0xd800) * 0x400 + (v - 0xdc00)) ≠ '\r' := by
      intro heq
      have hvalid : (0x10000 + (u - 0xd800) * 0x400 + (v - 0xdc00)).isValidChar := by
        unfold Nat.isValidChar
        omega
      have hnat := toNat_ofNat hvalid
      rw [heq] at hnat
      have hcr : '\r'.toNat = 13 := rfl
      omega
    rw [List.count_cons_of_ne hne, List.count_cons_of_ne (by omega), List.count_cons_of_ne (by omega), ih]
  | case4 u v us hpair ih => rw [List.count_cons, List.count_cons, hsingle u, ih]

end Text

namespace Literal

open RequestAtlas.Syntax
open Text (unitsOf)

/-! ## Line feeds with carriage returns -/

/-- Every line feed with a carriage return in front. -/
def crlf (cs : List Char) : List Char := cs.flatMap fun c => if c = '\n' then ['\r', '\n'] else [c]

theorem crlf_lineFeed (cs : List Char) : crlf ('\n' :: cs) = '\r' :: '\n' :: crlf cs := rfl

theorem crlf_cons {c : Char} (h : c ≠ '\n') (cs : List Char) : crlf (c :: cs) = c :: crlf cs := by
  simp [crlf, h]

theorem crlf_append (cs ds : List Char) : crlf (cs ++ ds) = crlf cs ++ crlf ds := List.flatMap_append

theorem crlf_of_notMem : ∀ {cs : List Char}, '\n' ∉ cs → crlf cs = cs
  | [], _ => rfl
  | c :: cs, h => by
    rw [List.mem_cons, not_or] at h
    rw [crlf_cons (Ne.symm h.1), crlf_of_notMem h.2]

/-- How many line feeds have no backslash in front. -/
def bareBreaks : List Char → Nat
  | '\\' :: _ :: cs => bareBreaks cs
  | c :: cs => (if c = '\n' then 1 else 0) + bareBreaks cs
  | [] => 0

theorem bareBreaks_cons {c : Char} (h : c ≠ '\\') (cs : List Char) :
    bareBreaks (c :: cs) = (if c = '\n' then 1 else 0) + bareBreaks cs := by
  rw [bareBreaks]
  rintro d ds rfl rfl
  exact h rfl

/-! ## Escapes before line breaks

No escape but a continuation takes a line break, so each reads the same in front of both kinds. -/

/-- The rest behind what an escape takes from a text: neither line breaks nor backslashes are taken. -/
def Takes (cs rest : List Char) : Prop := ∃ taken, cs = taken ++ rest ∧ ∀ c ∈ taken, c ≠ '\\' ∧ c ≠ '\n'

theorem Takes.refl (cs : List Char) : Takes cs cs := ⟨[], rfl, by simp⟩

theorem Takes.cons {c : Char} (hc : c ≠ '\\' ∧ c ≠ '\n') {cs rest : List Char} (h : Takes cs rest) :
    Takes (c :: cs) rest := by
  obtain ⟨taken, rfl, htaken⟩ := h
  exact ⟨c :: taken, rfl, List.forall_mem_cons.2 ⟨hc, htaken⟩⟩

theorem Takes.bareBreaks {cs rest : List Char} (h : Takes cs rest) : bareBreaks rest = bareBreaks cs := by
  obtain ⟨taken, rfl, htaken⟩ := h
  induction taken with
  | nil => rfl
  | cons c taken ih =>
    rw [List.forall_mem_cons] at htaken
    rw [ih htaken.2, List.cons_append, bareBreaks_cons htaken.1.1, if_neg htaken.1.2, Nat.zero_add]

theorem ne_of_hexValue? {c : Char} {d : Nat} (h : hexValue? c = some d) : c ≠ '\\' ∧ c ≠ '\n' := by
  constructor <;> rintro rfl <;> cases h

theorem takes_hexRun : ∀ (cs : List Char) (v n : Nat), Takes cs (hexRun cs v n).2.2
  | [], _, _ => .refl _
  | c :: cs, v, n => by
    rw [hexRun]
    cases hc : hexValue? c with
    | none => exact .refl _
    | some d => exact (takes_hexRun cs _ _).cons (ne_of_hexValue? hc)

theorem takes_hexFixed? : ∀ {n : Nat} {cs : List Char} {v w : Nat} {rest : List Char},
    hexFixed? n cs v = some (w, rest) → Takes cs rest
  | 0, cs, v, w, rest, h => by
    cases h
    exact .refl _
  | n + 1, [], _, _, _, h => by cases h
  | n + 1, c :: cs, v, w, rest, h => by
    rw [hexFixed?] at h
    cases hc : hexValue? c with
    | none =>
      rw [hc] at h
      cases h
    | some d =>
      rw [hc] at h
      exact (takes_hexFixed? h).cons (ne_of_hexValue? hc)

theorem takes_octalRun : ∀ (n : Nat) (cs : List Char) (v : Nat), Takes cs (octalRun n cs v).2
  | 0, _, _ => .refl _
  | _ + 1, [], _ => .refl _
  | n + 1, c :: cs, v => by
    rw [octalRun]
    cases hc : octalValue? c with
    | none => exact .refl _
    | some d =>
      have hne : c ≠ '\\' ∧ c ≠ '\n' := by constructor <;> rintro rfl <;> cases hc
      exact (takes_octalRun n cs _).cons hne

theorem takes_braced? {cs rest : List Char} {n : Nat} (h : braced? cs = some (n, rest)) : Takes cs rest := by
  unfold braced? at h
  split at h
  · rename_i cs
    have htakes := takes_hexRun cs 0 0
    split at h
    · rename_i v k r heq
      rw [heq] at htakes
      cases h
      obtain ⟨taken, htaken, hall⟩ := htakes
      refine Takes.cons (by decide) ⟨taken ++ ['}'], ?_, ?_⟩
      · rw [htaken, List.append_assoc]
        rfl
      · exact List.forall_mem_append.2 ⟨hall, by simp⟩
    · cases h
  · cases h

theorem hexRun_crlf : ∀ (cs : List Char) (v n : Nat), hexRun (crlf cs) v n =
    ((hexRun cs v n).1, (hexRun cs v n).2.1, crlf (hexRun cs v n).2.2)
  | [], _, _ => rfl
  | c :: cs, v, n => by
    by_cases hc : c = '\n'
    · subst hc
      rfl
    · rw [crlf_cons hc, hexRun, hexRun]
      cases hexValue? c with
      | none => simp only [crlf_cons hc]
      | some d => exact hexRun_crlf cs _ _

theorem hexFixed?_crlf : ∀ (n : Nat) (cs : List Char) (v : Nat),
    hexFixed? n (crlf cs) v = (hexFixed? n cs v).map fun p => (p.1, crlf p.2)
  | 0, _, _ => rfl
  | _ + 1, [], _ => rfl
  | n + 1, c :: cs, v => by
    by_cases hc : c = '\n'
    · subst hc
      rfl
    · rw [crlf_cons hc, hexFixed?, hexFixed?]
      cases hexValue? c with
      | none => rfl
      | some d => exact hexFixed?_crlf n cs _

theorem octalRun_crlf : ∀ (n : Nat) (cs : List Char) (v : Nat),
    octalRun n (crlf cs) v = ((octalRun n cs v).1, crlf (octalRun n cs v).2)
  | 0, _, _ => rfl
  | _ + 1, [], _ => rfl
  | n + 1, c :: cs, v => by
    by_cases hc : c = '\n'
    · subst hc
      rfl
    · rw [crlf_cons hc, octalRun, octalRun]
      cases octalValue? c with
      | none => simp only [crlf_cons hc]
      | some d => exact octalRun_crlf n cs _

theorem braced?_of_ne {c : Char} (h : c ≠ '{') (cs : List Char) : braced? (c :: cs) = none := by
  unfold braced?
  split
  · rename_i heq
    exact absurd (List.cons.inj heq).1 h
  · rfl

theorem braced?_crlf (cs : List Char) : braced? (crlf cs) = (braced? cs).map fun p => (p.1, crlf p.2) := by
  cases cs with
  | nil => rfl
  | cons c cs =>
    by_cases hc : c = '\n'
    · subst hc
      rfl
    by_cases hbrace : c = '{'
    · subst hbrace
      rw [crlf_cons hc, braced?, braced?, hexRun_crlf]
      obtain ⟨v, k, rest⟩ := hexRun cs 0 0
      cases k with
      | zero => rfl
      | succ k =>
        cases rest with
        | nil => rfl
        | cons x rest =>
          by_cases hx : x = '\n'
          · subst hx
            rfl
          · rw [crlf_cons hx]
            by_cases hend : x = '}'
            · subst hend
              rfl
            · simp [hend]
    · rw [crlf_cons hc, braced?_of_ne hbrace, braced?_of_ne hbrace]
      rfl

/-- Only a carriage return takes something behind it into its end of the line. -/
theorem escape_continuation {d : Char} (hline : isLineContinuation d = true) (hd : d ≠ '\r') (cs : List Char) :
    escape d cs = ([], cs) := by
  simp only [isLineContinuation, Bool.or_eq_true, beq_iff_eq] at hline
  rcases hline with ((rfl | rfl) | rfl) | rfl
  · rfl
  · exact absurd rfl hd
  · rfl
  · rfl

theorem escape_crlf {d : Char} (hd : d ≠ '\r') (cs : List Char) :
    escape d (crlf cs) = ((escape d cs).1, crlf (escape d cs).2) := by
  cases hline : isLineContinuation d with
  | true => rw [escape_continuation hline hd, escape_continuation hline hd]
  | false =>
  unfold escape
  cases simpleEscape? d with
  | some n => rfl
  | none =>
    simp only [hline, if_neg Bool.false_ne_true]
    split
    · rw [braced?_crlf, hexFixed?_crlf]
      cases braced? cs with
      | some p => rfl
      | none => cases hexFixed? 4 cs 0 <;> rfl
    · split
      · rw [hexFixed?_crlf]
        cases hexFixed? 2 cs 0 <;> rfl
      · cases octalValue? d with
        | some n => simp only [octalRun_crlf]
        | none => rfl

theorem takes_escape {d : Char} (hd : d ≠ '\r') (cs : List Char) : Takes cs (escape d cs).2 := by
  cases hline : isLineContinuation d with
  | true =>
    rw [escape_continuation hline hd]
    exact .refl cs
  | false =>
  unfold escape
  cases simpleEscape? d with
  | some n => exact .refl cs
  | none =>
    simp only [hline, if_neg Bool.false_ne_true]
    split
    · cases hbraced : braced? cs with
      | some p => exact takes_braced? hbraced
      | none =>
        cases hfixed : hexFixed? 4 cs 0 with
        | some p => exact takes_hexFixed? hfixed
        | none => exact .refl cs
    · split
      · cases hfixed : hexFixed? 2 cs 0 with
        | some p => exact takes_hexFixed? hfixed
        | none => exact .refl cs
      · cases octalValue? d with
        | some n => exact takes_octalRun 2 cs n
        | none => exact .refl cs

/-! ## Cooking -/

theorem cookUnits_backslash (d : Char) (cs : List Char) :
    cookUnits ('\\' :: d :: cs) = (escape d cs).1.flatMap unitsOf ++ cookUnits (escape d cs).2 := by
  rw [cookUnits, cookPoints, if_pos rfl, List.flatMap_append]
  rfl

/-- What carriage returns before the line feeds of `s` do to its units: each bare break adds one, and nothing else
changes. -/
structure Widens (s : List Char) : Prop where
  count : (cookUnits (crlf s)).count 13 = (cookUnits s).count 13 + bareBreaks s
  same : bareBreaks s = 0 → cookUnits (crlf s) = cookUnits s

/-- A text behind a part that both spellings share. -/
theorem Widens.behind {s rest : List Char} {us : List Nat} (h : Widens rest)
    (hcrlf : cookUnits (crlf s) = us ++ cookUnits (crlf rest)) (hs : cookUnits s = us ++ cookUnits rest)
    (hbreaks : bareBreaks s = bareBreaks rest) : Widens s where
  count := by rw [hcrlf, hs, List.count_append, List.count_append, h.count, hbreaks, Nat.add_assoc]
  same hzero := by rw [hcrlf, hs, h.same (hbreaks ▸ hzero)]

theorem Widens.escaped {d : Char} (hd : d ≠ '\r') {cs : List Char} (h : Widens (escape d cs).2) :
    Widens ('\\' :: d :: cs) := by
  have hbreaks : bareBreaks ('\\' :: d :: cs) = bareBreaks (escape d cs).2 := by
    rw [(takes_escape hd cs).bareBreaks, bareBreaks]
  refine h.behind ?_ (cookUnits_backslash d cs) hbreaks
  by_cases hline : d = '\n'
  · subst hline
    exact cookUnits_continuation rfl
  · rw [crlf_cons (by decide), crlf_cons hline, cookUnits_backslash, escape_crlf hd]

theorem Widens.lineFeed {cs : List Char} (h : Widens cs) : Widens ('\n' :: cs) where
  count := by
    rw [crlf_lineFeed, cookUnits_cons (by decide), cookUnits_cons (by decide), cookUnits_cons (by decide),
      bareBreaks_cons (by decide), if_pos rfl, List.count_append, List.count_append, List.count_append, h.count]
    have hreturn : (unitsOf '\r'.toNat).count 13 = 1 := rfl
    omega
  same hzero := by
    rw [bareBreaks_cons (by decide), if_pos rfl] at hzero
    omega

theorem Widens.plain {c : Char} (hc : c ≠ '\\') {cs : List Char} (h : Widens cs) : Widens (c :: cs) := by
  by_cases hline : c = '\n'
  · subst hline
    exact h.lineFeed
  · refine h.behind ?_ (cookUnits_cons hc cs) ?_
    · rw [crlf_cons hline, cookUnits_cons hc]
    · rw [bareBreaks_cons hc, if_neg hline, Nat.zero_add]

/-- **A text without carriage returns widens at its bare breaks.** -/
theorem widens_of_notMem (s : List Char) (hs : '\r' ∉ s) : Widens s := by
  fun_induction cookPoints s with
  | case1 => exact ⟨rfl, fun _ => rfl⟩
  | case2 c =>
    by_cases hc : c = '\\'
    · subst hc
      exact ⟨rfl, fun _ => rfl⟩
    · exact Widens.plain hc ⟨rfl, fun _ => rfl⟩
  | case3 d cs _ ih =>
    simp only [List.mem_cons, not_or] at hs
    obtain ⟨taken, htaken, _⟩ := takes_escape (Ne.symm hs.2.1) cs
    have hrest : '\r' ∉ (escape d cs).2 := fun hmem => hs.2.2 (htaken ▸ List.mem_append_right taken hmem)
    exact (ih hrest).escaped (Ne.symm hs.2.1)
  | case4 c d cs hc ih => exact (ih fun hmem => hs (List.mem_cons_of_mem c hmem)).plain hc

theorem count_cook (s : List Char) : (cook s).count '\r' = (cookUnits s).count 13 := by
  rw [cook_eq_decodeUnits, Text.count_decodeUnits]

theorem count_cook_crlf {s : List Char} (hs : '\r' ∉ s) :
    (cook (crlf s)).count '\r' = (cook s).count '\r' + bareBreaks s := by
  rw [count_cook, count_cook, (widens_of_notMem s hs).count]

theorem cook_crlf {s : List Char} (hs : '\r' ∉ s) (hbreaks : bareBreaks s = 0) : cook (crlf s) = cook s := by
  rw [cook_eq_decodeUnits, cook_eq_decodeUnits, (widens_of_notMem s hs).same hbreaks]

/-! ## Trees of scripts with carriage returns -/

mutual

/-- A tree whose texts have carriage returns before their line feeds, at other places. -/
def recast (place : Nat → Nat) : Node → Node
  | .mk kind role start chars children => .mk kind role (place start) (crlf chars) (recastAll place children)

/-- Apply `recast` to each node. -/
def recastAll (place : Nat → Nat) : List Node → List Node
  | [] => []
  | c :: cs => recast place c :: recastAll place cs

end

/-- Where byte `pos` of a text that starts at byte `base` stands if the text starts at `base'` and has carriage returns
before its line feeds. -/
def movedTo (base base' : Nat) (source : List Char) (pos : Nat) : Nat :=
  base' + bytes (crlf (splitAtByte (pos - base) source).1)

/-- The tree of a literal in a script with carriage returns before its line feeds, where the literal starts at
`base'`. -/
def withCrlf (base' : Nat) (n : Node) : Node := recast (movedTo n.start base' n.chars) n

theorem recastAll_eq_map (place : Nat → Nat) (cs : List Node) : recastAll place cs = cs.map (recast place) := by
  induction cs with
  | nil => rfl
  | cons c cs ih => rw [recastAll, ih, List.map_cons]

section
variable (place : Nat → Nat) (n : Node)

theorem kind_recast : (recast place n).kind = n.kind := by cases n; rfl

theorem start_recast : (recast place n).start = place n.start := by cases n; rfl

theorem chars_recast : (recast place n).chars = crlf n.chars := by cases n; rfl

theorem children_recast : (recast place n).children = n.children.map (recast place) := by
  cases n
  exact recastAll_eq_map place _

theorem isContent_recast : (recast place n).isContent = n.isContent := by
  rw [Node.isContent, Node.isContent, Node.isNamed, Node.isNamed, Node.isComment, Node.isComment, kind_recast]

end

theorem substitutions_recast (place : Nat → Nat) (cs : List Node) :
    substitutions (cs.map (recast place)) = (substitutions cs).map (recast place) := by
  rw [substitutions, substitutions, List.filter_map]
  refine congrArg _ (List.filter_congr fun c _ => ?_)
  rw [Function.comp_apply, kind_recast]

mutual

theorem unwrap?_recast (place : Nat → Nat) : ∀ n : Node, unwrap? (recast place n) = (unwrap? n).map (recast place)
  | .mk kind role start chars children => by
    rw [recast, unwrap?, unwrap?]
    by_cases hkind : kind = .parenthesized
    · rw [if_pos hkind, if_pos hkind, firstExpression?_recast place children]
    · rw [if_neg hkind, if_neg hkind, Option.map_some, recast]

theorem firstExpression?_recast (place : Nat → Nat) (cs : List Node) :
    firstExpression? (recastAll place cs) = (firstExpression? cs).map (recast place) := by
  cases cs with
  | nil => rfl
  | cons c cs =>
    rw [recastAll, firstExpression?, firstExpression?, isContent_recast]
    by_cases hc : c.isContent = true
    · rw [if_pos hc, if_pos hc, unwrap?_recast place c]
    · rw [if_neg hc, if_neg hc, firstExpression?_recast place cs]

end

/-- A template in a script, with these segments; the names of the variables in it have no line feeds. -/
structure IsTemplate (n : Node) (segments : List (List Char)) : Prop where
  kind : n.kind = .template
  segmented : Segmented n segments
  names : ∀ c ∈ substitutions n.children, ∀ e ∈ firstExpression? c.children,
    e.kind = .identifier ∨ e.kind = .undefined → '\n' ∉ e.chars

theorem substitutionText_recast (place : Nat → Nat) {cs : List Node}
    (hnames : ∀ e ∈ firstExpression? cs, e.kind = .identifier ∨ e.kind = .undefined → '\n' ∉ e.chars) :
    substitutionText (cs.map (recast place)) = substitutionText cs := by
  rw [← recastAll_eq_map, substitutionText, substitutionText, firstExpression?_recast]
  cases hfirst : firstExpression? cs with
  | none => rfl
  | some e =>
    simp only [Option.map_some, kind_recast]
    split
    · rename_i hname
      rw [Node.text, Node.text, chars_recast, crlf_of_notMem (hnames e hfirst hname)]
    · rfl

/-- The segments and substitutions from `pos` on, where `front` stands before them. -/
theorem woven_recast {base base' : Nat} {source : List Char} {pos : Nat} {segments : List (List Char)}
    {cs : List Node} {rest : List Char} (h : Woven pos segments cs rest) :
    ∀ front : List Char, source = front ++ rest → pos = base + bytes front →
      Woven (base' + bytes (crlf front)) (segments.map crlf) (cs.map (recast (movedTo base base' source)))
        (crlf rest) := by
  induction h with
  | @last pos segment =>
    intro front _ _
    rw [crlf_append]
    exact .last (crlf segment)
  | @next pos segment segments c cs behind hstart hrest ih =>
    intro front hsource hpos
    have hfront : splitAtByte (c.start - base) source = (front ++ segment, c.chars ++ behind) := by
      have hsize : c.start - base = bytes (front ++ segment) := by rw [bytes_append]; omega
      rw [hsource, ← List.append_assoc, hsize, splitAtByte_append]
    have hplace : (recast (movedTo base base' source) c).start =
        base' + bytes (crlf front) + bytes (crlf segment) := by
      rw [start_recast, movedTo, hfront, crlf_append, bytes_append, Nat.add_assoc]
    have hstop : c.stop = base + bytes (front ++ segment ++ c.chars) := by
      rw [Node.stop, Node.text, utf8ByteSize_ofList, bytes_append, bytes_append]
      omega
    have hnext := ih (front ++ segment ++ c.chars) (by rw [hsource]; simp) hstop
    have hstop' : (recast (movedTo base base' source) c).stop = base' + bytes (crlf (front ++ segment ++ c.chars)) := by
      rw [Node.stop, Node.text, utf8ByteSize_ofList, hplace, chars_recast, crlf_append, crlf_append, bytes_append,
        bytes_append]
      omega
    rw [← hstop'] at hnext
    rw [crlf_append, crlf_append, List.map_cons, List.map_cons, ← chars_recast (movedTo base base' source)]
    exact .next hplace hnext

theorem segmented_withCrlf {n : Node} {segments : List (List Char)} (h : Segmented n segments) (base' : Nat) :
    Segmented (withCrlf base' n) (segments.map crlf) := by
  obtain ⟨behind, hchars, hwoven⟩ := h
  refine ⟨crlf behind, ?_, ?_⟩
  · rw [withCrlf, chars_recast, hchars, crlf_cons (by decide)]
  · have hstart : (withCrlf base' n).start = base' := by
      rw [withCrlf, start_recast, movedTo, Nat.sub_self, splitAtByte]
      rfl
    have hplaced := @woven_recast n.start base' n.chars _ _ _ _ hwoven ['`'] hchars rfl
    rw [hstart, withCrlf, children_recast, substitutions_recast]
    exact hplaced

/-! ## URLs -/

theorem weave_nil (segments : List (List Char)) : weave segments [] = segments.flatten := by
  cases segments <;> rfl

/-- The same texts between segments of two kinds. -/
theorem count_weave {x : Char} {f g : List Char → List Char} {k : List Char → Nat} :
    ∀ {segments : List (List Char)} (texts : List (List Char)),
      (∀ s ∈ segments, (f s).count x = (g s).count x + k s) →
      (weave (segments.map f) texts).count x = (weave (segments.map g) texts).count x + (segments.map k).sum
  | [], texts, _ => by simp [weave]
  | s :: segments, texts, h => by
    rw [List.forall_mem_cons] at h
    cases texts with
    | nil =>
      have ih := count_weave [] h.2
      simp only [weave_nil, List.map_cons, List.flatten_cons, List.count_append, List.sum_cons] at ih ⊢
      omega
    | cons text texts =>
      have ih := count_weave texts h.2
      simp only [weave, List.map_cons, List.count_append, List.sum_cons]
      omega

/-- **Line ends with carriage returns change a URL at every bare break, and nowhere else.** -/
theorem url?_withCrlf_iff {n : Node} {segments : List (List Char)} (h : IsTemplate n segments)
    (hreturns : ∀ s ∈ segments, '\r' ∉ s) (base' : Nat) :
    ∃ url url', url? n = some url ∧ url? (withCrlf base' n) = some url' ∧
      url'.toList.count '\r' = url.toList.count '\r' + (segments.map bareBreaks).sum ∧
      (url' = url ↔ ∀ s ∈ segments, bareBreaks s = 0) := by
  have hkind : (withCrlf base' n).kind = .template := by rw [withCrlf, kind_recast, h.kind]
  have htexts : (substitutions (withCrlf base' n).children).map (fun c => (substitutionText c.children).toList) =
      (substitutions n.children).map fun c => (substitutionText c.children).toList := by
    rw [withCrlf, children_recast, substitutions_recast, List.map_map]
    refine List.map_congr_left fun c hc => ?_
    rw [Function.comp_apply, children_recast, substitutionText_recast _ (h.names c hc)]
  have hurl := url?_of_segmented h.kind h.segmented
  have hurl' := url?_of_segmented hkind (segmented_withCrlf h.segmented base')
  rw [htexts, List.map_map] at hurl'
  have hcount := @count_weave '\r' (cook ∘ crlf) cook bareBreaks segments
    ((substitutions n.children).map fun c => (substitutionText c.children).toList)
    fun s hs => count_cook_crlf (hreturns s hs)
  refine ⟨_, _, hurl, hurl', ?_, ?_, ?_⟩
  · rw [String.toList_ofList, String.toList_ofList]
    exact hcount
  · intro heq
    rw [String.ofList_inj] at heq
    rw [heq] at hcount
    have hsum : (segments.map bareBreaks).sum = 0 := by omega
    exact List.forall_mem_map.1 (List.sum_eq_zero_iff_forall_eq_nat.1 hsum)
  · intro hbreaks
    exact congrArg (fun cooked => String.ofList (weave cooked _))
      (List.map_congr_left fun s hs => cook_crlf (hreturns s hs) (hbreaks s hs))

/-- A template of three lines, the first of them continued, with a variable behind a line feed of its own. -/
def threeLines : Node :=
  .mk .template none 4 "`/é\\\n\\u0061$\x7b\nid\x7d\n`".toList
    [.mk (.construct "string_fragment") none 5 "/é".toList [],
     .mk .substitution none 16 "$\x7b\nid\x7d".toList [.mk .identifier none 19 "id".toList []]]

theorem isTemplate_threeLines :
    IsTemplate threeLines [['/', 'é', '\\', '\n', '\\', 'u', '0', '0', '6', '1'], ['\n']] where
  kind := rfl
  segmented := ⟨_, rfl, .next rfl (.last ['\n'])⟩
  names := by
    intro c hc e he _
    obtain rfl := List.mem_singleton.1 (show c ∈ [_] from hc)
    cases he
    decide

/-- The continued line stays, and the bare line feed at the end gets its carriage return. -/
theorem url?_withCrlf_iff_threeLines :
    IsTemplate threeLines [['/', 'é', '\\', '\n', '\\', 'u', '0', '0', '6', '1'], ['\n']] ∧
    ∃ url url', url? threeLines = some url ∧ url? (withCrlf 9 threeLines) = some url' ∧
      url'.toList.count '\r' = url.toList.count '\r' + 1 ∧ url' ≠ url := by
  have hreturns : ∀ s ∈ [['/', 'é', '\\', '\n', '\\', 'u', '0', '0', '6', '1'], ['\n']], '\r' ∉ s := by decide
  obtain ⟨url, url', hurl, hurl', hcount, hsame⟩ := url?_withCrlf_iff isTemplate_threeLines hreturns 9
  refine ⟨isTemplate_threeLines, url, url', hurl, hurl', hcount, fun heq => ?_⟩
  exact absurd (hsame.1 heq ['\n'] (by simp)) (by decide)

/-- A template with a line break in it and nothing else. -/
def twoLines : Node := .mk .template none 0 "`/a\nb`".toList []

/-- A template of two lines does not spell the same URL in both kinds of scripts. -/
theorem url?_twoLines : ¬ ∀ n segments, IsTemplate n segments → (∀ s ∈ segments, '\r' ∉ s) →
    ∀ base', url? (withCrlf base' n) = url? n := by
  intro h
  have htemplate : IsTemplate twoLines [['/', 'a', '\n', 'b']] := by
    refine ⟨rfl, ⟨_, rfl, .last _⟩, ?_⟩
    simp [twoLines, substitutions, Node.children]
  have hurl : url? (withCrlf 0 twoLines) ≠ url? twoLines := by decide +kernel
  exact hurl (h _ _ htemplate (by decide) 0)

end Literal

end RequestAtlas
