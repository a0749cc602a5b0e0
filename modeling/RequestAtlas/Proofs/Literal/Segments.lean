import RequestAtlas.Literal.Reconstruction
import RequestAtlas.Proofs.Syntax.Steps
/-!
# The segments of a template

A template is read by byte offsets: the text up to where a substitution starts is a segment, and the next one begins
where the substitution stops.  `Woven` says what a template looks like in the source, segments with substitutions
between them.  Main statement `templateParts_of_segmented`: of such a template the segments come out whole, each cooked
by itself, with what stands for the substitutions between them.
-/

namespace RequestAtlas.Literal

open RequestAtlas.Syntax

/-! ## Cutting by bytes -/

theorem utf8ByteSize_ofList : ∀ cs : List Char, (String.ofList cs).utf8ByteSize = bytes cs
  | [] => by simp [bytes]
  | c :: cs => by
    have hsplit : String.ofList (c :: cs) = String.singleton c ++ String.ofList cs := by
      rw [String.singleton_eq_ofList, ← String.ofList_append]
      rfl
    rw [hsplit, String.utf8ByteSize_append, String.utf8ByteSize_singleton, utf8ByteSize_ofList cs, bytes_cons]

theorem splitAtByte_cons {n : Nat} (h : 0 < n) (c : Char) (cs : List Char) : splitAtByte n (c :: cs) =
    (c :: (splitAtByte (n - c.utf8Size) cs).1, (splitAtByte (n - c.utf8Size) cs).2) := by
  cases n with
  | zero => omega
  | succ n => rfl

/-- A cut after all bytes of a front falls right behind the front. -/
theorem splitAtByte_append (front back : List Char) :
    splitAtByte (bytes front) (front ++ back) = (front, back) := by
  induction front with
  | nil => simp [bytes, splitAtByte]
  | cons c cs ih =>
    have hpos := c.utf8Size_pos
    rw [bytes_cons, List.cons_append, splitAtByte_cons (by omega), Nat.add_sub_cancel_left, ih]

/-! ## Templates in the source -/

/-- The source from byte `pos` on: segments with the substitutions between them, and the closing quote. -/
inductive Woven : Nat → List (List Char) → List Node → List Char → Prop
  | last {pos : Nat} (segment : List Char) : Woven pos [segment] [] (segment ++ ['`'])
  | next {pos : Nat} {segment : List Char} {segments : List (List Char)} {c : Node} {cs : List Node}
      {behind : List Char} (hstart : c.start = pos + bytes segment)
      (rest : Woven c.stop segments cs behind) :
      Woven pos (segment :: segments) (c :: cs) (segment ++ (c.chars ++ behind))

/-- The substitutions among some nodes. -/
def substitutions (children : List Node) : List Node := children.filter fun c => c.kind = .substitution

theorem substitutions_cons_of_pos {c : Node} (h : c.kind = .substitution) (cs : List Node) :
    substitutions (c :: cs) = c :: substitutions cs :=
  List.filter_cons_of_pos (by simpa using h)

theorem substitutions_cons_of_neg {c : Node} (h : ¬ c.kind = .substitution) (cs : List Node) :
    substitutions (c :: cs) = substitutions cs :=
  List.filter_cons_of_neg (by simpa using h)

/-- A template with these segments, in quotes, its substitutions standing between them. -/
def Segmented (n : Node) (segments : List (List Char)) : Prop :=
  ∃ behind, n.chars = '`' :: behind ∧ Woven (n.start + 1) segments (substitutions n.children) behind

/-- Segments with texts between them. -/
def weave : List (List Char) → List (List Char) → List Char
  | segment :: segments, text :: texts => segment ++ text ++ weave segments texts
  | segments, _ => segments.flatten

theorem templateParts_of_woven : ∀ {children : List Node} {pos : Nat} {segments : List (List Char)}
    {behind : List Char}, Woven pos segments (substitutions children) behind → templateParts pos behind children =
      weave (segments.map cook) ((substitutions children).map fun c => (substitutionText c.children).toList)
  | [], pos, segments, behind, h => by
    cases h with
    | last segment => simp [templateParts, substitutions, weave]
  | c :: cs, pos, segments, behind, h => by
    by_cases hkind : c.kind = .substitution
    · rw [substitutions_cons_of_pos hkind] at h ⊢
      cases h with
      | @next _ segment segments _ _ behind hstart rest =>
        -- The cursor stands at the segment's first byte, so the distance to the substitution is the segment's size.
        have hsize : c.start - pos = bytes segment := by omega
        have hbehind : (splitAtByte c.text.utf8ByteSize (c.chars ++ behind)).2 = behind := by
          rw [Node.text, utf8ByteSize_ofList, splitAtByte_append]
        rw [templateParts, if_pos hkind, hsize, splitAtByte_append]
        dsimp only
        rw [hbehind, templateParts_of_woven rest, List.map_cons, List.map_cons, weave]
    · rw [substitutions_cons_of_neg hkind] at h ⊢
      rw [templateParts, if_neg hkind, templateParts_of_woven h]

/-- **No byte of a template is lost or read twice**: its text is that of its segments and substitutions. -/
theorem templateParts_of_segmented {n : Node} {segments : List (List Char)} (h : Segmented n segments) :
    templateParts (n.start + 1) (n.chars.drop 1) n.children =
      weave (segments.map cook) ((substitutions n.children).map fun c => (substitutionText c.children).toList) := by
  obtain ⟨behind, hchars, hwoven⟩ := h
  rw [hchars, List.drop_succ_cons, List.drop_zero, templateParts_of_woven hwoven]

/-- The URL that a template spells. -/
theorem url?_of_segmented {n : Node} {segments : List (List Char)} (hkind : n.kind = .template)
    (h : Segmented n segments) : url? n = some (String.ofList (weave (segments.map cook)
      ((substitutions n.children).map fun c => (substitutionText c.children).toList))) := by
  have hunwrap : unwrap? n = some n := by
    obtain ⟨kind, role, start, chars, children⟩ := n
    obtain rfl : kind = .template := hkind
    rfl
  simp only [url?, hunwrap, hkind, templateParts_of_segmented h]
  rfl

end RequestAtlas.Literal
