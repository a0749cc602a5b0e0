import RequestAtlas.Proofs.Syntax.Faithful.Steps
/-!
# Variables and templates in a source

The two kinds of nodes of which more is asked than their place.  A variable is a word, and no brace goes on with it.  A
template is segments with its substitutions between them: what the loop over its inside passes is the segment that it is
in, and a substitution starts where the loop stands and ends where the next segment starts (`weaves_templateBody_go`).
-/

namespace RequestAtlas.Syntax

open Literal (Woven substitutions utf8ByteSize_ofList)

variable {source : List Char} {low : Nat}

namespace Parse

theorem here_apply (c : Cursor) : here c = some ((c.pastTrivia false).2, (c.pastTrivia false).2) := rfl

/-! ## Words -/

theorem ends_brace (rest : List Char) : Ends ('\x7d' :: rest) := by
  rintro c ⟨⟩
  decide

/-- A text is no word with a brace behind it if in front of such a text the word alone is read. -/
theorem not_brace_of_read {start d : Cursor} (hstart : start.Within source low)
    (hread : ∀ w, IsWord w → ∀ rest, start.rest = w.toList ++ '\x7d' :: rest →
      d = .before ('\x7d' :: rest) (start.offset + bytes w.toList)) :
    ∀ w, IsWord w → ¬ w.toList ++ ['\x7d'] <+: start.charsTo d := by
  intro w hw hbrace
  obtain ⟨rest, hrest⟩ := hbrace.trans (start.charsTo_isPrefix d)
  rw [List.append_assoc, List.singleton_append] at hrest
  have hchars : start.charsTo d = w.toList := by
    rw [hread w hw rest hrest.symm, hstart.eq_before, ← hrest]
    exact Cursor.charsTo_before _ _ _
  have hlength := hbrace.length_le
  rw [hchars, List.length_append] at hlength
  exact absurd hlength (by simp)

theorem sound_of_word {k : Kind} (hk : k.isNoTemplate = true) {start d : Cursor} {w : String}
    (hstart : start.Within source low) (h : word start = some (w, d)) :
    Sound source low (Node.mk k none start.offset (start.charsTo d) []) := by
  refine .node ⟨hstart.placed d, ?_, fun _ => not_brace_of_read hstart ?_⟩ (inferInstance : Sound source low [])
  · rintro rfl
    cases hk
  · intro v hv rest hrest
    rw [hstart.eq_before, hrest, word_before hv (ends_brace rest)] at h
    cases h
    rfl

instance keeps_wordNode (k : Kind) (except : List String) [hk : Holds k.isNoTemplate] :
    Keeps source low (wordNode k except) where
  out := by
    intro c n d hc h
    obtain ⟨hstart, _⟩ := within_pastTrivia false hc
    rw [wordNode, bind_of_some (here_apply c)] at h
    obtain ⟨w, d', hw, hbehind⟩ := bind_eq_some_iff.1 h
    obtain ⟨_, _, hensure, hnode⟩ := bind_eq_some_iff.1 hbehind
    obtain ⟨_, rfl⟩ := ensure_eq_some_iff.1 hensure
    cases hnode
    exact ⟨((inferInstance : Keeps source low word).out hstart hw).1, sound_of_word hk.out hstart hw⟩

instance keeps_keywordNode (k : Kind) (w : String) [hk : Holds k.isNoTemplate] :
    Keeps source low (keywordNode k w) where
  out := by
    intro c n d hc h
    obtain ⟨hstart, _⟩ := within_pastTrivia false hc
    rw [keywordNode, bind_of_some (here_apply c)] at h
    obtain ⟨_, _, hkeyword, hnode⟩ := bind_eq_some_iff.1 h
    obtain ⟨v, _, hv, hensure⟩ := bind_eq_some_iff.1 hkeyword
    obtain ⟨_, rfl⟩ := ensure_eq_some_iff.1 hensure
    cases hnode
    exact ⟨((inferInstance : Keeps source low word).out hstart hv).1, sound_of_word hk.out hstart hv⟩

/-! ## Templates -/

/-- The nodes that a step makes are of one kind and cover what it reads. -/
def Covers (k : Kind) (p : Parse Node) : Prop :=
  ∀ {c n d}, p c = some (n, d) → ∃ children, n = .mk k none c.offset (c.charsTo d) children

/-- The node that a step makes is of this kind and covers what is read from the start to its end. -/
def Makes (k : Kind) (start : Cursor) (p : Parse Node) : Prop :=
  ∀ {c n d}, p c = some (n, d) → ∃ children, n = .mk k none start.offset (start.charsTo d) children

theorem makes_node (k : Kind) (start : Cursor) (children : List Node) : Makes k start (node k start children) := by
  rintro c n d ⟨⟩
  exact ⟨children, rfl⟩

theorem makes_bind {γ : Type} {k : Kind} {start : Cursor} {p : Parse γ} {f : γ → Parse Node}
    (hf : ∀ a, Makes k start (f a)) : Makes k start (p >>= f) := by
  intro c n d h
  obtain ⟨a, _, _, h⟩ := bind_eq_some_iff.1 h
  exact hf a h

theorem covers_get {k : Kind} {f : Cursor → Parse Node} (hf : ∀ start, Makes k start (f start)) :
    Covers k (get >>= f) :=
  fun {c _ _} h => hf c h

/-- What is passed in front of a segment belongs to it. -/
theorem exists_woven_append {pos : Nat} {segments : List (List Char)} {cs : List Node} {behind : List Char}
    (front : List Char) (h : Woven (pos + bytes front) segments cs behind) :
    ∃ segments, Woven pos segments cs (front ++ behind) := by
  cases h with
  | last segment =>
    rw [← List.append_assoc]
    exact ⟨_, .last _⟩
  | next hstart rest =>
    rw [← List.append_assoc]
    exact ⟨_, .next (by rw [hstart, bytes_append, Nat.add_assoc]) rest⟩

/-- From `c` to `d` segments are read, with sound nodes of one kind between them. -/
structure Weaves (source : List Char) (low : Nat) (k : Kind) (c d : Cursor) (nodes : List Node) : Prop where
  exists_reads : ∃ behind segments, c.Reads behind d ∧ Woven c.offset segments nodes behind
  kinds : ∀ n ∈ nodes, n.kind = k
  sound : Sound source low nodes

section
variable {hole : Parse Node} {k : Kind} {c c' d : Cursor} {nodes : List Node}

/-- The closing quote ends an empty segment. -/
theorem weaves_quote {rest : List Char} (h : c.rest = '`' :: rest) : Weaves source low k c c.skip [] := by
  obtain ⟨rest', offset, left⟩ := c
  obtain rfl : rest' = '`' :: rest := h
  exact ⟨⟨['`'], [[]], ⟨rfl, rfl, rfl⟩, .last []⟩, by simp, inferInstance⟩

/-- Whatever lies in front of a later cursor goes to the segment that starts there. -/
theorem Weaves.pass {front : List Char} (hfront : c.Reads front c') (h : Weaves source low k c' d nodes) :
    Weaves source low k c d nodes := by
  obtain ⟨behind, segments, hbehind, hwoven⟩ := h.exists_reads
  rw [hfront.offset] at hwoven
  obtain ⟨segments, hwoven⟩ := exists_woven_append front hwoven
  exact ⟨⟨front ++ behind, segments, hfront.trans hbehind, hwoven⟩, h.kinds, h.sound⟩

/-- A node starts where the loop stands, so an empty segment lies in front of it. -/
theorem Weaves.node {front : List Char} {children : List Node} (hfront : c.Reads front c')
    (hn : Sound source low (Node.mk k none c.offset (c.charsTo c') children)) (h : Weaves source low k c' d nodes) :
    Weaves source low k c d (.mk k none c.offset (c.charsTo c') children :: nodes) := by
  obtain ⟨behind, segments, hbehind, hwoven⟩ := h.exists_reads
  have hsound := h.sound
  refine ⟨⟨front ++ behind, [] :: segments, hfront.trans hbehind, ?_⟩, List.forall_mem_cons.2 ⟨rfl, h.kinds⟩,
    inferInstance⟩
  rw [hfront.charsTo]
  refine @Woven.next c.offset [] segments (.mk k none c.offset front children) nodes behind rfl ?_
  rwa [Node.stop, Node.text, Node.chars, utf8ByteSize_ofList, Node.start, ← hfront.offset]

/-- The inside of a template is segments with the nodes in its holes between them. -/
theorem weaves_templateBody_go (escapes : Bool) (hhole : ∀ low, Keeps source low hole) (hk : Covers k hole) :
    ∀ {fuel : Nat} {acc holes : List Node} {c d : Cursor}, c.Within source low →
      templateBody.go hole escapes fuel acc c = some (holes, d) →
        ∃ nodes, holes = acc.reverse ++ nodes ∧ Weaves source low k c d nodes
  | 0, _, _, _, _, _, h => by simp [templateBody.go] at h
  | fuel + 1, acc, holes, c, d, hc, h => by
    have hpass : ∀ {c' : Cursor}, c'.Within source c.offset →
        templateBody.go hole escapes fuel acc c' = some (holes, d) →
          ∃ nodes, holes = acc.reverse ++ nodes ∧ Weaves source low k c d nodes := by
      intro c' hc' h
      obtain ⟨front, hfront⟩ := hc.exists_reads hc'
      obtain ⟨nodes, hholes, hnodes⟩ := weaves_templateBody_go escapes hhole hk (hc.of_reads hfront) h
      exact ⟨nodes, hholes, hnodes.pass hfront⟩
    rw [templateBody.go] at h
    split at h
    · cases h
    · next hrest =>
      cases h
      exact ⟨[], (List.append_nil _).symm, weaves_quote hrest⟩
    · split at h
      · split at h
        · exact hpass (hc.self.skipN _) h
        · cases h
      · cases h
    · split at h
      · next n c' hn =>
        obtain ⟨hc', hsound⟩ := (hhole c.offset).out hc.self hn
        obtain ⟨front, hfront⟩ := hc.exists_reads hc'
        obtain ⟨nodes, hholes, hnodes⟩ := weaves_templateBody_go escapes hhole hk (hc.of_reads hfront) h
        obtain ⟨children, rfl⟩ := hk hn
        refine ⟨_ :: nodes, ?_, hnodes.node hfront ⟨hsound.out⟩⟩
        rw [hholes, List.reverse_cons, List.append_assoc, List.singleton_append]
      · cases h
    · split at h
      · cases h
      · exact hpass hc.self.skip h

theorem keeps_templateBody (escapes : Bool) (hhole : ∀ low, Keeps source low hole) (hk : Covers k hole) :
    Keeps source low (templateBody hole escapes) where
  out := by
    intro c holes d hc h
    obtain ⟨nodes, rfl, hnodes⟩ := weaves_templateBody_go escapes hhole hk hc h
    obtain ⟨_, _, hreads, _⟩ := hnodes.exists_reads
    exact ⟨hc.of_reads hreads, hnodes.sound⟩

end

end Parse

end RequestAtlas.Syntax
