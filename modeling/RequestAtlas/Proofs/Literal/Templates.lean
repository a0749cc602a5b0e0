import RequestAtlas.Proofs.Literal.Positions
import RequestAtlas.Proofs.Syntax.Faithful.Statements
import RequestAtlas.Proofs.Utf8
/-!
# Templates of a script

A template anywhere in a script is read as its segments, each cooked by itself, with a placeholder for every
substitution between them.  The segments are cut from the bytes of the source (`CutFrom`): every cut falls between two
characters, and segments, substitutions and quotes make up the whole text of the template.  What stands for a
substitution is told by its expression, without comments and parentheses (`StandsFor`).  Main statement
`url?_template_iff`: the URL is spelled so, unless a markup comment stands in front of a variable; such a comment is
taken for the expression.
-/

namespace RequestAtlas.Literal

open Syntax Text

/-! ## Cuts -/

/-- The ranges of bytes between substitutions: from `pos` to the first, from each to the next, from the last to
`stop`. -/
def gaps (pos : Nat) : List Node → Nat → List (Nat × Nat)
  | [], stop => [(pos, stop)]
  | c :: cs, stop => (pos, c.start) :: gaps c.stop cs stop

/-- The segments of a template are what the source has between its quotes and substitutions. -/
structure CutFrom (source : List Char) (n : Node) (segments : List (List Char)) : Prop where
  text : decodeUtf8 (slice (encodeUtf8 source) n.start n.stop) = .ok n.chars
  slices : List.Forall₂
    (fun range segment => decodeUtf8 (slice (encodeUtf8 source) range.1 range.2) = .ok segment)
    (gaps (n.start + 1) (substitutions n.children) (n.stop - 1)) segments
  whole : n.chars = '`' :: (weave segments ((substitutions n.children).map Node.chars) ++ ['`'])

theorem stop_eq (n : Node) : n.stop = n.start + bytes n.chars := by
  rw [Node.stop, Node.text, utf8ByteSize_ofList]

theorem Woven.eq_weave {pos : Nat} {segments : List (List Char)} {cs : List Node} {behind : List Char}
    (h : Woven pos segments cs behind) : behind = weave segments (cs.map Node.chars) ++ ['`'] := by
  induction h with
  | last segment => simp [weave]
  | next _ _ ih => rw [List.map_cons, weave, ih, List.append_assoc, List.append_assoc]

/-- Segment after segment, each begins where the substitution in front of it stops. -/
theorem Woven.slices {pos : Nat} {segments : List (List Char)} {cs : List Node} {behind : List Char}
    (h : Woven pos segments cs behind) {front back : List Char} (hpos : pos = bytes front) : List.Forall₂
      (fun range segment =>
        decodeUtf8 (slice (encodeUtf8 (front ++ (behind ++ back))) range.1 range.2) = .ok segment)
      (gaps pos cs (pos + bytes behind - 1)) segments := by
  induction h generalizing front with
  | @last pos segment =>
    have hstop : pos + bytes (segment ++ ['`']) - 1 = bytes front + bytes segment := by
      rw [bytes_append, hpos]
      rfl
    rw [gaps, hstop, hpos, List.append_assoc]
    exact .cons (decodeUtf8_slice front segment _) .nil
  | @next pos segment segments c cs behind hstart _ ih =>
    have hstop : pos + bytes (segment ++ (c.chars ++ behind)) - 1 = c.stop + bytes behind - 1 := by
      rw [bytes_append, bytes_append, stop_eq, hstart]
      omega
    have hfront : c.stop = bytes (front ++ (segment ++ c.chars)) := by
      rw [stop_eq, hstart, hpos, bytes_append, bytes_append, Nat.add_assoc]
    have hsource : front ++ (segment ++ (c.chars ++ behind) ++ back) =
        front ++ (segment ++ c.chars) ++ (behind ++ back) := by
      simp only [List.append_assoc]
    rw [gaps, hstop]
    refine .cons ?_ ?_
    · rw [hstart, hpos, List.append_assoc]
      exact decodeUtf8_slice front segment _
    · rw [hsource]
      exact ih hfront

theorem cutFrom_of_faithful {source : List Char} {n : Node} (hn : n.Faithful source) (hkind : n.kind = .template) :
    ∃ segments, Segmented n segments ∧ CutFrom source n segments := by
  obtain ⟨front, back, hsource, hstart⟩ := hn.placed
  obtain ⟨segments, behind, hchars, hwoven⟩ := hn.segmented hkind
  refine ⟨segments, ⟨behind, hchars, hwoven⟩, ?_, ?_, ?_⟩
  · rw [stop_eq, hsource, hstart]
    exact decodeUtf8_slice front n.chars back
  · have hquote : n.start + 1 = bytes (front ++ ['`']) := by
      rw [bytes_append, hstart]
      rfl
    have hstop : n.stop - 1 = n.start + 1 + bytes behind - 1 := by
      rw [stop_eq, hchars, bytes_cons, ← Nat.add_assoc]
      rfl
    have hslices := @Woven.slices _ _ _ _ hwoven _ back hquote
    rw [List.append_assoc, List.singleton_append, ← List.cons_append, ← hchars, ← hsource, ← hstop] at hslices
    exact hslices
  · rw [hchars, ← hwoven.eq_weave]

/-! ## Placeholders -/

/-- The expression in a substitution is a variable of this name. -/
def IsVariable (c : Node) (name : String) : Prop :=
  ∃ m e, (c.children.filter isExpression).head? = some m ∧ Core m e ∧ (e.kind = .identifier ∨ e.kind = .undefined) ∧
    e.text = name

/-- The text that stands for a substitution: the placeholder of a variable, or that of anything else. -/
inductive StandsFor (c : Node) : String → Prop
  | named {name : String} (h : IsVariable c name) : StandsFor c (placeholder name)
  | other (h : ∀ name, ¬ IsVariable c name) : StandsFor c (placeholder "VAR")

theorem IsVariable.unique {c : Node} {name name' : String} (h : IsVariable c name) (h' : IsVariable c name') :
    name = name' := by
  obtain ⟨m, e, hm, he, _, rfl⟩ := h
  obtain ⟨m', e', hm', he', _, rfl⟩ := h'
  cases hm.symm.trans hm'
  rw [he.unique he']

theorem StandsFor.of_isVariable {c : Node} {name text : String} (hname : IsVariable c name) (h : StandsFor c text) :
    text = placeholder name := by
  cases h with
  | named h => rw [h.unique hname]
  | other h => exact absurd hname (h name)

theorem StandsFor.unique {c : Node} {text text' : String} (h : StandsFor c text) (h' : StandsFor c text') :
    text = text' := by
  cases h with
  | named hname => exact (h'.of_isVariable hname).symm
  | other hnone =>
    cases h' with
    | named hname => exact absurd hname (hnone _)
    | other => rfl

theorem exists_standsFor (c : Node) : ∃ text, StandsFor c text := by
  by_cases h : ∃ name, IsVariable c name
  · exact ⟨_, .named h.choose_spec⟩
  · exact ⟨_, .other (not_exists.1 h)⟩

/-! ### What is read -/

theorem substitutionText_of_covered {ns : List Node} (h : Covered ns) : substitutionText ns = placeholder "VAR" := by
  obtain ⟨m, hm, hmarkup⟩ := firstExpression?_of_covered h
  rw [substitutionText, hm]
  have hkind : ¬ (m.kind = .identifier ∨ m.kind = .undefined) := by
    rw [hmarkup]
    decide
  exact if_neg hkind

theorem standsFor_substitutionText {c : Node} (h : ¬ Covered c.children) :
    StandsFor c (substitutionText c.children) := by
  by_cases hname : ∃ name, IsVariable c name
  · obtain ⟨_, m, e, hm, he, hkind, rfl⟩ := hname
    have hfirst := (firstExpression?_of_not_covered h).2 ⟨m, hm, he⟩
    rw [substitutionText, hfirst]
    dsimp only
    rw [if_pos hkind]
    exact .named ⟨m, e, hm, he, hkind, rfl⟩
  · have htext : substitutionText c.children = placeholder "VAR" := by
      rw [substitutionText]
      split
      · next e hfirst =>
        obtain ⟨m, hm, he⟩ := (firstExpression?_of_not_covered h).1 hfirst
        exact if_neg fun hkind => hname ⟨_, m, e, hm, he, hkind, rfl⟩
      · rfl
    rw [htext]
    exact .other (not_exists.1 hname)

/-- The text that is put for a substitution: where a markup comment is in the way, that of no variable. -/
inductive PutFor (c : Node) : String → Prop
  | standing {text : String} (h : ¬ Covered c.children) (ht : StandsFor c text) : PutFor c text
  | covered (h : Covered c.children) : PutFor c (placeholder "VAR")

theorem putFor_substitutionText (c : Node) : PutFor c (substitutionText c.children) := by
  by_cases h : Covered c.children
  · rw [substitutionText_of_covered h]
    exact .covered h
  · exact .standing h (standsFor_substitutionText h)

/-! ### Whether the right text is put -/

theorem toList_placeholder (name : String) :
    (placeholder name).toList = ['\x7b', '\x7b'] ++ (name.toList ++ ['\x7d', '\x7d']) := by
  rw [placeholder, String.toList_append, String.toList_append, List.append_assoc]
  rfl

/-- The placeholder of a variable does not pass for that of none, even if the text goes on differently. -/
theorem eq_of_placeholder_append {name : String} (hname : ¬ "VAR".toList ++ ['\x7d'] <+: name.toList) {u v : List Char}
    (h : (placeholder "VAR").toList ++ u = (placeholder name).toList ++ v) : name = "VAR" := by
  simp only [toList_placeholder, List.append_assoc, List.append_cancel_left_eq] at h
  rcases List.append_eq_append_iff.1 h with ⟨cs, hcs, hrest⟩ | ⟨cs, hcs, hrest⟩
  · cases cs with
    | nil => exact String.toList_inj.1 (hcs.trans (List.append_nil _))
    | cons c cs =>
      obtain rfl := (List.cons.inj hrest).1
      exact absurd ⟨cs, by rw [hcs, List.append_assoc]; rfl⟩ hname
  · cases cs with
    | nil => exact String.toList_inj.1 ((List.append_nil _).symm.trans hcs.symm)
    | cons c cs =>
      obtain rfl := (List.cons.inj hrest).1
      have hbrace : '\x7d' ∈ "VAR".toList := by
        rw [hcs]
        simp
      exact absurd hbrace (by decide)

theorem Core.inside_of {n e : Node} (h : Core n e) : e.Inside n := by
  induction h with
  | self => exact .self
  | inside _ hm _ ih => exact .child (List.mem_filter.1 (List.mem_of_head? hm)).1 ih

/-- In a script the name of a variable does not go on with a brace. -/
theorem IsVariable.not_brace {source : List Char} {c : Node} (hc : c.All (Node.Faithful source)) {name : String}
    (h : IsVariable c name) : ¬ "VAR".toList ++ ['\x7d'] <+: name.toList := by
  obtain ⟨m, e, hm, he, hkind, rfl⟩ := h
  have hinside : e.Inside c := .child (List.mem_filter.1 (List.mem_of_head? hm)).1 he.inside_of
  obtain ⟨hfaithful, _⟩ := hc.of_inside hinside
  have hnamed := hfaithful.named hkind "VAR" ⟨by decide, by decide, by decide⟩
  rwa [← @String.toList_ofList e.chars] at hnamed

/-- What is put is what stands for the substitution, or the two differ whatever follows them. -/
theorem eq_of_put_append {source : List Char} {c : Node} (hc : c.All (Node.Faithful source)) {put text : String}
    (hput : PutFor c put) (htext : StandsFor c text) {u v : List Char} (h : put.toList ++ u = text.toList ++ v) :
    put = text := by
  cases hput with
  | standing _ ht => exact ht.unique htext
  | covered =>
    cases htext with
    | named hname => rw [eq_of_placeholder_append (hname.not_brace hc) h]
    | other => rfl

theorem placeholder_injective {a b : String} (h : placeholder a = placeholder b) : a = b := by
  have hlist := congrArg String.toList h
  rw [toList_placeholder, toList_placeholder, List.append_cancel_left_eq, List.append_cancel_right_eq] at hlist
  exact String.toList_inj.1 hlist

theorem put_eq_iff {c : Node} {put text : String} (hput : PutFor c put) (htext : StandsFor c text) :
    put = text ↔ (Covered c.children → ∀ name, IsVariable c name → name = "VAR") := by
  cases hput with
  | standing hcovered ht => exact iff_of_true (ht.unique htext) fun h => absurd h hcovered
  | covered hcovered =>
    constructor
    · intro heq _ name hname
      exact (placeholder_injective (heq.trans (htext.of_isVariable hname))).symm
    · intro h
      cases htext with
      | named hname => rw [h hcovered _ hname]
      | other => rfl

/-! ## Templates -/

/-- The URL with these segments and these texts between them. -/
def urlText (segments : List (List Char)) (texts : List String) : String :=
  String.ofList (weave (segments.map cook) (texts.map String.toList))

theorem Woven.length_le {pos : Nat} {segments : List (List Char)} {cs : List Node} {behind : List Char}
    (h : Woven pos segments cs behind) : cs.length ≤ segments.length := by
  induction h with
  | last => exact Nat.zero_le _
  | next _ _ ih => exact Nat.succ_le_succ ih

theorem exists_texts (cs : List Node) : ∃ texts, List.Forall₂ StandsFor cs texts := by
  induction cs with
  | nil => exact ⟨[], .nil⟩
  | cons c cs ih =>
    obtain ⟨text, htext⟩ := exists_standsFor c
    obtain ⟨texts, htexts⟩ := ih
    exact ⟨text :: texts, .cons htext htexts⟩

/-- All the right texts are put exactly if none of the variables has a markup comment in the way. -/
theorem put_all_eq_iff {cs : List Node} {put texts : List String} (hput : List.Forall₂ PutFor cs put)
    (htexts : List.Forall₂ StandsFor cs texts) :
    put = texts ↔ ∀ c ∈ cs, Covered c.children → ∀ name, IsVariable c name → name = "VAR" := by
  induction hput generalizing texts with
  | nil =>
    cases htexts
    simp
  | cons hput _ ih =>
    cases htexts with
    | cons htext htexts => rw [List.cons.injEq, put_eq_iff hput htext, ih htexts, List.forall_mem_cons]

/-- Between the same segments, what is put for one substitution does not make up for what is put for another. -/
theorem eq_of_weave_put_eq {source : List Char} {cs : List Node} {put texts : List String}
    (hcs : ∀ c ∈ cs, c.All (Node.Faithful source)) (hput : List.Forall₂ PutFor cs put)
    (htexts : List.Forall₂ StandsFor cs texts) {segments : List (List Char)} (hlength : cs.length ≤ segments.length)
    (h : weave segments (put.map String.toList) = weave segments (texts.map String.toList)) : put = texts := by
  induction hput generalizing texts segments with
  | nil =>
    cases htexts
    rfl
  | @cons c put' cs puts hc _ ih =>
    obtain ⟨hfaithful, hbehind⟩ := List.forall_mem_cons.1 hcs
    cases htexts with
    | cons htext htexts =>
      cases segments with
      | nil => cases hlength
      | cons segment segments =>
        rw [List.map_cons, List.map_cons, weave, weave, List.append_assoc, List.append_assoc,
          List.append_cancel_left_eq] at h
        obtain rfl := eq_of_put_append hfaithful hc htext h
        rw [List.append_cancel_left_eq] at h
        rw [ih hbehind htexts (Nat.le_of_succ_le_succ hlength) h]

/-- A template is read as its segments with what is put for its substitutions between them, in any tree whose nodes are
faithful to a source; what is put is right just if no markup comment stands in front of a variable. -/
theorem url?_faithful_iff {source : List Char} {n : Node} (h : n.All (Node.Faithful source))
    (hkind : n.kind = .template) :
    ∃ segments put texts, CutFrom source n segments ∧
      List.Forall₂ PutFor (substitutions n.children) put ∧ List.Forall₂ StandsFor (substitutions n.children) texts ∧
      url? n = some (urlText segments put) ∧
      (url? n = some (urlText segments texts) ↔
        ∀ c ∈ substitutions n.children, Covered c.children → ∀ name, IsVariable c name → name = "VAR") := by
  obtain ⟨hn, hbelow⟩ := h
  obtain ⟨segments, hsegmented, hcut⟩ := cutFrom_of_faithful hn hkind
  obtain ⟨texts, htexts⟩ := exists_texts (substitutions n.children)
  have hput : List.Forall₂ PutFor (substitutions n.children)
      ((substitutions n.children).map fun c => substitutionText c.children) :=
    List.forall₂_map_right_iff.2 (List.forall₂_same.2 fun c _ => putFor_substitutionText c)
  have hurl : url? n =
      some (urlText segments ((substitutions n.children).map fun c => substitutionText c.children)) := by
    rw [url?_of_segmented hkind hsegmented, urlText, List.map_map]
    rfl
  refine ⟨segments, _, texts, hcut, hput, htexts, hurl, ?_⟩
  have hlength : (substitutions n.children).length ≤ segments.length := by
    obtain ⟨_, _, hwoven⟩ := hsegmented
    exact hwoven.length_le
  have hcs : ∀ c ∈ substitutions n.children, c.All (Node.Faithful source) :=
    fun c hc => hbelow c (List.mem_filter.1 hc).1
  rw [hurl, Option.some.injEq, ← put_all_eq_iff hput htexts]
  constructor
  · intro h
    refine eq_of_weave_put_eq hcs hput htexts ?_ (String.ofList_inj.1 h)
    rwa [List.length_map]
  · exact fun h => h ▸ rfl

/-- **A template of a script is read as its segments with what stands for its substitutions between them, unless a
markup comment stands in front of a variable.**  The segments are cut from the bytes of the source, between two
characters each time, and with the substitutions they are the whole text between the quotes.  Where a markup comment
stands in front of the expression, the placeholder of no variable is put. -/
theorem url?_template_iff [Parser] [LawfulParser] {source : List Char} {script n : Node}
    (hscript : readText source = .ok script) (hinside : n.Inside script) (hkind : n.kind = .template) :
    ∃ segments put texts, CutFrom (dropMark source) n segments ∧
      List.Forall₂ PutFor (substitutions n.children) put ∧ List.Forall₂ StandsFor (substitutions n.children) texts ∧
      url? n = some (urlText segments put) ∧
      (url? n = some (urlText segments texts) ↔
        ∀ c ∈ substitutions n.children, Covered c.children → ∀ name, IsVariable c name → name = "VAR") :=
  url?_faithful_iff ((faithful_of_readText hscript).of_inside hinside) hkind

/-! ### Two scripts -/

section
attribute [local instance] Parser.javascript LawfulParser.javascript

/-- The value of the first variable that a source declares. -/
def declared (source : List Char) : Node := ((readText source).toOption.bind firstDeclared?).getD default

theorem inside_of_firstDeclared? {script n : Node} (h : firstDeclared? script = some n) : n.Inside script := by
  simp only [firstDeclared?, Option.bind_eq_bind, Option.bind_eq_some_iff] at h
  obtain ⟨statement, hstatement, declarator, hdeclarator, hn⟩ := h
  have hn' : n ∈ declarator.children := List.mem_of_find?_eq_some hn
  have hdeclarator' : declarator ∈ statement.children := (List.mem_filter.1 (List.mem_of_head? hdeclarator)).1
  have hstatement' : statement ∈ script.children := (List.mem_filter.1 (List.mem_of_head? hstatement)).1
  exact .child hstatement' (.child hdeclarator' (.child hn' .self))

theorem inside_declared {source : List Char} (h : ((readText source).toOption.bind firstDeclared?).isSome = true) :
    ∃ script, readText source = .ok script ∧ (declared source).Inside script := by
  obtain ⟨n, hn⟩ := Option.isSome_iff_exists.1 h
  obtain ⟨script, hscript, hfirst⟩ := Option.bind_eq_some_iff.1 hn
  refine ⟨script, ?_, ?_⟩
  · cases hread : readText source with
    | ok script' =>
      rw [hread] at hscript
      cases hscript
      rfl
    | error cause =>
      rw [hread] at hscript
      cases hscript
  · rw [declared, hn]
    exact inside_of_firstDeclared? hfirst

/-- Characters of two bytes in front of a template and in it, and two substitutions side by side, one in parentheses
with a comment. -/
def mixedSource : List Char := "let ü=`é$\x7ba\x7d$\x7b(b/**/)\x7d\\n`".toList

/-- What is read of it. -/
theorem declared_mixedSource : ((readText mixedSource).toOption.bind firstDeclared?).isSome = true ∧
    (declared mixedSource).kind = .template ∧
    (∀ c ∈ substitutions (declared mixedSource).children,
      (firstExpression? c.children).map Node.kind = some .identifier) ∧
    url? (declared mixedSource) = some "é\x7b\x7ba\x7d\x7d\x7b\x7bb\x7d\x7d\n" := by
  decide +kernel

theorem url?_template_iff_mixedSource : ∃ script, readText mixedSource = .ok script ∧
    (declared mixedSource).Inside script ∧ (declared mixedSource).kind = .template ∧
    ∃ segments texts, CutFrom (dropMark mixedSource) (declared mixedSource) segments ∧
      List.Forall₂ StandsFor (substitutions (declared mixedSource).children) texts ∧
      urlText segments texts = "é\x7b\x7ba\x7d\x7d\x7b\x7bb\x7d\x7d\n" := by
  obtain ⟨hsome, hkind, hplain, hvalue⟩ := declared_mixedSource
  obtain ⟨script, hscript, hinside⟩ := inside_declared hsome
  obtain ⟨segments, _, texts, hcut, _, htexts, _, hurl⟩ := url?_template_iff hscript hinside hkind
  refine ⟨script, hscript, hinside, hkind, segments, texts, hcut, htexts, ?_⟩
  have hspelled := hurl.2 fun c hc hcovered => by
    -- each expression is a variable, so no markup comment is taken for one
    obtain ⟨m, hm, hmarkup⟩ := firstExpression?_of_covered hcovered
    have hvariable := hplain c hc
    rw [hm, Option.map_some, hmarkup] at hvariable
    cases hvariable
  exact Option.some.inj (hspelled.symm.trans hvalue)

/-- A template whose substitution has a markup comment on the line above its variable. -/
def coveredSource : List Char := "let x=`/a/$\x7b<!-- b\nid\x7d`".toList

/-- What is read of it. -/
theorem declared_coveredSource : ((readText coveredSource).toOption.bind firstDeclared?).isSome = true ∧
    (declared coveredSource).kind = .template ∧
    ((substitutions (declared coveredSource).children).map fun c =>
      (c.children.filter isExpression).head?.map fun m => (m.kind, m.text)) = [some (.identifier, "id")] ∧
    url? (declared coveredSource) = some "/a/\x7b\x7bVAR\x7d\x7d" := by
  decide +kernel

/-- The markup comment is taken for the expression. -/
theorem url?_coveredSource : ¬ ∀ (source : List Char) (script n : Node), readText source = .ok script →
    n.Inside script → n.kind = .template → ∃ segments texts, CutFrom (dropMark source) n segments ∧
      List.Forall₂ StandsFor (substitutions n.children) texts ∧ url? n = some (urlText segments texts) := by
  intro h
  obtain ⟨hsome, hkind, hsubstitutions, hvalue⟩ := declared_coveredSource
  obtain ⟨script, hscript, hinside⟩ := inside_declared hsome
  obtain ⟨segments, texts, _, htexts, hspelled⟩ := h _ _ _ hscript hinside hkind
  obtain ⟨c, hc, hfirst⟩ := List.map_eq_singleton_iff.1 hsubstitutions
  obtain ⟨m, hm, hvariable⟩ := Option.map_eq_some_iff.1 hfirst
  obtain ⟨hidentifier, hid⟩ := Prod.mk.inj hvariable
  have hname : IsVariable c "id" := ⟨m, m, hm, .self (by rw [hidentifier]; decide), .inl hidentifier, hid⟩
  rw [hc] at htexts
  obtain ⟨text, htext, rfl⟩ : ∃ text, StandsFor c text ∧ texts = [text] := by
    cases htexts with
    | cons htext hnil =>
      cases hnil
      exact ⟨_, htext, rfl⟩
  obtain rfl := htext.of_isVariable hname
  rw [hvalue, Option.some.injEq, urlText, ← String.toList_inj, String.toList_ofList, String.toList_ofList] at hspelled
  -- a letter of the variable would stand in the URL
  have hletter : 'i' ∈ weave (segments.map cook) ([placeholder "id"].map String.toList) := by
    cases segments with
    | nil => cases hspelled
    | cons segment segments =>
      rw [List.map_cons, List.map_singleton, weave, toList_placeholder]
      simp
  rw [← hspelled] at hletter
  exact absurd hletter (by decide)

end

end RequestAtlas.Literal
