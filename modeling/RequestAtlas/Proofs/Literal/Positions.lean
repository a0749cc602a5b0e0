import RequestAtlas.Proofs.Literal.Padding
/-!
# The places of an array literal

An array literal spells a list of slots, each an element or a hole (`SpellsSlots`).  A comma stands behind every slot
but a last element, where it may be left out, and comments stand anywhere.  Reading the children keeps one bit, whether
an element stands since the last comma; what is read up to a comma is `entriesOf`.  Main statement `value_array_iff`:
every slot has its own place in the list that is read, unless a markup comment stands among the children.  Such a
comment is of a kind of its own, and is read as one more element.
-/

namespace RequestAtlas.Literal

open RequestAtlas.Syntax

/-! ## Slots and their spelling -/

/-- A place of an array. -/
inductive ArraySlot where
  | element (e : Node)
  | hole

/-- What stands in the list for a slot. -/
def ArraySlot.entry : ArraySlot → Value
  | element e => if e.kind = .spread then unknownValue else value e
  | hole => .null

/-- A node that is no part of a slot: a comment of either kind, or a bracket. -/
def IsAside (n : Node) : Prop := n.kind = .comment ∨ IsMarkup n ∨ n.kind = .token "[" ∨ n.kind = .token "]"

/-- An expression or a spread. -/
def IsElement (n : Node) : Prop := n.isContent = true ∧ ¬ IsMarkup n

/-- The nodes of one slot, with asides around its element. -/
inductive SpellsSlot : ArraySlot → List Node → Prop
  | element {e : Node} {before after : List Node} (hbefore : ∀ c ∈ before, IsAside c) (he : IsElement e)
      (hafter : ∀ c ∈ after, IsAside c) : SpellsSlot (.element e) (before ++ e :: after)
  | hole {cs : List Node} (h : ∀ c ∈ cs, IsAside c) : SpellsSlot .hole cs

/-- The children of an array literal with the given slots. -/
inductive SpellsSlots : List ArraySlot → List Node → Prop
  | none {cs : List Node} (h : ∀ c ∈ cs, IsAside c) : SpellsSlots [] cs
  | last {e : Node} {cs : List Node} (h : SpellsSlot (.element e) cs) : SpellsSlots [.element e] cs
  | more {s : ArraySlot} {slots : List ArraySlot} {comma : Node} {cs ds : List Node} (h : SpellsSlot s cs)
      (hcomma : comma.kind = .token ",") (rest : SpellsSlots slots ds) : SpellsSlots (s :: slots) (cs ++ comma :: ds)

theorem IsAside.ne_comma {n : Node} (h : IsAside n) : n.kind ≠ .token "," := by
  rcases h with h | h | h | h <;> rw [h] <;> decide

/-- The only asides that count as contents are markup comments. -/
theorem IsAside.isContent_iff {n : Node} (h : IsAside n) : n.isContent = true ↔ IsMarkup n := by
  unfold IsAside IsMarkup at *
  rcases h with h | h | h | h <;> simp [Node.isContent, Node.isNamed, Node.isComment, Kind.isNamed, h]

theorem value_spread {e : Node} (h : e.kind = .spread) : value e = unknownValue := by
  obtain ⟨kind, role, start, chars, children⟩ := e
  obtain rfl : kind = .spread := h
  simp [value]

theorem entry_element (e : Node) : (ArraySlot.element e).entry = value e := by
  rw [ArraySlot.entry]
  split
  · next h => rw [value_spread h]
  · rfl

/-! ## Reading up to a comma -/

/-- What nodes without a comma among them are read as, if a comma follows. -/
def entriesOf (cs : List Node) : List Value :=
  if cs.any Node.isContent then (cs.filter Node.isContent).map value else [.null]

/-- Nodes without a comma among them are read as their contents. -/
theorem elements_append {cs : List Node} (h : ∀ c ∈ cs, c.kind ≠ .token ",") (filled : Bool) (ds : List Node) :
    elements filled (cs ++ ds) =
      (cs.filter Node.isContent).map value ++ elements (filled || cs.any Node.isContent) ds := by
  induction cs generalizing filled with
  | nil => simp
  | cons c cs ih =>
    obtain ⟨hc, hcs⟩ := List.forall_mem_cons.1 h
    rw [List.cons_append, elements, if_neg hc]
    by_cases hcontent : c.isContent = true
    · rw [if_pos hcontent, ih hcs, List.filter_cons_of_pos hcontent]
      simp [hcontent]
    · rw [if_neg hcontent, ih hcs, List.filter_cons_of_neg hcontent]
      simp [hcontent]

/-- A comma ends what stands before it: contents, or else a hole. -/
theorem elements_comma {cs : List Node} (h : ∀ c ∈ cs, c.kind ≠ .token ",") {comma : Node}
    (hcomma : comma.kind = .token ",") (ds : List Node) :
    elements false (cs ++ comma :: ds) = entriesOf cs ++ elements false ds := by
  rw [elements_append h, elements, if_pos hcomma, entriesOf, Bool.false_or]
  cases hany : cs.any Node.isContent with
  | true => simp
  | false =>
    have hnone : cs.filter Node.isContent = [] := by
      rw [List.filter_eq_nil_iff]
      exact List.any_eq_false.1 hany
    simp [hnone]

theorem elements_of_no_comma {cs : List Node} (h : ∀ c ∈ cs, c.kind ≠ .token ",") :
    elements false cs = (cs.filter Node.isContent).map value := by
  have happend := elements_append h false []
  rwa [List.append_nil, elements, List.append_nil] at happend

/-! ## One slot -/

theorem contents_asides_eq_nil_iff {cs : List Node} (h : ∀ c ∈ cs, IsAside c) :
    cs.filter Node.isContent = [] ↔ ∀ c ∈ cs, ¬ IsMarkup c := by
  rw [List.filter_eq_nil_iff]
  exact forall₂_congr fun c hc => not_congr (h c hc).isContent_iff

theorem SpellsSlot.ne_comma {s : ArraySlot} {cs : List Node} (h : SpellsSlot s cs) :
    ∀ c ∈ cs, c.kind ≠ .token "," := by
  cases h with
  | element hbefore he hafter =>
    intro c hc
    rcases List.mem_append.1 hc with hc | hc
    · exact (hbefore c hc).ne_comma
    · rcases List.mem_cons.1 hc with rfl | hc
      · exact ne_token_of_isContent he.1
      · exact (hafter c hc).ne_comma
  | hole h => exact fun c hc => (h c hc).ne_comma

/-- The contents of the slot of an element: the element, with the markup comments around it. -/
theorem SpellsSlot.contents {e : Node} {cs : List Node} (h : SpellsSlot (.element e) cs) :
    0 < ((cs.filter Node.isContent).map value).length ∧
    ((cs.filter Node.isContent).map value = [(ArraySlot.element e).entry] ↔ ∀ c ∈ cs, ¬ IsMarkup c) := by
  cases h with
  | @element _ before after hbefore he hafter =>
    rw [List.filter_append, List.filter_cons_of_pos he.1, entry_element]
    refine ⟨by simp only [List.length_map, List.length_append, List.length_cons]; omega, ?_⟩
    rw [List.forall_mem_append, List.forall_mem_cons, and_iff_right he.2, ← contents_asides_eq_nil_iff hbefore,
      ← contents_asides_eq_nil_iff hafter]
    constructor
    · intro heq
      have hlength := congrArg List.length heq
      simp only [List.length_map, List.length_append, List.length_cons, List.length_nil] at hlength
      rw [← List.length_eq_zero_iff, ← List.length_eq_zero_iff]
      omega
    · rintro ⟨hb, ha⟩
      rw [hb, ha]
      rfl

/-- A slot is read as one entry at least, and as its own entry alone just if it has no markup comment. -/
theorem SpellsSlot.entriesOf {s : ArraySlot} {cs : List Node} (h : SpellsSlot s cs) :
    0 < (entriesOf cs).length ∧ (entriesOf cs = [s.entry] ↔ ∀ c ∈ cs, ¬ IsMarkup c) := by
  cases s with
  | element e =>
    have hcontents := h.contents
    have hany : cs.any Node.isContent = true := by
      have hpos := hcontents.1
      rw [List.length_map, List.length_filter_pos_iff] at hpos
      exact List.any_eq_true.2 hpos
    rwa [Literal.entriesOf, if_pos hany]
  | hole =>
    cases h with
    | hole h =>
      rw [Literal.entriesOf, ← contents_asides_eq_nil_iff h, ArraySlot.entry]
      cases hany : cs.any Node.isContent with
      | false =>
        have hnone : cs.filter Node.isContent = [] := List.filter_eq_nil_iff.2 (List.any_eq_false.1 hany)
        simp [hnone]
      | true =>
        -- a markup comment is read as an unknown value, which no hole is
        obtain ⟨c, hc, hcontent⟩ := List.any_eq_true.1 hany
        have hmem : c ∈ cs.filter Node.isContent := List.mem_filter.2 ⟨hc, hcontent⟩
        have hmarkup : IsMarkup c := (h c hc).isContent_iff.1 hcontent
        have hvalue : unknownValue ∈ (cs.filter Node.isContent).map value :=
          value_markup hmarkup ▸ List.mem_map_of_mem hmem
        rw [if_pos rfl]
        refine ⟨List.length_pos_of_mem hvalue, iff_of_false ?_ (List.ne_nil_of_mem hmem)⟩
        intro heq
        rw [heq, List.mem_singleton] at hvalue
        cases hvalue

/-! ## All slots -/

/-- Each slot is read as one entry at least, so nothing moves to the front; and each as its own entry alone just if
there is no markup comment. -/
theorem SpellsSlots.elements {slots : List ArraySlot} {cs : List Node} (h : SpellsSlots slots cs) :
    slots.length ≤ (elements false cs).length ∧
    (elements false cs = slots.map ArraySlot.entry ↔ ∀ c ∈ cs, ¬ IsMarkup c) := by
  induction h with
  | none h =>
    rw [elements_of_no_comma fun c hc => (h c hc).ne_comma, ← contents_asides_eq_nil_iff h]
    exact ⟨Nat.zero_le _, List.map_eq_nil_iff⟩
  | last h =>
    rw [elements_of_no_comma h.ne_comma]
    exact h.contents
  | @more s slots comma cs ds h hcomma rest ih =>
    obtain ⟨hpos, hslot⟩ := h.entriesOf
    obtain ⟨hle, hslots⟩ := ih
    have hcommaMarkup : ¬ IsMarkup comma := by
      rw [IsMarkup, hcomma]
      decide
    rw [elements_comma h.ne_comma hcomma, List.forall_mem_append, List.forall_mem_cons, and_iff_right hcommaMarkup,
      ← hslot, ← hslots, List.map_cons]
    refine ⟨by simp only [List.length_append, List.length_cons]; omega, ?_, ?_⟩
    · intro heq
      -- the lengths leave one entry to the slot, so the lists agree part by part
      have hlength := congrArg List.length heq
      simp only [List.length_append, List.length_cons, List.length_map] at hlength
      have hone : (Literal.entriesOf cs).length = 1 := by omega
      rw [← List.singleton_append] at heq
      exact List.append_inj heq hone
    · rintro ⟨hhead, htail⟩
      rw [hhead, htail]
      rfl

/-- **The places of an array are those of its slots, just if no markup comment stands in it.**  The list that is read
then has one entry for each slot: the value of the element, nothing for a hole, an unknown value for a spread. -/
theorem value_array_iff (n : Node) (slots : List ArraySlot) (hkind : n.kind = .array)
    (h : SpellsSlots slots n.children) :
    value n = .list (slots.map ArraySlot.entry) ↔ ∀ c ∈ n.children, ¬ IsMarkup c := by
  obtain ⟨kind, role, start, chars, children⟩ := n
  obtain rfl : kind = .array := hkind
  rw [value, Value.list.injEq]
  exact h.elements.2

section
open Request (leaf)

theorem spellsSlot_alone {e : Node} (he : IsElement e) : SpellsSlot (.element e) [e] :=
  @SpellsSlot.element e [] [] (by simp) he (by simp)

theorem isElement_leaf {kind : Kind} (text : String) (hnamed : kind.isNamed = true) (hcomment : kind ≠ .comment)
    (hmarkup : kind ≠ .construct "html_comment") : IsElement (leaf kind text) := by
  refine ⟨?_, hmarkup⟩
  rw [Node.isContent, Bool.and_eq_true, Bool.not_eq_true', Node.isComment, beq_eq_false_iff_ne]
  exact ⟨hnamed, hcomment⟩

/-- A variable, a hole and a spread, with comments beside them and a comma at the end. -/
def threeSlots : Node :=
  .mk .array none 0 []
    [leaf (.token "[") "[", leaf .comment "/**/", leaf .identifier "x", leaf .comment "/**/", leaf (.token ",") ",",
     leaf .comment "/**/", leaf (.token ",") ",", leaf .spread "...y", leaf (.token ",") ",", leaf (.token "]") "]"]

theorem spells_threeSlots :
    SpellsSlots [.element (leaf .identifier "x"), .hole, .element (leaf .spread "...y")] threeSlots.children := by
  have hcomment : ∀ c ∈ [leaf .comment "/**/"], IsAside c := List.forall_mem_singleton.2 (.inl rfl)
  have hopen : ∀ c ∈ [leaf (.token "[") "[", leaf .comment "/**/"], IsAside c :=
    List.forall_mem_cons.2 ⟨.inr (.inr (.inl rfl)), hcomment⟩
  have hclose : ∀ c ∈ [leaf (.token "]") "]"], IsAside c := List.forall_mem_singleton.2 (.inr (.inr (.inr rfl)))
  have hvariable : IsElement (leaf .identifier "x") := isElement_leaf _ rfl (by decide) (by decide)
  have hspread : IsElement (leaf .spread "...y") := isElement_leaf _ rfl (by decide) (by decide)
  exact .more (.element hopen hvariable hcomment) rfl
    (.more (.hole hcomment) rfl (.more (spellsSlot_alone hspread) rfl (.none hclose)))

theorem value_array_iff_threeSlots : threeSlots.kind = .array ∧
    SpellsSlots [.element (leaf .identifier "x"), .hole, .element (leaf .spread "...y")] threeSlots.children ∧
    value threeSlots = .list [.string (placeholder "x"), .null, unknownValue] := by
  refine ⟨rfl, spells_threeSlots, (value_array_iff threeSlots _ rfl spells_threeSlots).2 ?_⟩
  unfold IsMarkup
  decide

/-- Two truth values with a markup comment between them, `[true, <!-- gap` and `false]` on the next line. -/
def markedArray : Node :=
  .mk .array none 0 []
    [leaf .trueLiteral "true", leaf (.token ",") ",", leaf (.construct "html_comment") "<!-- gap",
     leaf .falseLiteral "false"]

theorem spells_markedArray :
    SpellsSlots [.element (leaf .trueLiteral "true"), .element (leaf .falseLiteral "false")] markedArray.children := by
  have hmarkup : ∀ c ∈ [leaf (.construct "html_comment") "<!-- gap"], IsAside c :=
    List.forall_mem_singleton.2 (.inr (.inl rfl))
  have htrue : IsElement (leaf .trueLiteral "true") := isElement_leaf _ rfl (by decide) (by decide)
  have hfalse : IsElement (leaf .falseLiteral "false") := isElement_leaf _ rfl (by decide) (by decide)
  exact .more (spellsSlot_alone htrue) rfl (.last (.element hmarkup hfalse (by simp)))

/-- The markup comment takes the second place. -/
theorem value_markedArray : ¬ ∀ (n : Node) (slots : List ArraySlot), n.kind = .array →
    SpellsSlots slots n.children → value n = .list (slots.map ArraySlot.entry) := by
  intro h
  have hvalue := h markedArray _ rfl spells_markedArray
  have hread : value markedArray = .list [.bool true, unknownValue, .bool false] := by rfl
  rw [hread] at hvalue
  cases hvalue

end

end RequestAtlas.Literal
