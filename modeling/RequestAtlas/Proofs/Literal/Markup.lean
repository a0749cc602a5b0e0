import RequestAtlas.Literal.Reconstruction
/-!
# Comments of both kinds

Besides its ordinary comments, a script may hold comments in the manner of markup, which are nodes of another kind
(`IsMarkup`).  Reading takes off parentheses (`_unwrap`) and passes over ordinary comments only (`Bare`); what the
parentheses hold, whatever the comments, is `Core`.  The two agree unless a markup comment stands in the way
(`Covered`), which is then taken for the expression (`firstExpression?_of_covered`).
-/

namespace RequestAtlas.Literal

open RequestAtlas.Syntax

/-! ## What is read -/

/-- `e` is what is read of `n` without the parentheses around it; ordinary comments inside them do not count. -/
inductive Bare : Node → Node → Prop
  | self {n : Node} (h : n.kind ≠ .parenthesized) : Bare n n
  | inside {n m e : Node} (h : n.kind = .parenthesized) (hm : n.contents.head? = some m) (he : Bare m e) : Bare n e

mutual

theorem unwrap?_eq_some_iff : ∀ {n e : Node}, unwrap? n = some e ↔ Bare n e
  | .mk kind role start chars children, e => by
    rw [unwrap?]
    by_cases hkind : kind = .parenthesized
    · rw [if_pos hkind, firstExpression?_eq_some_iff]
      constructor
      · rintro ⟨m, hm, he⟩
        exact .inside hkind hm he
      · rintro (hself | ⟨_, hm, he⟩)
        · exact absurd hkind hself
        · exact ⟨_, hm, he⟩
    · rw [if_neg hkind, Option.some.injEq]
      constructor
      · rintro rfl
        exact .self hkind
      · rintro (_ | ⟨hparen, _, _⟩)
        · rfl
        · exact absurd hparen hkind

theorem firstExpression?_eq_some_iff : ∀ {ns : List Node} {e : Node}, firstExpression? ns = some e ↔
    ∃ m, (ns.filter Node.isContent).head? = some m ∧ Bare m e
  | [], e => by simp [firstExpression?]
  | n :: ns, e => by
    rw [firstExpression?]
    by_cases h : n.isContent = true
    · rw [if_pos h, List.filter_cons_of_pos h, unwrap?_eq_some_iff]
      simp
    · rw [if_neg h, List.filter_cons_of_neg h, firstExpression?_eq_some_iff]

end

/-- The text that a string or template literal spells. -/
inductive Spells (e : Node) : String → Prop
  | string (h : e.kind = .string) : Spells e (stringValue e.chars)
  | template (h : e.kind = .template) :
      Spells e (String.ofList (templateParts (e.start + 1) (e.chars.drop 1) e.children))

theorem Spells.unique {e : Node} {url url' : String} (h : Spells e url) (h' : Spells e url') : url = url' := by
  cases h with
  | string hkind =>
    cases h' with
    | string => rfl
    | template hkind' => cases hkind.symm.trans hkind'
  | template hkind =>
    cases h' with
    | string hkind' => cases hkind.symm.trans hkind'
    | template => rfl

theorem url?_eq_some_iff {n : Node} {url : String} : url? n = some url ↔ ∃ e, Bare n e ∧ Spells e url := by
  constructor
  · intro h
    unfold url? at h
    split at h
    · rename_i e he
      refine ⟨e, unwrap?_eq_some_iff.1 he, ?_⟩
      split at h
      · cases h
        exact .string ‹_›
      · split at h
        · cases h
          exact .template ‹_›
        · cases h
    · cases h
  · rintro ⟨e, he, hurl⟩
    rw [url?, unwrap?_eq_some_iff.2 he]
    cases hurl with
    | string hkind => simp [hkind]
    | template hkind => simp [hkind]

/-! ## Expressions -/

/-- A comment in the manner of markup. -/
def IsMarkup (n : Node) : Prop := n.kind = .construct "html_comment"

theorem value_markup {n : Node} (h : IsMarkup n) : value n = unknownValue := by
  obtain ⟨kind, role, start, chars, children⟩ := n
  obtain rfl : kind = .construct "html_comment" := h
  simp [value]

/-- Whether a node is an expression: named, and a comment of neither kind. -/
def isExpression (n : Node) : Bool := n.isContent && n.kind != .construct "html_comment"

/-- `e` is what `n` is without the parentheses around it; comments of either kind inside them do not count. -/
inductive Core : Node → Node → Prop
  | self {n : Node} (h : n.kind ≠ .parenthesized) : Core n n
  | inside {n m e : Node} (h : n.kind = .parenthesized) (hm : (n.children.filter isExpression).head? = some m)
      (he : Core m e) : Core n e

theorem Core.unique {n e e' : Node} (h : Core n e) (h' : Core n e') : e = e' := by
  induction h with
  | self h =>
    cases h' with
    | self => rfl
    | inside hkind => exact absurd hkind h
  | inside hkind hm _ ih =>
    cases h' with
    | self h => exact absurd hkind h
    | inside _ hm' he' => exact ih (by cases hm.symm.trans hm'; exact he')

/-- A markup comment stands in front of the expression among some nodes, or in front of what its parentheses hold. -/
inductive Covered : List Node → Prop
  | here {ns : List Node} {m : Node} (hm : (ns.filter Node.isContent).head? = some m) (h : IsMarkup m) : Covered ns
  | inside {ns : List Node} {m : Node} (hm : (ns.filter Node.isContent).head? = some m)
      (hkind : m.kind = .parenthesized) (h : Covered m.children) : Covered ns

/-! ## Where a markup comment is in the way -/

/-- The first content is the first expression, or else a markup comment. -/
theorem head?_contents (ns : List Node) :
    (ns.filter isExpression).head? = (ns.filter Node.isContent).head? ∨
      ∃ m, (ns.filter Node.isContent).head? = some m ∧ IsMarkup m := by
  induction ns with
  | nil => exact .inl rfl
  | cons n ns ih =>
    by_cases hcontent : n.isContent = true
    · rw [List.filter_cons_of_pos hcontent]
      by_cases hmarkup : IsMarkup n
      · exact .inr ⟨n, rfl, hmarkup⟩
      · have hexpression : isExpression n = true := by
          rw [isExpression, hcontent, Bool.true_and, bne_iff_ne]
          exact hmarkup
        rw [List.filter_cons_of_pos hexpression]
        exact .inl rfl
    · have hexpression : ¬ isExpression n = true := by
        rw [isExpression, Bool.and_eq_true]
        exact fun h => hcontent h.1
      rwa [List.filter_cons_of_neg hcontent, List.filter_cons_of_neg hexpression]

theorem head?_of_not_covered {ns : List Node} (h : ¬ Covered ns) :
    (ns.filter isExpression).head? = (ns.filter Node.isContent).head? :=
  (head?_contents ns).resolve_right fun ⟨_, hm, hmarkup⟩ => h (.here hm hmarkup)

/-- Where no markup comment is in the way, parentheses are taken off as they should. -/
theorem bare_iff_core {n e : Node} (h : n.kind = .parenthesized → ¬ Covered n.children) : Bare n e ↔ Core n e := by
  constructor
  · intro hbare
    induction hbare with
    | self hkind => exact .self hkind
    | @inside n m e hkind hm _ ih =>
      have hcovered := h hkind
      have hm' : (n.children.filter Node.isContent).head? = some m := hm
      refine .inside hkind ((head?_of_not_covered hcovered).trans hm) (ih fun hparen hinside => ?_)
      exact hcovered (.inside hm' hparen hinside)
  · intro hcore
    induction hcore with
    | self hkind => exact .self hkind
    | @inside n m e hkind hm _ ih =>
      have hcovered := h hkind
      have hm' := (head?_of_not_covered hcovered).symm.trans hm
      refine .inside hkind hm' (ih fun hparen hinside => ?_)
      exact hcovered (.inside hm' hparen hinside)

theorem firstExpression?_of_not_covered {ns : List Node} (h : ¬ Covered ns) {e : Node} :
    firstExpression? ns = some e ↔ ∃ m, (ns.filter isExpression).head? = some m ∧ Core m e := by
  rw [firstExpression?_eq_some_iff, head?_of_not_covered h]
  refine exists_congr fun m => and_congr_right fun hm => bare_iff_core fun hkind hinside => ?_
  exact h (.inside hm hkind hinside)

/-- A markup comment in the way is taken for the expression. -/
theorem firstExpression?_of_covered {ns : List Node} (h : Covered ns) :
    ∃ m, firstExpression? ns = some m ∧ IsMarkup m := by
  induction h with
  | @here ns m hm hmarkup =>
    have hkind : m.kind ≠ .parenthesized := by
      rw [hmarkup]
      decide
    exact ⟨m, firstExpression?_eq_some_iff.2 ⟨m, hm, .self hkind⟩, hmarkup⟩
  | @inside ns m hm hkind _ ih =>
    obtain ⟨e, he, hmarkup⟩ := ih
    obtain ⟨m', hm', hbare⟩ := firstExpression?_eq_some_iff.1 he
    exact ⟨e, firstExpression?_eq_some_iff.2 ⟨m, hm, .inside hkind hm' hbare⟩, hmarkup⟩

end RequestAtlas.Literal
