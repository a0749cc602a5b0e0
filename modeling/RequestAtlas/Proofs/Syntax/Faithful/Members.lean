import RequestAtlas.Proofs.Syntax.Faithful.Types
/-!
# Literals with members, classes and markup

Object and array literals, classes and markup elements keep to the source.
-/

namespace RequestAtlas.Syntax.Parse

-- instance search goes through a whole step at once
set_option synthInstance.maxSize 20000

variable {source : List Char} {low : Nat} {g : Grammar} [hg : g.Keeps source]

/-! ## Literals -/

instance (line : Bool) : Keeps source low (methodRest g line) := by
  unfold methodRest
  infer_instance

instance : Keeps source low (pair g) := by
  unfold pair
  infer_instance

instance : Keeps source low (objectMethod g) := by
  unfold objectMethod
  infer_instance

instance : Keeps source low shorthand := by
  unfold shorthand
  refine keeps_bind inferInstance fun _ _ => keeps_bind inferInstance fun _ _ => ?_
  split <;> infer_instance

instance : Keeps source low (object g) := by
  unfold object
  infer_instance

instance : Keeps source low (array g) := by
  unfold array
  infer_instance

/-! ## Classes -/

instance (afterExpression : Bool) : Keeps source low (memberEnd afterExpression) := by
  unfold memberEnd
  infer_instance

instance : Keeps source low (namedMember g) := by
  unfold namedMember
  infer_instance

instance : Keeps source low (classMember g) := by
  unfold classMember
  infer_instance

instance : Keeps source low (classBody g) := by
  unfold classBody
  infer_instance

instance : Keeps source low (classHeritage.parent g) := by
  unfold classHeritage.parent
  infer_instance

instance : Keeps source low (classHeritage g) := by
  unfold classHeritage
  infer_instance

instance (start : Cursor) (decorators : List Node) (named : Bool) [Sound source low start]
    [Sound source low decorators] : Keeps source low (classTail g start decorators named) := by
  unfold classTail
  infer_instance

instance (named : Bool) : Keeps source low (classConstruct g named) := by
  unfold classConstruct
  infer_instance

/-! ## Markup -/

instance : Keeps source low tagName.hyphenated where
  out := by
    intro c a d hc h
    rw [tagName.hyphenated] at h
    split at h
    · cases h
      exact ⟨hc.skipN _, inferInstance⟩
    · cases h

/-- A name in a tag is a word, and hyphens go on with it, but no brace. -/
theorem tagName_brace {start d : Cursor} {x : List Unit} (hstart : start.Within source low)
    (h : many tagName.hyphenated (start.skipN (wordLength start.rest)) = some (x, d)) :
    ∀ w, IsWord w → ∀ rest, start.rest = w.toList ++ '\x7d' :: rest →
      d = .before ('\x7d' :: rest) (start.offset + bytes w.toList) := by
  intro w hw rest hrest
  have hskip : start.skipN (wordLength start.rest) = .before ('\x7d' :: rest) (start.offset + bytes w.toList) := by
    rw [hstart.eq_before, hrest]
    show (Cursor.before _ _).skipN (wordLength (w.toList ++ _)) = _
    rw [hw.length (ends_brace rest), Cursor.skipN_before]
    rfl
  rw [hskip, many, many_go_of_none (by rfl), Option.some.injEq] at h
  exact (congrArg Prod.snd h).symm

instance : Keeps source low tagName where
  out := by
    intro c n d hc h
    obtain ⟨hstart, _⟩ := within_pastTrivia false hc
    rw [tagName, bind_of_some (here_apply c)] at h
    obtain ⟨_, _, hensure, hskip⟩ := bind_eq_some_iff.1 h
    obtain ⟨_, rfl⟩ := ensure_eq_some_iff.1 hensure
    obtain ⟨_, c', hmodify, hmany⟩ := bind_eq_some_iff.1 hskip
    obtain ⟨_, _, hhyphens, hnode⟩ := bind_eq_some_iff.1 hmany
    cases hmodify
    cases hnode
    have hd := (inferInstance : Keeps source low (many tagName.hyphenated)).out (hstart.skipN _) hhyphens
    refine ⟨hd.1, .node ⟨hstart.placed d, ?_, fun _ => not_brace_of_read hstart (tagName_brace hstart hhyphens)⟩
      (inferInstance : Sound source low [])⟩
    intro hkind
    cases hkind

instance : Keeps source low (elementName g) := by
  unfold elementName
  infer_instance

instance : Keeps source low (embedded g) := by
  unfold embedded
  infer_instance

instance : Keeps source low attributeString := by
  unfold attributeString
  refine keeps_bind inferInstance fun start _ => ?_
  split
  · refine keeps_bind inferInstance fun _ _ => ?_
    split <;> infer_instance
  · infer_instance

instance : Keeps source low (elementAttribute g) := by
  unfold elementAttribute
  infer_instance

/-- The one node that a step makes, as a list. -/
theorem within_of_map_single {p : Parse Node} (hp : Keeps source low p) {c d : Cursor} {ns : List Node}
    (hc : c.Within source low) (h : (p c).map (fun x => ([x.1], x.2)) = some (ns, d)) :
    d.Within source low ∧ Sound source low ns := by
  obtain ⟨⟨n, d'⟩, hn, hns⟩ := Option.map_eq_some_iff.1 h
  obtain ⟨hd, hsound⟩ := hp.out hc hn
  cases hns
  exact ⟨hd, inferInstance⟩

instance : Keeps source low (elementChild g) where
  out := by
    intro c ns d hc h
    have hc' : (c.skipWhile fun ch => !("<>\x7b\x7d&".toList.contains ch)).Within source low := hc.skipWhile _
    unfold elementChild at h
    dsimp only at h
    split at h
    · exact within_of_map_single inferInstance hc' h
    · split at h
      · cases h
      · cases h
        exact ⟨hc', inferInstance⟩
    · exact within_of_map_single (inferInstance : Keeps source low g.element) hc' h
    · obtain ⟨rest, _, hd⟩ := Option.map_eq_some_iff.1 h
      cases hd
      exact ⟨hc'.skipN _, inferInstance⟩
    · cases h

instance : Keeps source low (element g) := by
  unfold element
  infer_instance

end RequestAtlas.Syntax.Parse
