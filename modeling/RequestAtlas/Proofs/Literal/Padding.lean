import RequestAtlas.Proofs.Extracted
import RequestAtlas.Proofs.Literal.Segments
/-!
# Comments and parentheses

A tree is padded by comments among the children of its nodes and by parentheses around its values, which may hold
comments and more parentheses themselves (`PaddedIn`).  Padding moves all that stands behind it and lengthens all that
stands around it, so of a node's place and text nothing is kept but the words and the segments of templates.  Main
statement `padding_irrelevant`: a tree and a padded one spell the same URL, have the same value and make the same
requests.

Each function that reads a list of children has a lemma of its own, by recursion on the padded children.
-/

namespace RequestAtlas

namespace Syntax

/-- A kind of node whose text is read. -/
def Kind.isWord : Kind → Bool
  | .identifier | .undefined | .propertyIdentifier | .shorthand | .string | .number => true
  | _ => false

/-- The same node in no part. -/
def Node.withoutRole : Node → Node
  | mk kind _ start chars children => mk kind none start chars children

end Syntax

open Syntax

namespace Literal

/-! ## Padded trees -/

/-- `n` is a value of a node of kind `outer`: an argument, an element, what stands in parentheses or is substituted, or
the value of a property. -/
def IsValueIn (outer : Kind) (n : Node) : Prop :=
  n.isContent = true ∧
    (outer ∈ [.arguments, .array, .parenthesized, .substitution] ∨ outer = .pair ∧ n.role = some .value)

/-- The children of plain parentheses around a node. -/
def enclosed (n : Node) : List Node :=
  [.mk (.token "(") none 0 ['('] [], n.withoutRole, .mk (.token ")") none 0 [')'] []]

/-- Two nodes that differ at most in where they stand and in what stands inside them. -/
structure Twin (n n' : Node) : Prop where
  kind : n'.kind = n.kind
  word : n.kind.isWord = true → n'.chars = n.chars
  template : n.kind = .template → ∃ segments, Segmented n segments ∧ Segmented n' segments

/-- The second list is the first, the children of a node of kind `outer`, with comments and parentheses added. -/
inductive PaddedIn : Kind → List Node → List Node → Prop
  | nil {outer : Kind} : PaddedIn outer [] []
  | node {outer : Kind} {n n' : Node} {ns ns' : List Node} (role : n'.role = n.role) (twin : Twin n n')
      (inside : PaddedIn n.kind n.children n'.children) (rest : PaddedIn outer ns ns') :
      PaddedIn outer (n :: ns) (n' :: ns')
  | comment {outer : Kind} {start : Nat} {chars : List Char} {ns ns' : List Node} (rest : PaddedIn outer ns ns') :
      PaddedIn outer ns (.mk .comment none start chars [] :: ns')
  | parens {outer : Kind} {n : Node} {start : Nat} {chars : List Char} {children ns ns' : List Node}
      (position : IsValueIn outer n) (inside : PaddedIn .parenthesized (enclosed n) children)
      (rest : PaddedIn outer ns ns') :
      PaddedIn outer (n :: ns) (.mk .parenthesized n.role start chars children :: ns')

theorem PaddedIn.append {outer : Kind} {cs cs' ds ds' : List Node} (h : PaddedIn outer cs cs')
    (h' : PaddedIn outer ds ds') : PaddedIn outer (cs ++ ds) (cs' ++ ds') := by
  induction h with
  | nil => exact h'
  | node role twin inside rest _ ih => exact .node role twin inside (ih h')
  | comment rest ih => exact .comment (ih h')
  | parens position inside rest _ ih => exact .parens position inside (ih h')

/-- A node and a twin of it whose children are padded. -/
structure Alike (n n' : Node) : Prop where
  twin : Twin n n'
  inside : PaddedIn n.kind n.children n'.children

theorem Twin.isNamed {n n' : Node} (h : Twin n n') : n'.isNamed = n.isNamed := by
  rw [Node.isNamed, Node.isNamed, h.kind]

theorem Twin.isContent {n n' : Node} (h : Twin n n') : n'.isContent = n.isContent := by
  rw [Node.isContent, Node.isContent, h.isNamed, Node.isComment, Node.isComment, h.kind]

theorem Twin.text {n n' : Node} (h : Twin n n') (hword : n.kind.isWord = true) : n'.text = n.text := by
  rw [Node.text, Node.text, h.word hword]

theorem isContent_withoutRole (n : Node) : n.withoutRole.isContent = n.isContent := by
  cases n
  rfl

theorem value_withoutRole (n : Node) : value n.withoutRole = value n := by
  cases n
  simp only [Node.withoutRole, value]

theorem isContent_parenthesized (role : Option Role) (start : Nat) (chars : List Char) (children : List Node) :
    (Node.mk .parenthesized role start chars children).isContent = true := rfl

theorem ne_token_of_isContent {n : Node} {t : String} (h : n.isContent = true) : n.kind ≠ .token t := by
  intro hkind
  simp [Node.isContent, Node.isNamed, hkind, Kind.isNamed] at h

theorem not_isValueIn {outer : Kind} {n : Node}
    (h : outer ∉ [.arguments, .array, .parenthesized, .substitution, .pair]) : ¬ IsValueIn outer n := by
  rintro ⟨_, hlist | ⟨rfl, _⟩⟩
  · simp at h hlist
    tauto
  · simp at h

/-! ## Parentheses -/

theorem firstValue_enclosed {n : Node} (h : n.isContent = true) : firstValue (enclosed n) = value n := by
  have hopen : (Node.mk (.token "(") none 0 ['('] []).isContent = false := rfl
  rw [enclosed, firstValue, hopen, if_neg Bool.false_ne_true, firstValue, isContent_withoutRole, if_pos h,
    value_withoutRole]

theorem firstExpression?_enclosed {n : Node} (h : n.isContent = true) :
    firstExpression? (enclosed n) = unwrap? n.withoutRole := by
  have hopen : (Node.mk (.token "(") none 0 ['('] []).isContent = false := rfl
  rw [enclosed, firstExpression?, hopen, if_neg Bool.false_ne_true, firstExpression?, isContent_withoutRole, if_pos h]

/-! ## Parts of a node -/

/-- A child in a part that no value plays is found again, with parentheses and comments only inside it. -/
theorem child_alike {outer : Kind} {r : Role} (hr : ∀ n, IsValueIn outer n → n.role ≠ some r) {cs cs' : List Node}
    (h : PaddedIn outer cs cs') :
    Option.Rel Alike (cs.find? (·.role == some r)) (cs'.find? (·.role == some r)) := by
  induction h with
  | nil => exact .none
  | @node _ n n' ns ns' role twin inside rest _ ih =>
    cases hn : n.role == some r with
    | true =>
      simp only [List.find?_cons, role, hn]
      exact .some ⟨twin, inside⟩
    | false =>
      simp only [List.find?_cons, role, hn]
      exact ih hr
  | comment rest ih => exact ih hr
  | @parens _ n start chars children ns ns' position inside rest _ ih =>
    have hn : (n.role == some r) = false := by simpa using hr n position
    have hparens : (Node.mk .parenthesized n.role start chars children).role = n.role := rfl
    simp only [List.find?_cons, hparens, hn]
    exact ih hr

/-- The key of a property is no value, so it stands without parentheses. -/
theorem propertyName_padded {cs cs' : List Node} (h : PaddedIn .pair cs cs') :
    propertyName cs' = propertyName cs := by
  have hkey : ∀ n, IsValueIn .pair n → n.role ≠ some .key := by
    rintro n ⟨_, hlist | ⟨_, hrole⟩⟩
    · simp at hlist
    · simp [hrole]
  have halike := child_alike hkey h
  unfold propertyName
  generalize cs.find? (·.role == some .key) = key, cs'.find? (·.role == some .key) = key' at halike
  cases halike with
  | none => rfl
  | @some k k' halike =>
    have hword := halike.twin.word
    simp only [halike.twin.kind, Node.text]
    by_cases hname : k.kind = .propertyIdentifier
    · rw [if_pos hname, if_pos hname, hword (by rw [hname]; rfl)]
    · by_cases hstring : k.kind = .string
      · rw [hword (by rw [hstring]; rfl)]
      · rw [if_neg hname, if_neg hname, if_neg hstring, if_neg hstring]

/-! ## Values -/

/-- Whatever reads the children of a node of kind `outer` as data reads the same in both lists. -/
structure ReadAlike (outer : Kind) (cs cs' : List Node) : Prop where
  first : firstValue cs' = firstValue cs
  property : propertyValue cs' = propertyValue cs
  elements : ∀ filled, elements filled cs' = elements filled cs
  entries : outer = .object → ∀ es, properties es cs' = properties es cs

theorem Twin.value {n n' : Node} (h : Twin n n') (hinside : ReadAlike n.kind n.children n'.children) :
    value n' = value n := by
  obtain ⟨kind, role, start, chars, children⟩ := n
  obtain ⟨kind', role', start', chars', children'⟩ := n'
  obtain rfl : kind' = kind := h.kind
  have hword : kind'.isWord = true → chars' = chars := h.word
  unfold Literal.value
  cases kind'
  case parenthesized => exact hinside.first
  case object => exact congrArg Value.dict (hinside.entries rfl [])
  case array => exact congrArg Value.list (hinside.elements false)
  case string | number | identifier | undefined => rw [hword rfl]
  all_goals rfl

/-- A property is read alike by its key, which has no parentheses, and its value. -/
theorem Twin.properties {n n' : Node} (h : Twin n n') (hpadded : PaddedIn n.kind n.children n'.children)
    (hinside : ReadAlike n.kind n.children n'.children) {ns ns' : List Node}
    (hrest : ∀ es, properties es ns' = properties es ns) (es : List (String × Value)) :
    properties es (n' :: ns') = properties es (n :: ns) := by
  obtain ⟨kind, role, start, chars, parts⟩ := n
  obtain ⟨kind', role', start', chars', parts'⟩ := n'
  obtain rfl : kind' = kind := h.kind
  have hword : kind'.isWord = true → chars' = chars := h.word
  unfold Literal.properties
  cases kind'
  case pair =>
    have hname : propertyName parts' = propertyName parts := propertyName_padded hpadded
    have hvalue : propertyValue parts' = propertyValue parts := hinside.property
    simp only [hname, hvalue, hrest]
  case shorthand => simp only [hword rfl, hrest]
  all_goals exact hrest es

theorem ReadAlike.node {outer : Kind} {n n' : Node} {ns ns' : List Node} (hrole : n'.role = n.role)
    (htwin : Twin n n') (hpadded : PaddedIn n.kind n.children n'.children)
    (hinside : ReadAlike n.kind n.children n'.children) (hrest : ReadAlike outer ns ns') :
    ReadAlike outer (n :: ns) (n' :: ns') where
  first := by rw [firstValue, firstValue, htwin.isContent, htwin.value hinside, hrest.first]
  property := by rw [propertyValue, propertyValue, hrole, htwin.value hinside, hrest.property]
  elements filled := by
    rw [Literal.elements, Literal.elements, htwin.kind, htwin.isContent, htwin.value hinside]
    simp only [hrest.elements]
  entries houter := htwin.properties hpadded hinside (hrest.entries houter)

theorem ReadAlike.comment {outer : Kind} {start : Nat} {chars : List Char} {ns ns' : List Node}
    (hrest : ReadAlike outer ns ns') : ReadAlike outer ns (.mk .comment none start chars [] :: ns') where
  first := hrest.first
  property := hrest.property
  elements := hrest.elements
  entries := hrest.entries

/-- Parentheses are read as what stands in them, wherever a value does. -/
theorem ReadAlike.parens {outer : Kind} {n : Node} {start : Nat} {chars : List Char} {children ns ns' : List Node}
    (hposition : IsValueIn outer n) (hinside : ReadAlike .parenthesized (enclosed n) children)
    (hrest : ReadAlike outer ns ns') :
    ReadAlike outer (n :: ns) (.mk .parenthesized n.role start chars children :: ns') := by
  have hvalue : value (.mk .parenthesized n.role start chars children) = value n := by
    rw [value, hinside.first, firstValue_enclosed hposition.1]
  have hcontent : (Node.mk .parenthesized n.role start chars children).isContent = true := rfl
  exact {
    first := by rw [firstValue, firstValue, if_pos hcontent, if_pos hposition.1, hvalue]
    property := by
      rw [propertyValue, propertyValue, hvalue, hrest.property]
      rfl
    elements := fun filled => by
      rw [Literal.elements, Literal.elements, if_neg (ne_token_of_isContent hposition.1), if_pos hposition.1,
        if_neg (ne_token_of_isContent hcontent), if_pos hcontent, hvalue, hrest.elements]
    entries := by
      rintro rfl
      exact absurd hposition (not_isValueIn (by decide)) }

theorem readAlike_of_padded {outer : Kind} {cs cs' : List Node} (h : PaddedIn outer cs cs') :
    ReadAlike outer cs cs' := by
  induction h with
  | nil => exact ⟨rfl, rfl, fun _ => rfl, fun _ _ => rfl⟩
  | node role twin inside rest ihinside ihrest => exact .node role twin inside ihinside ihrest
  | comment rest ih => exact .comment ih
  | parens position inside rest ihinside ihrest => exact .parens position ihinside ihrest

/-! ## Expressions without parentheses -/

theorem unwrap?_alike {n n' : Node} (h : Alike n n')
    (hinside : Option.Rel Alike (firstExpression? n.children) (firstExpression? n'.children)) :
    Option.Rel Alike (unwrap? n) (unwrap? n') := by
  obtain ⟨kind, role, start, chars, children⟩ := n
  obtain ⟨kind', role', start', chars', children'⟩ := n'
  obtain rfl : kind' = kind := h.twin.kind
  rw [unwrap?, unwrap?]
  by_cases hkind : kind' = .parenthesized
  · rw [if_pos hkind, if_pos hkind]
    exact hinside
  · rw [if_neg hkind, if_neg hkind]
    exact .some h

theorem unwrap?_withoutRole {n : Node} {e : Option Node} (h : Option.Rel Alike (unwrap? n.withoutRole) e) :
    Option.Rel Alike (unwrap? n) e := by
  obtain ⟨kind, role, start, chars, children⟩ := n
  rw [Node.withoutRole, unwrap?] at h
  rw [unwrap?]
  by_cases hkind : kind = .parenthesized
  · rwa [if_pos hkind] at h ⊢
  · rw [if_neg hkind] at h ⊢
    cases h with
    | some h => exact .some ⟨⟨h.twin.kind, h.twin.word, h.twin.template⟩, h.inside⟩

/-- The first expression among padded children is that among the others, itself padded. -/
theorem firstExpression?_alike {outer : Kind} {cs cs' : List Node} (h : PaddedIn outer cs cs') :
    Option.Rel Alike (firstExpression? cs) (firstExpression? cs') := by
  induction h with
  | nil => exact .none
  | @node _ n n' ns ns' role twin inside rest ihinside ihrest =>
    rw [firstExpression?, firstExpression?, twin.isContent]
    by_cases hn : n.isContent = true
    · rw [if_pos hn, if_pos hn]
      exact unwrap?_alike ⟨twin, inside⟩ ihinside
    · rw [if_neg hn, if_neg hn]
      exact ihrest
  | comment rest ih => exact ih
  | @parens _ n start chars children ns ns' position inside rest ihinside ihrest =>
    have hcontent : (Node.mk .parenthesized n.role start chars children).isContent = true := rfl
    rw [firstExpression?, firstExpression?, if_pos position.1, if_pos hcontent, unwrap?, if_pos rfl]
    rw [firstExpression?_enclosed position.1] at ihinside
    exact unwrap?_withoutRole ihinside

theorem substitutionText_padded {outer : Kind} {cs cs' : List Node} (h : PaddedIn outer cs cs') :
    substitutionText cs' = substitutionText cs := by
  have halike := firstExpression?_alike h
  unfold substitutionText
  generalize firstExpression? cs = e, firstExpression? cs' = e' at halike
  cases halike with
  | none => rfl
  | @some e e' halike =>
    simp only [halike.twin.kind, Node.text]
    by_cases hname : e.kind = .identifier ∨ e.kind = .undefined
    · have hword : e.kind.isWord = true := by rcases hname with h | h <;> rw [h] <;> rfl
      rw [halike.twin.word hword]
    · rw [if_neg hname, if_neg hname]

/-- The substitutions of a template are no values of it, so they stand without parentheses. -/
theorem substitutions_padded {outer : Kind} (houter : ∀ n, ¬ IsValueIn outer n) {cs cs' : List Node}
    (h : PaddedIn outer cs cs') :
    (substitutions cs').map (fun c => (substitutionText c.children).toList) =
      (substitutions cs).map fun c => (substitutionText c.children).toList := by
  induction h with
  | nil => rfl
  | @node _ n n' ns ns' role twin inside rest _ ih =>
    by_cases hn : n.kind = .substitution
    · have hn' : n'.kind = .substitution := twin.kind.trans hn
      rw [substitutions_cons_of_pos hn, substitutions_cons_of_pos hn', List.map_cons, List.map_cons,
        substitutionText_padded inside, ih houter]
    · have hn' : ¬ n'.kind = .substitution := by rwa [twin.kind]
      rw [substitutions_cons_of_neg hn, substitutions_cons_of_neg hn', ih houter]
  | comment rest ih => exact ih houter
  | parens position => exact absurd position (houter _)

/-! ## URL templates -/

theorem Alike.templateParts {n n' : Node} (h : Alike n n') (hkind : n.kind = .template) :
    templateParts (n'.start + 1) (n'.chars.drop 1) n'.children =
      templateParts (n.start + 1) (n.chars.drop 1) n.children := by
  obtain ⟨segments, hsegments, hsegments'⟩ := h.twin.template hkind
  have houter : ∀ m, ¬ IsValueIn n.kind m := fun m => not_isValueIn (by rw [hkind]; decide)
  rw [templateParts_of_segmented hsegments, templateParts_of_segmented hsegments',
    substitutions_padded houter h.inside]

theorem url?_alike {n n' : Node} (h : Option.Rel Alike (unwrap? n) (unwrap? n')) : url? n' = url? n := by
  unfold url?
  generalize unwrap? n = e, unwrap? n' = e' at h
  cases h with
  | none => rfl
  | @some e e' h =>
    dsimp only
    rw [h.twin.kind]
    by_cases hstring : e.kind = .string
    · rw [if_pos hstring, if_pos hstring, h.twin.word (by rw [hstring]; rfl)]
    · rw [if_neg hstring, if_neg hstring]
      by_cases htemplate : e.kind = .template
      · rw [if_pos htemplate, if_pos htemplate, h.templateParts htemplate]
      · rw [if_neg htemplate, if_neg htemplate]

/-- What an expression is read as, as a URL and as data. -/
structure SameReading (n n' : Node) : Prop where
  url : url? n' = url? n
  value : value n' = value n

theorem Alike.sameReading {n n' : Node} (h : Alike n n') : SameReading n n' where
  url := url?_alike (unwrap?_alike h (firstExpression?_alike h.inside))
  value := h.twin.value (readAlike_of_padded h.inside)

theorem sameReading_parens {n : Node} {start : Nat} {chars : List Char} {role : Option Role} {children : List Node}
    (hcontent : n.isContent = true) (h : PaddedIn .parenthesized (enclosed n) children) :
    SameReading n (.mk .parenthesized role start chars children) where
  url := by
    refine url?_alike (unwrap?_withoutRole ?_)
    rw [← firstExpression?_enclosed hcontent]
    exact firstExpression?_alike h
  value := by rw [value, (readAlike_of_padded h).first, firstValue_enclosed hcontent]

/-- The arguments of a call are read alike, one by one. -/
theorem contents_padded {outer : Kind} {cs cs' : List Node} (h : PaddedIn outer cs cs') :
    List.Forall₂ SameReading (cs.filter Node.isContent) (cs'.filter Node.isContent) := by
  induction h with
  | nil => exact .nil
  | @node _ n n' ns ns' role twin inside rest _ ih =>
    by_cases hn : n.isContent = true
    · rw [List.filter_cons_of_pos hn, List.filter_cons_of_pos (by rwa [twin.isContent])]
      exact .cons (Alike.sameReading ⟨twin, inside⟩) ih
    · rw [List.filter_cons_of_neg hn, List.filter_cons_of_neg (by rwa [twin.isContent])]
      exact ih
  | comment rest ih => exact ih
  | parens position inside rest _ ih =>
    rw [List.filter_cons_of_pos position.1, List.filter_cons_of_pos (isContent_parenthesized _ _ _ _)]
    exact .cons (sameReading_parens position.1 inside) ih

end Literal

/-! ## Requests -/

namespace Request

open Literal (PaddedIn Alike SameReading IsValueIn)

theorem isNone_of_rel {α β : Type} {R : α → β → Prop} {a : Option α} {b : Option β} (h : Option.Rel R a b) :
    b.isNone = a.isNone := by
  cases h <;> rfl

theorem getElem?_rel {α β : Type} {R : α → β → Prop} {as : List α} {bs : List β} (h : List.Forall₂ R as bs) :
    ∀ i : Nat, Option.Rel R as[i]? bs[i]? := by
  induction h with
  | nil => exact fun _ => .none
  | cons hab _ ih =>
    intro i
    cases i with
    | zero => exact .some hab
    | succ i => exact ih i

/-- A node that holds no values has the same parts. -/
theorem child?_alike {n n' : Node} (h : Alike n n')
    (hkind : n.kind ∉ [.arguments, .array, .parenthesized, .substitution, .pair]) (r : Role) :
    Option.Rel Alike (n.child? r) (n'.child? r) :=
  Literal.child_alike (fun _ hm => absurd hm (Literal.not_isValueIn hkind)) h.inside

theorem clientMethod?_padded (client : String) {callee callee' : Node} (h : Alike callee callee') :
    clientMethod? client callee' = clientMethod? client callee := by
  unfold clientMethod?
  rw [h.twin.kind]
  by_cases hmember : callee.kind = .member
  · have hparts := child?_alike h (by rw [hmember]; decide)
    have hobject := hparts .object
    have hproperty := hparts .property
    rw [isNone_of_rel (hparts .optionalChain)]
    generalize callee.child? .object = object, callee'.child? .object = object' at hobject
    generalize callee.child? .property = property, callee'.child? .property = property' at hproperty
    cases hobject with
    | none => rfl
    | @some object object' hobject =>
      have hname : (object'.kind = .identifier ∧ object'.text = client) =
          (object.kind = .identifier ∧ object.text = client) := by
        rw [hobject.twin.kind]
        refine propext (and_congr_right fun hkind => ?_)
        rw [hobject.twin.text (by rw [hkind]; rfl)]
      cases hproperty with
      | none => simp only [Option.bind_eq_bind, Option.bind_some, hname]
      | @some property property' hproperty =>
        by_cases hword : property.kind = .propertyIdentifier
        · have htext : property'.text = property.text := hproperty.twin.text (by rw [hword]; rfl)
          simp only [Option.bind_eq_bind, Option.bind_some, hname, hproperty.twin.kind, htext]
        · simp only [Option.bind_eq_bind, Option.bind_some, hname, hproperty.twin.kind, hword]
          simp
  · simp [hmember]

theorem bodyOf_padded (m : Method) {arguments arguments' : List Node}
    (h : List.Forall₂ SameReading arguments arguments') : bodyOf m arguments' = bodyOf m arguments := by
  have hsecond := getElem?_rel h 1
  unfold bodyOf
  generalize arguments[1]? = a, arguments'[1]? = a' at hsecond
  cases hsecond with
  | none => rfl
  | some hreading => simp only [hreading.value]

theorem ofCall?_padded (client : String) (source : Path) {call call' : Node} (hkind : call.kind = .call)
    (h : Alike call call') : ofCall? client source call' = ofCall? client source call := by
  have hparts := child?_alike h (by rw [hkind]; decide)
  have hfunction := hparts .function
  have harguments := hparts .arguments
  unfold ofCall?
  rw [isNone_of_rel (hparts .optionalChain)]
  generalize call.child? .function = callee, call'.child? .function = callee' at hfunction
  generalize call.child? .arguments = list, call'.child? .arguments = list' at harguments
  cases hfunction with
  | none => rfl
  | @some callee callee' hcallee =>
    cases harguments with
    | none => simp only [Option.bind_eq_bind, Option.bind_some, clientMethod?_padded client hcallee]
    | @some list list' hlist =>
      have hreading : List.Forall₂ SameReading list.contents list'.contents := Literal.contents_padded hlist.inside
      have hbody := fun m => bodyOf_padded m hreading
      have hfirst := getElem?_rel hreading 0
      simp only [Option.bind_eq_bind, Option.bind_some, clientMethod?_padded client hcallee, hlist.twin.kind, hbody]
      generalize list.contents[0]? = first, list'.contents[0]? = first' at hfirst
      cases hfirst with
      | none => rfl
      | some hurl => simp only [Option.bind_some, hurl.url]

theorem made?_padded (client : String) (source : Path) {n n' : Node} (h : Alike n n') :
    made? client source n' = made? client source n := by
  unfold made?
  rw [h.twin.kind]
  by_cases hkind : n.kind = .call
  · rw [if_pos hkind, if_pos hkind, ofCall?_padded client source hkind h]
  · rw [if_neg hkind, if_neg hkind]

theorem made?_withoutRole (client : String) (source : Path) (n : Node) :
    made? client source n.withoutRole = made? client source n := by
  cases n
  rfl

theorem preorder_mk (n : Node) : n.preorder = n :: Node.preorderIn n.children := by
  cases n
  rfl

theorem isNamed_of_isContent {n : Node} (h : n.isContent = true) : n.isNamed = true := by
  rw [Node.isContent, Bool.and_eq_true] at h
  exact h.1

section

variable (client : String) (source : Path)

/-- Parentheses make no request themselves. -/
theorem preorder_parens {n : Node} (hcontent : n.isContent = true) {role : Option Role} {start : Nat}
    {chars : List Char} {children : List Node}
    (hinside : (Node.preorderIn children).filterMap (made? client source) =
      (Node.preorderIn (Literal.enclosed n)).filterMap (made? client source)) :
    (Node.mk .parenthesized role start chars children).preorder.filterMap (made? client source) =
      n.preorder.filterMap (made? client source) := by
  have hnamed : n.withoutRole.isNamed = true :=
    isNamed_of_isContent (by rwa [Literal.isContent_withoutRole])
  have henclosed : Node.preorderIn (Literal.enclosed n) = n.withoutRole.preorder := by
    rw [Literal.enclosed, Node.preorderIn, Node.preorderIn, if_pos hnamed]
    exact List.append_nil _
  have hchildren : n.withoutRole.children = n.children := by
    cases n
    rfl
  calc (Node.mk .parenthesized role start chars children).preorder.filterMap (made? client source)
      = (Node.preorderIn children).filterMap (made? client source) := rfl
    _ = n.withoutRole.preorder.filterMap (made? client source) := by rw [hinside, henclosed]
    _ = n.preorder.filterMap (made? client source) := by
      rw [preorder_mk, preorder_mk, List.filterMap_cons, List.filterMap_cons, made?_withoutRole, hchildren]

/-- Padded children make the same requests. -/
theorem preorderIn_padded {outer : Kind} {cs cs' : List Node} (h : PaddedIn outer cs cs') :
    (Node.preorderIn cs').filterMap (made? client source) =
      (Node.preorderIn cs).filterMap (made? client source) := by
  induction h with
  | nil => rfl
  | @node _ n n' ns ns' role twin inside rest ihinside ihrest =>
    rw [Node.preorderIn, Node.preorderIn, twin.isNamed, List.filterMap_append, List.filterMap_append, ihrest]
    by_cases hn : n.isNamed = true
    · rw [if_pos hn, if_pos hn, preorder_mk, preorder_mk, List.filterMap_cons, List.filterMap_cons, ihinside,
        made?_padded client source ⟨twin, inside⟩]
    · rw [if_neg hn, if_neg hn]
  | comment rest ih => exact ih
  | @parens _ n start chars children ns ns' position inside rest ihinside ihrest =>
    have hparens : (Node.mk .parenthesized n.role start chars children).isNamed = true := rfl
    rw [Node.preorderIn, Node.preorderIn, if_pos hparens, if_pos (isNamed_of_isContent position.1),
      List.filterMap_append, List.filterMap_append, ihrest, preorder_parens client source position.1 ihinside]

end

/-- **Comments and parentheses never matter.**  A tree and one that is padded, as a child of any node, spell the same
URL, have the same value and make the same requests. -/
theorem padding_irrelevant {outer : Kind} {n n' : Node} (h : PaddedIn outer [n] [n']) :
    Literal.url? n' = Literal.url? n ∧ Literal.value n' = Literal.value n ∧
      ∀ (client : String) (source : Path), extract client source n' = extract client source n := by
  cases h with
  | node role twin inside rest =>
    have halike : Alike n n' := ⟨twin, inside⟩
    refine ⟨halike.sameReading.url, halike.sameReading.value, fun client source => ?_⟩
    rw [extract_eq, extract_eq, preorder_mk, preorder_mk, List.filterMap_cons, List.filterMap_cons,
      made?_padded client source halike, preorderIn_padded client source inside]
  | comment rest => cases rest
  | parens position inside rest =>
    refine ⟨(Literal.sameReading_parens position.1 inside).url, (Literal.sameReading_parens position.1 inside).value,
      fun client source => ?_⟩
    rw [extract_eq, extract_eq]
    exact preorder_parens client source position.1 (preorderIn_padded client source inside)

/-- A padded URL and body, as they stand in a script. -/
example : (parse? "axios.post(/**/(`/$\x7b/**/(id)\x7d`), [/**/((x))])").map
    (fun program => (extract "axios" Path.here program).map (·.url)) = some ["/\x7b\x7bid\x7d\x7d"] := by
  decide +kernel

/-- A node without children. -/
def leaf (kind : Kind) (text : String) : Node := .mk kind none 0 text.toList []

/-- Parentheses as they stand in a script. -/
def parens (inside : List Node) : Node :=
  .mk .parenthesized none 0 [] (leaf (.token "(") "(" :: inside ++ [leaf (.token ")") ")"])

/-- A template at the given byte: a slash and one substitution, with these children and this text. -/
def slashTemplate (start : Nat) (text : String) (children : List Node) : Node :=
  .mk .template none start ("`/" ++ text ++ "`").toList
    [.mk .substitution none (start + 2) text.toList children]

/-- A call of the client's method `post`. -/
def postCall (arguments : List Node) : Node :=
  .mk .call none 0 []
    [.mk .member (some .function) 0 []
      [(leaf .identifier "axios").withRole .object, (leaf .propertyIdentifier "post").withRole .property],
     .mk .arguments (some .arguments) 10 [] arguments]

/-- A property with a plain key. -/
def propertyOf (key value : Node) : Node :=
  .mk .pair none 0 [] [key.withRole .key, value.withRole .value]

/-- The arguments of a call with a variable in the URL and one in the body. -/
def bareArguments : List Node :=
  [slashTemplate 11 "$\x7bid\x7d" [leaf .identifier "id"],
   .mk .object none 0 [] [propertyOf (leaf .propertyIdentifier "a") (.mk .array none 0 [] [leaf .identifier "x"])]]

/-- The same arguments with comments and parentheses at all places. -/
def paddedArguments : List Node :=
  [leaf .comment "/**/",
   parens [slashTemplate 16 "$\x7b/**/(id)\x7d" [leaf .comment "/**/", parens [leaf .identifier "id"]]],
   .mk .object none 0 []
    [leaf .comment "/**/",
     propertyOf (leaf .propertyIdentifier "a")
      (parens [.mk .array none 0 []
        [leaf .comment "/**/", parens [leaf .comment "/**/", parens [leaf .identifier "x"]]]])]]

theorem twin_of_same {n n' : Node} (hkind : n'.kind = n.kind) (hchars : n.kind.isWord = true → n'.chars = n.chars)
    (htemplate : n.kind ≠ .template) : Literal.Twin n n' :=
  ⟨hkind, hchars, fun h => absurd h htemplate⟩

theorem segmented_slashTemplate (start : Nat) (text : String) (children : List Node) :
    Literal.Segmented (slashTemplate start text children) [['/'], []] := by
  refine ⟨'/' :: (text.toList ++ ['`']), ?_, ?_⟩
  · simp [slashTemplate, Node.chars]
  · exact .next rfl (.last [])

theorem padded_parens {outer : Kind} {n : Node} (hposition : IsValueIn outer n) {inside ns ns' : List Node}
    (h : PaddedIn .parenthesized [n.withoutRole] inside) (rest : PaddedIn outer ns ns') {role : Option Role}
    (hrole : role = n.role) :
    PaddedIn outer (n :: ns)
      (.mk .parenthesized role 0 [] (leaf (.token "(") "(" :: inside ++ [leaf (.token ")") ")"]) :: ns') := by
  have htoken : ∀ t : String, PaddedIn .parenthesized [.mk (.token t) none 0 t.toList []] [leaf (.token t) t] :=
    fun t => .node rfl (twin_of_same rfl (fun _ => rfl) (by simp [Node.kind])) .nil .nil
  rw [hrole]
  exact .parens hposition ((htoken "(").append (h.append (htoken ")"))) rest

theorem padded_arguments : PaddedIn .arguments bareArguments paddedArguments := by
  have hleaf : ∀ {outer kind text}, kind ≠ Kind.template → PaddedIn outer [leaf kind text] [leaf kind text] :=
    fun hkind => .node rfl (twin_of_same rfl (fun _ => rfl) hkind) .nil .nil
  have hurl : PaddedIn .template [.mk .substitution none 13 "$\x7bid\x7d".toList [leaf .identifier "id"]]
      [.mk .substitution none 18 "$\x7b/**/(id)\x7d".toList [leaf .comment "/**/", parens [leaf .identifier "id"]]] :=
    .node rfl (twin_of_same rfl (by decide) (by decide))
      (.comment (padded_parens ⟨rfl, .inl (by decide)⟩ (hleaf (by decide)) .nil rfl)) .nil
  have hbody : PaddedIn .parenthesized [.mk .array none 0 [] [leaf .identifier "x"]] [.mk .array none 0 []
      [leaf .comment "/**/", parens [leaf .comment "/**/", parens [leaf .identifier "x"]]]] :=
    .node rfl (twin_of_same rfl (by decide) (by decide)) (.comment (padded_parens ⟨rfl, .inl (by decide)⟩
      (.comment (padded_parens ⟨rfl, .inl (by decide)⟩ (hleaf (by decide)) .nil rfl)) .nil rfl)) .nil
  refine .comment (padded_parens ?_ ?_ ?_ rfl)
  · exact ⟨rfl, .inl (by decide)⟩
  · refine .node rfl ⟨rfl, by decide, fun _ => ⟨[['/'], []], ?_, ?_⟩⟩ hurl .nil
    · exact segmented_slashTemplate 11 _ _
    · exact segmented_slashTemplate 16 _ _
  · refine .node rfl (twin_of_same rfl (by decide) (by decide)) (.comment ?_) .nil
    refine .node rfl (twin_of_same rfl (by decide) (by decide)) ?_ .nil
    refine .node rfl (twin_of_same rfl (fun _ => rfl) (by decide)) .nil (padded_parens ?_ ?_ .nil rfl)
    · exact ⟨rfl, .inr ⟨rfl, rfl⟩⟩
    · exact hbody

theorem padding_irrelevant_postCall :
    PaddedIn .program [postCall bareArguments] [postCall paddedArguments] ∧
    (extract "axios" ⟨.root, ["a.js"]⟩ (postCall paddedArguments)).length = 1 ∧
    Literal.value (postCall paddedArguments) = Literal.value (postCall bareArguments) ∧
    extract "axios" ⟨.root, ["a.js"]⟩ (postCall paddedArguments) =
      extract "axios" ⟨.root, ["a.js"]⟩ (postCall bareArguments) := by
  have hpadded : PaddedIn .program [postCall bareArguments] [postCall paddedArguments] := by
    refine .node rfl (twin_of_same rfl (by decide) (by decide)) (.node rfl (twin_of_same rfl (by decide) (by decide)) ?_
      (.node rfl (twin_of_same rfl (by decide) (by decide)) padded_arguments .nil)) .nil
    exact .node rfl (twin_of_same rfl (fun _ => rfl) (by decide)) .nil
      (.node rfl (twin_of_same rfl (fun _ => rfl) (by decide)) .nil .nil)
  have hcalls : calls (postCall paddedArguments) = [postCall paddedArguments] := by
    rw [calls_eq]
    rfl
  have hlength : (extract "axios" ⟨.root, ["a.js"]⟩ (postCall paddedArguments)).length = 1 := by
    rw [extract, hcalls]
    rfl
  have h := padding_irrelevant hpadded
  exact ⟨hpadded, hlength, h.2.1, h.2.2 _ _⟩

end Request

end RequestAtlas
