import RequestAtlas.Proofs.Extracted
import RequestAtlas.Proofs.Json.Grammar
import RequestAtlas.Proofs.Literal.Numerals
import RequestAtlas.Proofs.Results
/-!
# Reconstructed values are strict

What is read from a script can always be sent.  `tryValue` reads an expression and fails where a number literal is
refused, which is the only way to fail; it answers the value wherever no literal is (`tryValue_eq`).  At every depth of
that value all doubles are finite and dictionaries have distinct keys (`strict_value`), so its text is JSON by the
standard.  Main statement `reconstructed_strict`, which also says which requests send nothing.
-/

namespace RequestAtlas

namespace Literal

/-! ## Reading that may fail -/

open Syntax

mutual

/-- The value of an expression, unless a number literal that is read for it is refused. -/
def tryValue : Node → Except NumeralError Value
  | .mk kind role start chars children =>
    match kind with
    | .parenthesized => tryFirst children
    | .number => tryNumber chars
    | .object => return .dict (← tryProperties [] children)
    | .array => return .list (← tryElements false children)
    | _ => return value (.mk kind role start chars children)

def tryFirst : List Node → Except NumeralError Value
  | [] => return .null
  | c :: cs => if c.isContent then tryValue c else tryFirst cs

def tryProperty : List Node → Except NumeralError Value
  | [] => return .null
  | c :: cs => if c.role == some .value then tryValue c else tryProperty cs

def tryProperties (entries : List (String × Value)) : List Node → Except NumeralError (List (String × Value))
  | [] => return entries
  | .mk kind _ _ chars parts :: rest =>
    match kind with
    | .pair => do tryProperties (Value.put entries (propertyName parts) (← tryProperty parts)) rest
    | .shorthand =>
      let name := String.ofList chars
      tryProperties (Value.put entries name (.string (placeholder name))) rest
    | _ => tryProperties entries rest

def tryElements (filled : Bool) : List Node → Except NumeralError (List Value)
  | [] => return []
  | c :: cs =>
    if c.kind = .token "," then
      if filled then tryElements false cs else return .null :: (← tryElements false cs)
    else if c.isContent then return (← tryValue c) :: (← tryElements true cs)
    else tryElements filled cs

end

/-- No number literal among some nodes is refused. -/
def Accepted (ns : List Node) : Prop :=
  ∀ m ∈ Node.preorderIn ns, m.kind = .number → ∃ x, parseNumber (String.ofList m.chars) = .ok x

theorem Accepted.tail {n : Node} {ns : List Node} (h : Accepted (n :: ns)) : Accepted ns := by
  intro m hm
  refine h m ?_
  rw [Node.preorderIn]
  exact List.mem_append_right _ hm

theorem Accepted.children {kind : Kind} {role : Option Role} {start : Nat} {chars : List Char} {children ns : List Node}
    (h : Accepted (.mk kind role start chars children :: ns)) (hkind : kind.isNamed = true) : Accepted children := by
  have hnamed : (Node.mk kind role start chars children).isNamed = true := hkind
  intro m hm
  refine h m ?_
  rw [Node.preorderIn, if_pos hnamed, Node.preorder]
  exact List.mem_append_left _ (List.mem_cons_of_mem _ hm)

theorem tryNumber_eq {chars : List Char} (h : ∃ x, parseNumber (String.ofList chars) = .ok x) :
    tryNumber chars = .ok (numberValue chars) := by
  obtain ⟨x, hx⟩ := h
  rw [numberValue, tryNumber, hx]
  cases x with
  | none => rfl
  | some n => cases n <;> rfl

mutual

/-- **Where no literal is refused, reading answers the value.** -/
theorem tryValue_eq : ∀ (n : Node) {ns : List Node}, Accepted (n :: ns) → tryValue n = .ok (value n)
  | .mk kind role start chars children, ns, h => by
    unfold tryValue
    split
    · rw [tryFirst_eq children (h.children rfl), value]
    · have hnamed : (Node.mk .number role start chars children).isNamed = true := rfl
      rw [value]
      refine tryNumber_eq (h (.mk .number role start chars children) ?_ rfl)
      rw [Node.preorderIn, if_pos hnamed, Node.preorder]
      exact List.mem_append_left _ List.mem_cons_self
    · rw [tryProperties_eq children [] (h.children rfl), value]
      rfl
    · rw [tryElements_eq children false (h.children rfl), value]
      rfl
    · rfl

theorem tryFirst_eq : ∀ ns : List Node, Accepted ns → tryFirst ns = .ok (firstValue ns)
  | [], _ => by rw [tryFirst, firstValue]; rfl
  | n :: ns, h => by
    rw [tryFirst, firstValue]
    by_cases hn : n.isContent = true
    · rw [if_pos hn, if_pos hn, tryValue_eq n h]
    · rw [if_neg hn, if_neg hn, tryFirst_eq ns h.tail]

theorem tryProperty_eq : ∀ ns : List Node, Accepted ns → tryProperty ns = .ok (propertyValue ns)
  | [], _ => by rw [tryProperty, propertyValue]; rfl
  | n :: ns, h => by
    rw [tryProperty, propertyValue]
    by_cases hn : (n.role == some .value) = true
    · rw [if_pos hn, if_pos hn, tryValue_eq n h]
    · rw [if_neg hn, if_neg hn, tryProperty_eq ns h.tail]

theorem tryProperties_eq : ∀ (ns : List Node) (es : List (String × Value)), Accepted ns →
    tryProperties es ns = .ok (properties es ns)
  | [], es, _ => by rw [tryProperties, properties]; rfl
  | .mk kind role start chars parts :: ns, es, h => by
    unfold tryProperties properties
    cases kind
    case pair =>
      rw [tryProperty_eq parts (h.children rfl)]
      exact tryProperties_eq ns _ h.tail
    case shorthand => exact tryProperties_eq ns _ h.tail
    all_goals exact tryProperties_eq ns es h.tail

theorem tryElements_eq : ∀ (ns : List Node) (filled : Bool), Accepted ns →
    tryElements filled ns = .ok (elements filled ns)
  | [], filled, _ => by rw [tryElements, elements]; rfl
  | n :: ns, filled, h => by
    rw [tryElements, elements]
    by_cases hcomma : n.kind = .token ","
    · rw [if_pos hcomma, if_pos hcomma, tryElements_eq ns false h.tail]
      cases filled <;> rfl
    · rw [if_neg hcomma, if_neg hcomma]
      by_cases hn : n.isContent = true
      · rw [if_pos hn, if_pos hn, tryValue_eq n h, tryElements_eq ns true h.tail]
        rfl
      · rw [if_neg hn, if_neg hn, tryElements_eq ns filled h.tail]

end

end Literal

/-! ## Values -/

namespace Value

/-- A value that strict JSON has: all doubles are finite, and no dictionary has a key twice. -/
structure Strict (v : Value) : Prop where
  finite : v.isStrict = true
  keys : v.distinctKeys = true

theorem strict_string (s : String) : (string s).Strict := ⟨rfl, rfl⟩

theorem strict_list {vs : List Value} (h : ∀ v ∈ vs, v.Strict) : (list vs).Strict :=
  ⟨areStrict_iff.2 fun v hv => (h v hv).finite, distinctKeysList_iff.2 fun v hv => (h v hv).keys⟩

/-- Entries that a strict dictionary can have. -/
structure StrictEntries (es : List (String × Value)) : Prop where
  nodup : (es.map (·.1)).Nodup
  strict : ∀ e ∈ es, e.2.Strict

theorem strictEntries_nil : StrictEntries [] := ⟨List.nodup_nil, by simp⟩

theorem StrictEntries.dict {es : List (String × Value)} (h : StrictEntries es) : (dict es).Strict := by
  refine ⟨entriesStrict_iff.2 fun e he => (h.strict e he).finite, ?_⟩
  rw [distinctKeys, Bool.and_eq_true, decide_eq_true_eq]
  exact ⟨h.nodup, distinctKeysEntries_iff.2 fun e he => (h.strict e he).keys⟩

/-- Setting a key keeps keys distinct. -/
theorem StrictEntries.put {es : List (String × Value)} (h : StrictEntries es) (k : String) {v : Value}
    (hv : v.Strict) : StrictEntries (put es k v) := by
  cases hget : get? es k with
  | none =>
    have hnew := get?_eq_none_iff.1 hget
    rw [put_of_notMem v hnew]
    refine ⟨?_, ?_⟩
    · rw [List.map_append, List.map_singleton]
      exact List.nodup_append.2 ⟨h.nodup, by simp, fun a ha b hb => by
        rw [List.mem_singleton.1 hb]
        rintro rfl
        exact hnew ha⟩
    · intro e he
      rcases List.mem_append.1 he with he | he
      · exact h.strict e he
      · rw [List.mem_singleton.1 he]
        exact hv
  | some w =>
    obtain ⟨front, back, rfl, hfront⟩ := exists_of_get? hget
    rw [put_append_cons w v back hfront]
    have hnodup := h.nodup
    rw [List.map_append, List.map_cons] at hnodup
    refine ⟨by rwa [List.map_append, List.map_cons], ?_⟩
    intro e he
    rcases List.mem_append.1 he with he | he
    · exact h.strict e (List.mem_append_left _ he)
    · rcases List.mem_cons.1 he with rfl | he
      · exact hv
      · exact h.strict e (List.mem_append_right _ (List.mem_cons_of_mem _ he))

end Value

namespace Literal

open Syntax

theorem strict_unknownValue : unknownValue.Strict := Value.strict_string _

/-- A literal too large for a double is nothing, so no infinity is left. -/
theorem strict_tryNumber {chars : List Char} {v : Value} (h : tryNumber chars = .ok v) : v.Strict := by
  obtain ⟨number?, _, hv⟩ := Results.bind_eq_ok_iff.1 h
  rcases number? with _ | n | x
  · cases hv
    exact strict_unknownValue
  · cases hv
    exact ⟨rfl, rfl⟩
  · cases hv
    by_cases hfinite : x.isFinite = true
    · rw [if_pos hfinite]
      exact ⟨hfinite, rfl⟩
    · rw [if_neg hfinite]
      exact ⟨rfl, rfl⟩

theorem strict_numberValue (chars : List Char) : (numberValue chars).Strict := by
  unfold numberValue
  split
  · next h => exact strict_tryNumber h
  · exact strict_unknownValue

mutual

/-- **The value of every expression is strict.** -/
theorem strict_value : ∀ n : Node, (value n).Strict
  | .mk kind role start chars children => by
    unfold value
    split
    · exact strict_firstValue children
    · exact Value.strict_string _
    · exact strict_numberValue chars
    · exact ⟨rfl, rfl⟩
    · exact ⟨rfl, rfl⟩
    · exact ⟨rfl, rfl⟩
    · exact Value.strict_string _
    · exact Value.strict_string _
    · exact (strict_properties children Value.strictEntries_nil).dict
    · exact Value.strict_list (strict_elements children false)
    · exact strict_unknownValue

theorem strict_firstValue : ∀ ns : List Node, (firstValue ns).Strict
  | [] => ⟨rfl, rfl⟩
  | n :: ns => by
    unfold firstValue
    split
    · exact strict_value n
    · exact strict_firstValue ns

theorem strict_propertyValue : ∀ ns : List Node, (propertyValue ns).Strict
  | [] => ⟨rfl, rfl⟩
  | n :: ns => by
    unfold propertyValue
    split
    · exact strict_value n
    · exact strict_propertyValue ns

theorem strict_properties : ∀ (ns : List Node) {es : List (String × Value)}, Value.StrictEntries es →
    Value.StrictEntries (properties es ns)
  | [], _, h => h
  | .mk kind role start chars parts :: ns, es, h => by
    unfold properties
    split
    · exact strict_properties ns (h.put _ (strict_propertyValue parts))
    · exact strict_properties ns (h.put _ (Value.strict_string _))
    · exact strict_properties ns h

theorem strict_elements : ∀ (ns : List Node) (filled : Bool), ∀ v ∈ elements filled ns, v.Strict
  | [], _ => by simp [elements]
  | n :: ns, filled => by
    unfold elements
    split
    · split
      · exact strict_elements ns false
      · exact List.forall_mem_cons.2 ⟨⟨rfl, rfl⟩, strict_elements ns false⟩
    · split
      · exact List.forall_mem_cons.2 ⟨strict_value n, strict_elements ns true⟩
      · exact strict_elements ns filled

end

end Literal

/-! ## Bodies -/

namespace Request

open Syntax

theorem strict_bodyOf (m : Method) (arguments : List Node) : (bodyOf m arguments).Strict := by
  unfold bodyOf
  split
  · split
    · rename_i a _
      split
      · exact Value.strict_string _
      · exact Literal.strict_value a
    · exact Value.strict_string _
  · exact ⟨rfl, rfl⟩

/-- Only a method that sends nothing has no body: a body that is not known has a placeholder. -/
theorem bodyOf_eq_null_iff (m : Method) (arguments : List Node) :
    bodyOf m arguments = .null ↔ m ∈ [.get, .delete, .head, .options] := by
  constructor
  · intro h
    have hbody : m.hasBody = false := by
      rw [← Bool.not_eq_true]
      intro hm
      rw [bodyOf, if_pos hm] at h
      split at h
      · split at h
        · cases h
        · rename_i hne
          exact hne h
      · cases h
    revert hbody
    cases m <;> decide
  · exact (sends_bodyOf m arguments).nothing

/-- The body of an extracted request is that of its call. -/
theorem body_of_mem_extract {client : String} {source : Path} {program : Node} {r : Request}
    (h : r ∈ extract client source program) : ∃ arguments, r.body = bodyOf r.method arguments := by
  obtain ⟨call, hcall, hr⟩ := List.mem_filterMap.1 h
  have hkind : call.kind = .call := by
    rw [calls_eq, List.mem_filter] at hcall
    simpa using hcall.2
  obtain ⟨list, _, _, _, hbody, _⟩ := (ofCall?_eq_some_iff hkind).1 hr
  exact ⟨list.contents, hbody⟩

/-- **Reconstructed values are strict JSON.**  Where number nodes carry number literals, reading an expression answers a
value; this value, and the body of every request, is strict, so what is rendered of it is JSON text; and exactly the
methods without a body send nothing. -/
theorem reconstructed_strict (n : Node) (client : String) (source : Path)
    (hnumerals : ∀ m ∈ n.preorder, m.kind = .number → Literal.IsNumeral m.chars) :
    Literal.tryValue n = .ok (Literal.value n) ∧ (Literal.value n).Strict ∧
    (∀ text, (Literal.value n).render = .ok text → Json.IsText text.toList) ∧
    ∀ r ∈ extract client source n, r.body.Strict ∧ (∀ text, r.body.render = .ok text → Json.IsText text.toList) ∧
      (r.body = .null ↔ r.method ∈ [.get, .delete, .head, .options]) := by
  have haccepted : Literal.Accepted [n] := by
    intro m hm hkind
    rw [Node.preorderIn_eq, List.mem_flatMap] at hm
    obtain ⟨n', hn', hm⟩ := hm
    rw [List.mem_singleton.1 (List.mem_of_mem_filter hn')] at hm
    exact Literal.parseNumber_of_isNumeral (hnumerals m hm hkind)
  have hvalue := Literal.strict_value n
  refine ⟨Literal.tryValue_eq n haccepted, hvalue, fun text => Json.isText_of_render hvalue.finite, ?_⟩
  intro r hr
  obtain ⟨arguments, hbody⟩ := body_of_mem_extract hr
  have hstrict : r.body.Strict := by
    rw [hbody]
    exact strict_bodyOf r.method arguments
  refine ⟨hstrict, fun text => Json.isText_of_render hstrict.finite, ?_⟩
  rw [hbody]
  exact bodyOf_eq_null_iff r.method arguments

/-- A call that sends numbers of all spellings, one of them beyond all doubles. -/
def numbersCall : Node :=
  let number (text : String) : Node := .mk .number none 0 text.toList []
  .mk .call none 0 []
    [.mk .member (some .function) 0 []
      [.mk .identifier (some .object) 0 "axios".toList [],
       .mk .propertyIdentifier (some .property) 0 "post".toList []],
     .mk .arguments (some .arguments) 0 []
      [.mk .string none 0 "'/a'".toList [],
       .mk .array none 0 []
        [number "0xF_F", number "1_0.5e+400", number "017", number ".5", number "9n"]]]

theorem numerals_numbersCall : ∀ m ∈ numbersCall.preorder, m.kind = .number → Literal.IsNumeral m.chars := by
  have hdigits : ∀ {base : Nat} {cs : List Char},
      (cs.all fun c => (Literal.digitIn? base c).isSome || c == '_') = true →
      (cs.any fun c => (Literal.digitIn? base c).isSome) = true → Literal.Digits base cs :=
    fun h h' => ⟨by simpa using h, by simpa using h'⟩
  have hhex : Literal.IsNumeral ['0', 'x', 'F', '_', 'F'] :=
    @Literal.IsNumeral.announced 'x' 16 ['F', '_', 'F'] [] (by decide) (hdigits (by decide) (by decide)) (.inl rfl)
  have hlarge : Literal.IsNumeral ['1', '_', '0', '.', '5', 'e', '+', '4', '0', '0'] :=
    @Literal.IsNumeral.decimal ['1', '_', '0'] ['.'] ['5'] ['e', '+', '4', '0', '0'] []
      (hdigits (by decide) (by decide)) (.inl rfl)
      (@Literal.ExponentPart.some 'e' ['+'] ['4', '0', '0'] (.inl rfl) (.inr (.inl rfl))
        (hdigits (by decide) (by decide))) (.inl rfl)
  have hoctal : Literal.IsNumeral ['0', '1', '7'] :=
    @Literal.IsNumeral.decimal ['0', '1', '7'] [] [] [] [] (hdigits (by decide) (by decide)) (.inr ⟨rfl, rfl⟩) .none
      (.inl rfl)
  have hsmall : Literal.IsNumeral ['.', '5'] :=
    @Literal.IsNumeral.decimal [] ['.'] ['5'] [] [] (hdigits (by decide) (by decide)) (.inl rfl) .none (.inl rfl)
  have hbig : Literal.IsNumeral ['9', 'n'] :=
    @Literal.IsNumeral.decimal ['9'] [] [] [] ['n'] (hdigits (by decide) (by decide)) (.inr ⟨rfl, rfl⟩) .none
      (.inr rfl)
  simp only [numbersCall, Node.preorder, Node.preorderIn, Node.isNamed, Node.kind, Kind.isNamed, if_true,
    List.append_nil, List.cons_append, List.nil_append, List.forall_mem_cons]
  simp [Node.chars, hhex, hlarge, hoctal, hsmall, hbig]

theorem reconstructed_strict_numbersCall :
    (∀ m ∈ numbersCall.preorder, m.kind = .number → Literal.IsNumeral m.chars) ∧
    (extract "axios" ⟨.root, ["a.js"]⟩ numbersCall).length = 1 ∧
    Literal.tryValue numbersCall = .ok (Literal.value numbersCall) ∧
    ∀ r ∈ extract "axios" ⟨.root, ["a.js"]⟩ numbersCall, r.body.Strict ∧
      (∀ text, r.body.render = .ok text → Json.IsText text.toList) ∧
      (r.body = .null ↔ r.method ∈ [.get, .delete, .head, .options]) := by
  have hcalls : calls numbersCall = [numbersCall] := by
    rw [calls_eq]
    rfl
  have hlength : (extract "axios" ⟨.root, ["a.js"]⟩ numbersCall).length = 1 := by
    rw [extract, hcalls]
    rfl
  have h := reconstructed_strict numbersCall "axios" ⟨.root, ["a.js"]⟩ numerals_numbersCall
  exact ⟨numerals_numbersCall, hlength, h.1, h.2.2.2⟩

end Request

end RequestAtlas
