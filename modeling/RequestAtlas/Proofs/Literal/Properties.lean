import RequestAtlas.Proofs.Literal.Padding
import RequestAtlas.Proofs.Literal.Strict
/-!
# The properties of an object literal

A property names its key by a word, by a string or by standing alone (`Names`); a pair with any other key, computed, a
number or private, names none (`Unnamed`).  Reading an object literal writes one entry after the other, and the pairs
that name no key all write to `unnamedKey`.  Main statement `value_object`: a name has the value of the last property
that names it, whatever pairs without a name stand beside it, unless it is `unnamedKey` itself; that one has the value
of the last property that names it or names none.
-/

namespace RequestAtlas.Literal

open RequestAtlas.Syntax

/-! ## Names -/

/-- What a pair binds its key to: the value of its value part, nothing if it has none. -/
def boundValue (m : Node) : Value := ((m.child? .value).map value).getD .null

/-- The property `m` names the key `k` and binds it to `v`. -/
inductive Names (m : Node) : String → Value → Prop
  | word {key : Node} (hkind : m.kind = .pair) (hkey : m.child? .key = some key)
      (hword : key.kind = .propertyIdentifier) : Names m key.text (boundValue m)
  | string {key : Node} (hkind : m.kind = .pair) (hkey : m.child? .key = some key) (hstring : key.kind = .string) :
      Names m (stringValue key.chars) (boundValue m)
  | alone (hkind : m.kind = .shorthand) : Names m m.text (.string (placeholder m.text))

/-- The pair `m` has a key that is neither a word nor a string, and binds it to `v`. -/
structure Unnamed (m : Node) (v : Value) : Prop where
  kind : m.kind = .pair
  key : ∀ key, m.child? .key = some key → key.kind ≠ .propertyIdentifier ∧ key.kind ≠ .string
  value : boundValue m = v

theorem Unnamed.not_names {m : Node} {v : Value} (h : Unnamed m v) (k : String) (w : Value) : ¬ Names m k w := by
  intro hnames
  cases hnames with
  | word _ hkey hword => exact (h.key _ hkey).1 hword
  | string _ hkey hstring => exact (h.key _ hkey).2 hstring
  | alone hkind =>
    rw [h.kind] at hkind
    cases hkind

/-- The property `m` gives `v` to the key `k`: it names the key, or names none and the key is the one for those. -/
def Gives (k : String) (m : Node) (v : Value) : Prop := Names m k v ∨ k = unnamedKey ∧ Unnamed m v

/-- `v` comes from the last node of which `P` holds. -/
def Last (P : Node → Value → Prop) (ms : List Node) (v : Value) : Prop :=
  ∃ front m back, ms = front ++ m :: back ∧ P m v ∧ ∀ m' ∈ back, ∀ w, ¬ P m' w

theorem last_cons {P : Node → Value → Prop} {m : Node} {ms : List Node} {v : Value} :
    Last P (m :: ms) v ↔ Last P ms v ∨ P m v ∧ ∀ m' ∈ ms, ∀ w, ¬ P m' w := by
  constructor
  · rintro ⟨front, m', back, heq, hm', hback⟩
    cases front with
    | nil =>
      obtain ⟨rfl, rfl⟩ := List.cons.inj heq
      exact .inr ⟨hm', hback⟩
    | cons f front => exact .inl ⟨front, m', back, (List.cons.inj heq).2, hm', hback⟩
  · rintro (⟨front, m', back, rfl, hm', hback⟩ | ⟨hm, hms⟩)
    · exact ⟨m :: front, m', back, rfl, hm', hback⟩
    · exact ⟨[], m, ms, rfl, hm, hms⟩

theorem last_congr {P Q : Node → Value → Prop} (h : ∀ m v, P m v ↔ Q m v) (ms : List Node) (v : Value) :
    Last P ms v ↔ Last Q ms v := by
  simp only [Last, h]

/-- Where some node has the property, there is a last one. -/
theorem exists_last {P : Node → Value → Prop} : ∀ {ms : List Node}, (∃ m ∈ ms, ∃ v, P m v) → ∃ v, Last P ms v
  | [], h => by simp at h
  | m :: ms, h => by
    by_cases hms : ∃ m' ∈ ms, ∃ v, P m' v
    · obtain ⟨v, hv⟩ := exists_last hms
      exact ⟨v, last_cons.2 (.inl hv)⟩
    · push Not at hms
      obtain ⟨m', hm', v, hv⟩ := h
      rcases List.mem_cons.1 hm' with rfl | hmem
      · exact ⟨v, last_cons.2 (.inr ⟨hv, hms⟩)⟩
      · exact absurd hv (hms m' hmem v)

/-! ## What each property writes -/

/-- The entry that a property writes, if it writes one. -/
def written? (m : Node) : Option (String × Value) :=
  match m.kind with
  | .pair => some (propertyName m.children, propertyValue m.children)
  | .shorthand => some (m.text, .string (placeholder m.text))
  | _ => none

theorem propertyValue_eq (parts : List Node) :
    propertyValue parts = ((parts.find? (·.role == some .value)).map value).getD .null := by
  induction parts with
  | nil =>
    rw [propertyValue]
    rfl
  | cons c cs ih =>
    rw [propertyValue, List.find?_cons]
    cases hc : c.role == some .value with
    | true => rfl
    | false => exact ih

theorem properties_none {m : Node} (h : written? m = none) (es : List (String × Value)) (ms : List Node) :
    properties es (m :: ms) = properties es ms := by
  obtain ⟨kind, role, start, chars, parts⟩ := m
  cases kind
  case pair | shorthand => simp [written?, Node.kind] at h
  all_goals simp [properties]

theorem properties_some {m : Node} {k : String} {v : Value} (h : written? m = some (k, v))
    (es : List (String × Value)) (ms : List Node) : properties es (m :: ms) = properties (Value.put es k v) ms := by
  obtain ⟨kind, role, start, chars, parts⟩ := m
  cases kind
  case pair | shorthand =>
    simp only [written?, Node.kind, Option.some.injEq, Prod.mk.injEq] at h
    obtain ⟨rfl, rfl⟩ := h
    rw [properties]
    rfl
  all_goals simp [written?, Node.kind] at h

/-- Writing the entries of some properties into `es`: a key has the value that the last of them writes to it, or the one
it had. -/
theorem get?_properties {k : String} {v : Value} : ∀ {ms : List Node} {es : List (String × Value)},
    Value.get? (properties es ms) k = some v ↔
      Last (fun m w => written? m = some (k, w)) ms v ∨
        (∀ m ∈ ms, ∀ w, written? m ≠ some (k, w)) ∧ Value.get? es k = some v
  | [], es => by
    rw [properties]
    simp [Last]
  | m :: ms, es => by
    cases hm : written? m with
    | none =>
      rw [properties_none hm, get?_properties, last_cons]
      simp [hm]
    | some e =>
      obtain ⟨k', w⟩ := e
      rw [properties_some hm, get?_properties, last_cons]
      by_cases hk : k' = k
      · subst hk
        rw [Value.get?_put_self]
        simp [hm, and_comm]
      · rw [Value.get?_put_of_ne hk]
        simp [hm, hk]

/-- The entry of a pair, by the kind of its key. -/
theorem propertyName_eq {parts : List Node} {k : String} : propertyName parts = k ↔
    (∃ key, parts.find? (·.role == some .key) = some key ∧ key.kind = .propertyIdentifier ∧ key.text = k) ∨
    (∃ key, parts.find? (·.role == some .key) = some key ∧ key.kind = .string ∧ stringValue key.chars = k) ∨
    (∀ key, parts.find? (·.role == some .key) = some key → key.kind ≠ .propertyIdentifier ∧ key.kind ≠ .string) ∧
      k = unnamedKey := by
  unfold propertyName
  cases parts.find? (·.role == some .key) with
  | none => simp [eq_comm]
  | some key =>
    by_cases hword : key.kind = .propertyIdentifier
    · simp [hword]
    · by_cases hstring : key.kind = .string
      · simp [hstring]
      · simp [hword, hstring, @eq_comm _ unnamedKey]

theorem written?_eq_some_iff {m : Node} {k : String} {v : Value} : written? m = some (k, v) ↔ Gives k m v := by
  have hbound : propertyValue m.children = boundValue m := propertyValue_eq m.children
  constructor
  · intro h
    cases hkind : m.kind with
    | pair =>
      simp only [written?, hkind, Option.some.injEq, Prod.mk.injEq] at h
      obtain ⟨hname, rfl⟩ := h
      rw [hbound]
      rcases propertyName_eq.1 hname with ⟨key, hkey, hword, rfl⟩ | ⟨key, hkey, hstring, rfl⟩ | ⟨hother, rfl⟩
      · exact .inl (.word hkind hkey hword)
      · exact .inl (.string hkind hkey hstring)
      · exact .inr ⟨rfl, hkind, hother, rfl⟩
    | shorthand =>
      simp only [written?, hkind, Option.some.injEq, Prod.mk.injEq] at h
      obtain ⟨rfl, rfl⟩ := h
      exact .inl (.alone hkind)
    | _ => simp [written?, hkind] at h
  · rintro (hnames | ⟨rfl, hkind, hother, rfl⟩)
    · cases hnames with
      | word hkind hkey hword =>
        simp only [written?, hkind, hbound, propertyName_eq.2 (.inl ⟨_, hkey, hword, rfl⟩)]
      | string hkind hkey hstring =>
        simp only [written?, hkind, hbound, propertyName_eq.2 (.inr (.inl ⟨_, hkey, hstring, rfl⟩))]
      | alone hkind => simp only [written?, hkind]
    · simp only [written?, hkind, hbound, propertyName_eq.2 (.inr (.inr ⟨hother, rfl⟩))]

/-! ## Objects -/

/-- **A named property keeps its value.**  The value of an object literal is a dictionary with distinct keys in which
every key that a property names is found.  A key other than `unnamedKey` has the value of the last property that names
it; the pairs that name no key write to `unnamedKey` as well. -/
theorem value_object (n : Node) (hkind : n.kind = .object) :
    ∃ entries, value n = .dict entries ∧ (entries.map (·.1)).Nodup ∧
      (∀ k, (∃ m ∈ n.children, ∃ v, Names m k v) → ∃ v, Value.get? entries k = some v) ∧
      (∀ k v, k ≠ unnamedKey →
        (Value.get? entries k = some v ↔ Last (fun m w => Names m k w) n.children v)) ∧
      ∀ v, Value.get? entries unnamedKey = some v ↔
        Last (fun m w => Names m unnamedKey w ∨ Unnamed m w) n.children v := by
  obtain ⟨kind, role, start, chars, children⟩ := n
  obtain rfl : kind = .object := hkind
  have hget : ∀ k v, Value.get? (properties [] children) k = some v ↔ Last (Gives k) children v := by
    intro k v
    rw [get?_properties, last_congr fun m w => written?_eq_some_iff]
    simp [Value.get?]
  refine ⟨properties [] children, by rw [value], (strict_properties children Value.strictEntries_nil).nodup, ?_, ?_, ?_⟩
  · rintro k ⟨m, hm, w, hw⟩
    obtain ⟨v, hv⟩ := exists_last (P := Gives k) ⟨m, hm, w, .inl hw⟩
    exact ⟨v, (hget k v).2 hv⟩
  · intro k v hk
    rw [hget]
    exact last_congr (fun m w => or_iff_left fun h => hk h.1) children v
  · intro v
    rw [hget]
    exact last_congr (fun m w => or_congr_right (and_iff_right rfl)) children v

section
open Request (leaf propertyOf)

/-- A key in brackets. -/
def computedKey : Node := leaf (.construct "computed_property_name") "[x]"

theorem unnamed_computed (v : Node) : Unnamed (propertyOf computedKey v) (boundValue (propertyOf computedKey v)) where
  kind := rfl
  key key hkey := by
    cases hkey
    exact ⟨nofun, nofun⟩
  value := rfl

/-- An object literal that names `a` twice, with a pair without a name behind it. -/
def repeatedName : Node :=
  .mk .object none 0 []
    [propertyOf (leaf .propertyIdentifier "a") (leaf .trueLiteral "true"),
     propertyOf (leaf .string "'a'") (leaf .falseLiteral "false"),
     propertyOf computedKey (leaf .trueLiteral "true")]

theorem value_object_repeatedName : repeatedName.kind = .object ∧
    ∃ entries, value repeatedName = .dict entries ∧ Value.get? entries "a" = some (.bool false) := by
  obtain ⟨entries, hvalue, _, _, hnamed, _⟩ := value_object repeatedName rfl
  refine ⟨rfl, entries, hvalue, (hnamed "a" _ (by decide)).2 ?_⟩
  refine ⟨[_], _, [propertyOf computedKey (leaf .trueLiteral "true")], rfl, ?_, ?_⟩
  · exact @Names.string _ (.mk .string (some .key) 0 "'a'".toList []) rfl rfl rfl
  · intro m hm
    rw [List.mem_singleton.1 hm]
    exact (unnamed_computed _).not_names "a"

/-- An object literal that names `unnamedKey`, with a pair without a name behind it. -/
def namedUnnamed : Node :=
  .mk .object none 0 []
    [propertyOf (leaf .propertyIdentifier "key") (leaf .trueLiteral "true"),
     propertyOf computedKey (leaf .falseLiteral "false")]

/-- The pair without a name takes the entry of the property that is named like it. -/
theorem value_object_namedUnnamed : ¬ ∀ n k v, n.kind = .object → Last (fun m w => Names m k w) n.children v →
    ∃ entries, value n = .dict entries ∧ Value.get? entries k = some v := by
  intro h
  have hlast : Last (fun m w => Names m "key" w) namedUnnamed.children (.bool true) := by
    refine ⟨[], _, [propertyOf computedKey (leaf .falseLiteral "false")], rfl, ?_, ?_⟩
    · exact @Names.word _ (.mk .propertyIdentifier (some .key) 0 "key".toList []) rfl rfl rfl
    · intro m hm
      rw [List.mem_singleton.1 hm]
      exact (unnamed_computed _).not_names "key"
  obtain ⟨entries, hvalue, hget⟩ := h namedUnnamed "key" _ rfl hlast
  have hread : value namedUnnamed = .dict [("key", .bool false)] := by rfl
  rw [hread] at hvalue
  cases hvalue
  cases hget

end

end RequestAtlas.Literal
