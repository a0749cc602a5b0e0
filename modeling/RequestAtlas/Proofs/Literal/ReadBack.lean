import RequestAtlas.Proofs.Literal.Atoms
import RequestAtlas.Proofs.Values
/-!
# Written values as expressions of a script

A syntax tree spells a value (`SpellsValue`) if it is the tree of what the value is written as: an object of pairs with
quoted keys, an array with its commas, a string in quotes, a number, a word.  Brackets, braces, colons and quotes may
stand among the children as nodes of their own (`isMark`), or not.  Main statement `value_of_spells`: such a
tree, read as data, is the value, if the value has no doubles and its integers are in the range in which doubles are
exact.
-/

namespace RequestAtlas

namespace Value

mutual

/-- Whether a value has no doubles, and no integers but those from zero to `2 ^ 53`. -/
def isExact : Value → Bool
  | int n => 0 ≤ n && n ≤ 2 ^ 53
  | float _ => false
  | list items => areExact items
  | dict entries => entriesExact entries
  | _ => true

/-- Whether `isExact` holds of every item. -/
def areExact : List Value → Bool
  | [] => true
  | v :: vs => isExact v && areExact vs

/-- Whether `isExact` holds of every entry's value. -/
def entriesExact : List (String × Value) → Bool
  | [] => true
  | (_, v) :: es => isExact v && entriesExact es

end

theorem areExact_iff {vs : List Value} : areExact vs = true ↔ ∀ v ∈ vs, v.isExact = true := by
  induction vs with
  | nil => simp [areExact]
  | cons v vs ih => simp [areExact, ih]

theorem entriesExact_iff {es : List (String × Value)} : entriesExact es = true ↔ ∀ e ∈ es, e.2.isExact = true := by
  induction es with
  | nil => simp [entriesExact]
  | cons e es ih => simp [entriesExact, ih]

mutual

/-- No exact value is too long to be written. -/
theorem hasLong_of_isExact : ∀ {v : Value}, v.isExact = true → v.hasLong = false
  | null, _ => rfl
  | bool _, _ => rfl
  | int n, h => by
    simp only [isExact, Bool.and_eq_true, decide_eq_true_eq] at h
    have hlimit : 10 ^ 16 ≤ 10 ^ digitLimit := Nat.pow_le_pow_right (by decide) (by decide)
    rw [hasLong, isLong, decide_eq_false_iff_not, Nat.pow_eq]
    omega
  | float _, _ => rfl
  | string _, _ => rfl
  | list _, h => hasLongList_of_areExact h
  | dict _, h => hasLongEntries_of_entriesExact h

theorem hasLongList_of_areExact : ∀ {vs : List Value}, areExact vs = true → hasLongList vs = false
  | [], _ => rfl
  | v :: vs, h => by
    rw [areExact, Bool.and_eq_true] at h
    rw [hasLongList, hasLong_of_isExact h.1, hasLongList_of_areExact h.2]
    rfl

theorem hasLongEntries_of_entriesExact : ∀ {es : List (String × Value)}, entriesExact es = true →
    hasLongEntries es = false
  | [], _ => rfl
  | (_, v) :: es, h => by
    rw [entriesExact, Bool.and_eq_true] at h
    rw [hasLongEntries, hasLong_of_isExact h.1, hasLongEntries_of_entriesExact h.2]
    rfl

end

mutual

theorem isExact_canonical : ∀ {v : Value}, v.isExact = true → v.canonical.isExact = true
  | null, h => h
  | bool _, h => h
  | int _, h => h
  | float _, h => h
  | string _, h => h
  | list vs, h => by
    rw [canonical_list, isExact, areExact_iff, List.forall_mem_map]
    exact areExact_canonical h
  | dict es, h => by
    rw [canonical_dict, isExact, entriesExact_iff, List.forall_mem_map]
    exact fun e he => entriesExact_canonical h e ((sortEntries_perm es).mem_iff.1 he)

theorem areExact_canonical : ∀ {vs : List Value}, areExact vs = true → ∀ v ∈ vs, v.canonical.isExact = true
  | [], _ => by simp
  | v :: vs, h => by
    rw [areExact, Bool.and_eq_true] at h
    exact List.forall_mem_cons.2 ⟨isExact_canonical h.1, areExact_canonical h.2⟩

theorem entriesExact_canonical : ∀ {es : List (String × Value)}, entriesExact es = true →
    ∀ e ∈ es, e.2.canonical.isExact = true
  | [], _ => by simp
  | (_, v) :: es, h => by
    rw [entriesExact, Bool.and_eq_true] at h
    exact List.forall_mem_cons.2 ⟨isExact_canonical h.1, entriesExact_canonical h.2⟩

end

end Value

namespace Literal

open Syntax
open Value (writeString)

/-- Whether a node is a mark beside the parts of an expression: a bracket, a brace, a colon or a quote. -/
def isMark (n : Node) : Bool := !n.isNamed && n.role.isNone && n.kind != .token ","

/-- The children of an expression less its marks. -/
def unmarked (children : List Node) : List Node := children.filter fun c => !isMark c

/-- Nodes with a comma between each two. -/
inductive Separated : List Node → List Node → Prop
  | none : Separated [] []
  | one (n : Node) : Separated [n] [n]
  | more {n comma m : Node} {children ns : List Node} (hcomma : comma.kind = .token ",")
      (h : Separated children (m :: ns)) : Separated (n :: comma :: children) (n :: m :: ns)

/-- `n` is a pair of a key in quotes and the value `m`. -/
def IsPair (key : String) (m n : Node) : Prop :=
  ∃ role start chars children keyStart quotes, n = .mk .pair role start chars children ∧
    unmarked children = [.mk .string (some .key) keyStart (writeString key) quotes, m.withRole .value]

/-- A syntax tree of what a value is written as. -/
inductive SpellsValue : Node → Value → Prop
  | nullWord {role : Option Role} {start : Nat} : SpellsValue (.mk .nullLiteral role start "null".toList []) .null
  | trueWord {role : Option Role} {start : Nat} :
      SpellsValue (.mk .trueLiteral role start "true".toList []) (.bool true)
  | falseWord {role : Option Role} {start : Nat} :
      SpellsValue (.mk .falseLiteral role start "false".toList []) (.bool false)
  | int {role : Option Role} {start : Nat} (n : Int) :
      SpellsValue (.mk .number role start (toString n).toList []) (.int n)
  | string {role : Option Role} {start : Nat} {children : List Node} (s : String) :
      SpellsValue (.mk .string role start (writeString s) children) (.string s)
  | list {role : Option Role} {start : Nat} {chars : List Char} {children : List Node} {parts : List (Node × Value)}
      (hchildren : Separated (unmarked children) (parts.map (·.1))) (h : ∀ p ∈ parts, SpellsValue p.1 p.2) :
      SpellsValue (.mk .array role start chars children) (.list (parts.map (·.2)))
  | dict {role : Option Role} {start : Nat} {chars : List Char} {children : List Node}
      {parts : List (Node × String × Node × Value)} (hchildren : Separated (unmarked children) (parts.map (·.1)))
      (hpairs : ∀ p ∈ parts, IsPair p.2.1 p.2.2.1 p.1)
      (h : ∀ p ∈ parts, SpellsValue p.2.2.1 p.2.2.2) :
      SpellsValue (.mk .object role start chars children) (.dict (parts.map fun p => (p.2.1, p.2.2.2)))

/-- A spelled value is an expression and no comma. -/
theorem SpellsValue.isContent {n : Node} {v : Value} (h : SpellsValue n v) :
    n.isContent = true ∧ n.kind ≠ .token "," := by
  cases h <;> exact ⟨rfl, by simp [Node.kind]⟩

theorem SpellsValue.isNamed {n : Node} {v : Value} (h : SpellsValue n v) : n.isNamed = true := by
  cases h <;> rfl

theorem IsPair.isNamed {key : String} {m n : Node} (h : IsPair key m n) : n.isNamed = true := by
  obtain ⟨_, _, _, _, _, _, rfl, _⟩ := h
  rfl

/-- The part that a node plays does not matter to its value. -/
theorem value_withRole (r : Role) (n : Node) : value (n.withRole r) = value n := by
  cases n with
  | mk kind role start chars children => simp only [Node.withRole, value]

/-- The elements of an array between its commas. -/
theorem elements_separated {children ns : List Node} (h : Separated children ns)
    (hns : ∀ n ∈ ns, n.isContent = true ∧ n.kind ≠ .token ",") : elements false children = ns.map value := by
  induction h with
  | none => rw [elements, List.map_nil]
  | one n =>
    obtain ⟨hcontent, hkind⟩ := hns n (by simp)
    rw [elements, if_neg hkind, if_pos hcontent, elements, List.map_cons, List.map_nil]
  | more hcomma _ ih =>
    rw [List.forall_mem_cons] at hns
    obtain ⟨⟨hcontent, hkind⟩, hns⟩ := hns
    rw [elements, if_neg hkind, if_pos hcontent, elements, if_pos hcomma, if_pos rfl, ih hns]
    rfl

/-! ### Marks -/

theorem unmarked_cons_of_isMark {c : Node} (h : isMark c = true) (cs : List Node) :
    unmarked (c :: cs) = unmarked cs :=
  List.filter_cons_of_neg (by simp [h])

theorem unmarked_cons {c : Node} (h : ¬ isMark c = true) (cs : List Node) : unmarked (c :: cs) = c :: unmarked cs :=
  List.filter_cons_of_pos (by simp [h])

/-- A mark is a token, but no comma, and plays no part in its parent. -/
theorem kind_of_isMark {c : Node} (h : isMark c = true) : ∃ t, c.kind = .token t ∧ t ≠ "," ∧ c.role = none := by
  simp only [isMark, Bool.and_eq_true, Bool.not_eq_true', Option.isNone_iff_eq_none, bne_iff_ne] at h
  obtain ⟨⟨hnamed, hrole⟩, hcomma⟩ := h
  cases hkind : c.kind with
  | token t => exact ⟨t, rfl, fun ht => hcomma (by rw [hkind, ht]), hrole⟩
  | _ => simp [Node.isNamed, hkind, Kind.isNamed] at hnamed

theorem elements_unmarked (filled : Bool) (cs : List Node) : elements filled (unmarked cs) = elements filled cs := by
  induction cs generalizing filled with
  | nil => rfl
  | cons c cs ih =>
    by_cases h : isMark c = true
    · obtain ⟨t, hkind, ht, _⟩ := kind_of_isMark h
      have hcontent : ¬ c.isContent = true := by simp [Node.isContent, Node.isNamed, hkind, Kind.isNamed]
      rw [unmarked_cons_of_isMark h, ih, elements, if_neg (by simpa [hkind] using ht), if_neg hcontent]
    · rw [unmarked_cons h, elements, elements]
      simp only [ih]

theorem properties_unmarked (es : List (String × Value)) (cs : List Node) :
    properties es (unmarked cs) = properties es cs := by
  induction cs generalizing es with
  | nil => rfl
  | cons c cs ih =>
    by_cases h : isMark c = true
    · obtain ⟨t, hkind, _, _⟩ := kind_of_isMark h
      obtain ⟨kind, role, start, chars, children⟩ := c
      obtain rfl : kind = .token t := hkind
      rw [unmarked_cons_of_isMark h, ih, properties] <;> exact nofun
    · obtain ⟨kind, role, start, chars, children⟩ := c
      rw [unmarked_cons h]
      cases kind <;> simp only [properties, ih]

theorem propertyValue_unmarked (cs : List Node) : propertyValue (unmarked cs) = propertyValue cs := by
  induction cs with
  | nil => rfl
  | cons c cs ih =>
    by_cases h : isMark c = true
    · obtain ⟨_, _, _, hrole⟩ := kind_of_isMark h
      rw [unmarked_cons_of_isMark h, ih, propertyValue, if_neg (by simp [hrole])]
    · rw [unmarked_cons h, propertyValue, propertyValue, ih]

theorem propertyName_unmarked (cs : List Node) : propertyName (unmarked cs) = propertyName cs := by
  have hfind : (unmarked cs).find? (·.role == some .key) = cs.find? (·.role == some .key) := by
    rw [unmarked, List.find?_filter]
    refine congrArg (fun p => cs.find? p) (funext fun c => ?_)
    by_cases h : isMark c = true
    · obtain ⟨_, _, _, hrole⟩ := kind_of_isMark h
      simp [hrole]
    · simp [h, ← beq_iff_eq]
  rw [propertyName, propertyName, hfind]

/-- A pair of nothing but its key and its value. -/
theorem isPair_of_parts (role : Option Role) (start keyStart : Nat) (chars : List Char) (key : String) (m : Node) :
    IsPair key m
      (.mk .pair role start chars [.mk .string (some .key) keyStart (writeString key) [], m.withRole .value]) := by
  have hvalue : ¬ isMark (m.withRole .value) = true := by
    cases m
    simp [isMark, Node.withRole, Node.role]
  refine ⟨role, start, chars, _, keyStart, [], rfl, ?_⟩
  rw [unmarked_cons (by simp [isMark, Node.role]), unmarked_cons hvalue]
  rfl

/-- Where no mark stands among the children, none is left out. -/
theorem Separated.unmarked {children ns : List Node} (h : Separated children ns) (hns : ∀ n ∈ ns, n.isNamed = true) :
    Separated (Literal.unmarked children) ns := by
  have hnamed : ∀ {n : Node}, n.isNamed = true → ¬ isMark n = true := fun hn => by simp [isMark, hn]
  have hchildren : Literal.unmarked children = children := by
    induction h with
    | none => rfl
    | one n => exact unmarked_cons (hnamed (hns n List.mem_cons_self)) []
    | more hcomma _ ih =>
      rw [List.forall_mem_cons] at hns
      rw [unmarked_cons (hnamed hns.1), unmarked_cons (by simp [isMark, hcomma]), ih hns.2]
  rwa [hchildren]

/-! ### Lists and dictionaries -/

/-- A pair with a quoted key adds an entry. -/
theorem properties_pair {es : List (String × Value)} {k : String} {m n : Node} (h : IsPair k m n) (rest : List Node) :
    properties es (n :: rest) = properties (Value.put es k (value m)) rest := by
  obtain ⟨role, start, chars, children, keyStart, quotes, rfl, hchildren⟩ := h
  have hname : propertyName children = k := by
    rw [← propertyName_unmarked, hchildren]
    exact stringValue_writeString k
  have hvalue : propertyValue children = value m := by
    have hkey : ¬ ((Node.mk .string (some .key) keyStart (writeString k) quotes).role == some .value) = true :=
      Bool.false_ne_true
    have hrole : ((m.withRole .value).role == some .value) = true := by
      cases m
      rfl
    rw [← propertyValue_unmarked, hchildren, propertyValue, if_neg hkey, propertyValue, if_pos hrole, value_withRole]
  rw [properties, hname, hvalue]

theorem properties_comma {comma : Node} (h : comma.kind = .token ",") (es : List (String × Value)) (rest : List Node) :
    properties es (comma :: rest) = properties es rest := by
  cases comma with
  | mk kind role start chars children =>
    obtain rfl : kind = .token "," := h
    simp [properties]

/-- The entries of an object between its commas, behind those read so far. -/
theorem properties_separated : ∀ {parts : List (Node × String × Node × Value)} {children : List Node}
    (es : List (String × Value)), Separated children (parts.map (·.1)) →
    (∀ p ∈ parts, IsPair p.2.1 p.2.2.1 p.1 ∧ value p.2.2.1 = p.2.2.2) →
    (es.map (·.1) ++ parts.map (·.2.1)).Nodup →
    properties es children = es ++ parts.map fun p => (p.2.1, p.2.2.2)
  | [], _, es, hsep, _, _ => by
    cases hsep
    rw [properties, List.map_nil, List.append_nil]
  | (n, k, m, v) :: parts, children, es, hsep, h, hn => by
    rw [List.forall_mem_cons] at h
    obtain ⟨⟨hpair, hv⟩, h⟩ := h
    -- the key is new, so its entry goes to the end
    have hnew : k ∉ es.map (·.1) := fun hmem => (List.nodup_append.1 hn).2.2 k hmem k (by simp) rfl
    have hstep : ∀ rest, properties es (n :: rest) = properties (es ++ [(k, v)]) rest := by
      intro rest
      rw [properties_pair hpair, show value m = v from hv, Value.put_of_notMem _ hnew]
    have hnext : ((es ++ [(k, v)]).map (·.1) ++ parts.map (·.2.1)).Nodup := by simpa using hn
    cases parts with
    | nil =>
      cases hsep
      rw [hstep, properties]
      simp
    | cons q parts =>
      cases hsep with
      | more hcomma hsep =>
        rw [hstep, properties_comma hcomma, properties_separated _ hsep h hnext]
        simp

/-- **The tree of what a value is written as, read as data, is the value.** -/
theorem value_of_spells {n : Node} {v : Value} (h : SpellsValue n v) :
    v.isExact = true → v.distinctKeys = true → value n = v := by
  induction h with
  | nullWord => intro _ _; rw [value]
  | trueWord => intro _ _; rw [value]
  | falseWord => intro _ _; rw [value]
  | int n =>
    intro hexact _
    simp only [Value.isExact, Bool.and_eq_true, decide_eq_true_eq] at hexact
    rw [value, numberValue_int hexact.1 hexact.2]
  | string s => intro _ _; rw [value, stringValue_writeString]
  | @list role start chars children parts hchildren hparts ih =>
    intro hexact hkeys
    rw [Value.isExact, Value.areExact_iff, List.forall_mem_map] at hexact
    rw [Value.distinctKeys, Value.distinctKeysList_iff, List.forall_mem_map] at hkeys
    have hcontent : ∀ m ∈ parts.map (·.1), m.isContent = true ∧ m.kind ≠ .token "," :=
      List.forall_mem_map.2 fun p hp => (hparts p hp).isContent
    rw [value, ← elements_unmarked, elements_separated hchildren hcontent, List.map_map]
    exact congrArg Value.list (List.map_congr_left fun p hp => ih p hp (hexact p hp) (hkeys p hp))
  | @dict role start chars children parts hchildren hpairs _ ih =>
    intro hexact hkeys
    rw [Value.isExact, Value.entriesExact_iff, List.forall_mem_map] at hexact
    rw [Value.distinctKeys, Bool.and_eq_true, decide_eq_true_eq, Value.distinctKeysEntries_iff, List.forall_mem_map,
      List.map_map] at hkeys
    rw [value, ← properties_unmarked, properties_separated [] hchildren
      (fun p hp => ⟨hpairs p hp, ih p hp (hexact p hp) (hkeys.2 p hp)⟩) hkeys.1]
    rfl

end Literal

end RequestAtlas
