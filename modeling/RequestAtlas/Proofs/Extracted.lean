import RequestAtlas.Proofs.Literal.Markup
import RequestAtlas.Proofs.Settings.Fields
import RequestAtlas.Request.Extraction
import RequestAtlas.Request.Fields
import RequestAtlas.Syntax.Program
import Mathlib.Data.List.Forall2
import Mathlib.Data.Option.Basic
/-!
# Which requests are extracted

A script is searched with a stack of trees that are still to be visited (`_iter_calls`).  What the walk meets is the
pre-order of the script's named nodes (`callsFrom_eq`), and in pre-order the node at every address comes exactly once,
outer nodes before inner ones and earlier siblings before later ones (`pairwise_addressed`, `mem_addressed`).  `Makes`
says what makes a call a request, and of what; comments count neither as arguments nor inside parentheses, whichever
kind they are of.  Reading a call passes over ordinary comments only, so it may miss the request or what it sends where
a markup comment stands in the way, and nowhere else (`Makes.ofCall?_iff`).  Main statement `extract_iff`: the requests
of a script are those that its calls make, each once, in this order, just if every such call is `Legible`; without
markup comments every one is (`Makes.legible_of_plain`).
-/

namespace RequestAtlas

namespace Syntax.Node

mutual

/-- The named nodes of a tree, each before its children. -/
def preorder : Node → List Node
  | .mk kind role start chars children => .mk kind role start chars children :: preorderIn children

/-- The named nodes of the trees of a list. -/
def preorderIn : List Node → List Node
  | [] => []
  | c :: cs => (if c.isNamed then preorder c else []) ++ preorderIn cs

end

theorem preorderIn_eq : ∀ ns : List Node, preorderIn ns = (ns.filter isNamed).flatMap preorder
  | [] => rfl
  | n :: ns => by
    rw [preorderIn, preorderIn_eq ns]
    by_cases h : n.isNamed = true
    · rw [if_pos h, List.filter_cons_of_pos h, List.flatMap_cons]
    · rw [if_neg h, List.filter_cons_of_neg h, List.nil_append]

theorem preorder_eq (n : Node) : n.preorder = n :: n.namedChildren.flatMap preorder := by
  obtain ⟨kind, role, start, chars, children⟩ := n
  rw [preorder, preorderIn_eq]
  rfl

/-! ## Addresses -/

/-- The node at an address, which tells at each step down the how-manieth named child to take. -/
def at? (n : Node) : List Nat → Option Node
  | [] => some n
  | i :: rest => n.namedChildren[i]?.bind fun c => c.at? rest

mutual

/-- The named nodes of a tree with their addresses, each before its children. -/
def addressed : Node → List (List Nat × Node)
  | .mk kind role start chars children => ([], .mk kind role start chars children) :: addressedIn 0 children

/-- The named nodes of the trees of a list, where the first named tree has the number `i`. -/
def addressedIn (i : Nat) : List Node → List (List Nat × Node)
  | [] => []
  | c :: cs =>
    if c.isNamed then (addressed c).map (fun x => (i :: x.1, x.2)) ++ addressedIn (i + 1) cs
    else addressedIn i cs

end

mutual

theorem addressed_map_snd : ∀ n : Node, n.addressed.map (·.2) = n.preorder
  | .mk kind role start chars children => by
    rw [addressed, preorder, List.map_cons, addressedIn_map_snd 0 children]

theorem addressedIn_map_snd (i : Nat) : ∀ ns : List Node, (addressedIn i ns).map (·.2) = preorderIn ns
  | [] => rfl
  | n :: ns => by
    rw [addressedIn, preorderIn]
    by_cases h : n.isNamed = true
    · rw [if_pos h, if_pos h, List.map_append, List.map_map, addressedIn_map_snd (i + 1) ns, ← addressed_map_snd n]
      rfl
    · rw [if_neg h, if_neg h, List.nil_append, addressedIn_map_snd i ns]

end

mutual

/-- The nodes with their addresses are those that the addresses lead to. -/
theorem mem_addressed : ∀ {n m : Node} {a : List Nat}, (a, m) ∈ n.addressed ↔ n.at? a = some m
  | .mk kind role start chars children, m, a => by
    rw [addressed, List.mem_cons, mem_addressedIn]
    cases a with
    | nil => simp [at?, eq_comm]
    | cons j rest => simp [at?, namedChildren, Node.children, Option.bind_eq_some_iff]

theorem mem_addressedIn : ∀ {i : Nat} {ns : List Node} {m : Node} {a : List Nat}, (a, m) ∈ addressedIn i ns ↔
    ∃ j rest c, a = (i + j) :: rest ∧ (ns.filter isNamed)[j]? = some c ∧ c.at? rest = some m
  | i, [], m, a => by simp [addressedIn]
  | i, n :: ns, m, a => by
    rw [addressedIn]
    by_cases h : n.isNamed = true
    · rw [if_pos h, List.filter_cons_of_pos h, List.mem_append, mem_addressedIn]
      constructor
      · rintro (hmem | ⟨j, rest, c, rfl, hc, hm⟩)
        · obtain ⟨⟨rest, m'⟩, hrest, heq⟩ := List.mem_map.1 hmem
          cases heq
          exact ⟨0, rest, n, rfl, rfl, mem_addressed.1 hrest⟩
        · exact ⟨j + 1, rest, c, by rw [Nat.add_assoc, Nat.add_comm 1], hc, hm⟩
      · rintro ⟨j, rest, c, rfl, hc, hm⟩
        cases j with
        | zero =>
          cases hc
          exact .inl (List.mem_map.2 ⟨(rest, m), mem_addressed.2 hm, rfl⟩)
        | succ j => exact .inr ⟨j, rest, c, by rw [Nat.add_assoc, Nat.add_comm 1], hc, hm⟩
    · rw [if_neg h, List.filter_cons_of_neg h, mem_addressedIn]

end

mutual

/-- Addresses come in ascending order: a node before those inside it, and these before those of its later siblings. -/
theorem pairwise_addressed : ∀ n : Node, n.addressed.Pairwise fun x y => x.1 < y.1
  | .mk kind role start chars children => by
    rw [addressed, List.pairwise_cons]
    refine ⟨fun x hx => ?_, pairwise_addressedIn 0 children⟩
    obtain ⟨j, rest, c, ha, _⟩ := mem_addressedIn.1 hx
    rw [ha]
    exact List.nil_lt_cons _ _

theorem pairwise_addressedIn (i : Nat) : ∀ ns : List Node, (addressedIn i ns).Pairwise fun x y => x.1 < y.1
  | [] => List.Pairwise.nil
  | n :: ns => by
    rw [addressedIn]
    by_cases h : n.isNamed = true
    · rw [if_pos h, List.pairwise_append, List.pairwise_map]
      refine ⟨?_, pairwise_addressedIn (i + 1) ns, ?_⟩
      · exact (pairwise_addressed n).imp fun hxy => List.cons_lt_cons_iff.2 (.inr ⟨rfl, hxy⟩)
      · intro x hx y hy
        obtain ⟨x, _, rfl⟩ := List.mem_map.1 hx
        obtain ⟨j, rest, c, ha, _⟩ := mem_addressedIn.1 hy
        rw [ha]
        exact List.cons_lt_cons_iff.2 (.inl (by omega))
    · rw [if_neg h]
      exact pairwise_addressedIn i ns

end

theorem at?_append (n : Node) (a b : List Nat) : n.at? (a ++ b) = (n.at? a).bind (·.at? b) := by
  induction a generalizing n with
  | nil => rfl
  | cons i a ih => simp only [List.cons_append, at?, Option.bind_assoc, ih]

theorem mem_preorder_iff {n m : Node} : m ∈ n.preorder ↔ ∃ a, n.at? a = some m := by
  simp only [← addressed_map_snd, List.mem_map, Prod.exists, exists_eq_right, mem_addressed]

theorem mem_preorder_self (n : Node) : n ∈ n.preorder := mem_preorder_iff.2 ⟨[], rfl⟩

theorem mem_preorder_of_child {n c : Node} (h : c ∈ n.namedChildren) : c ∈ n.preorder := by
  rw [preorder_eq]
  exact List.mem_cons_of_mem _ (List.mem_flatMap.2 ⟨c, h, mem_preorder_self c⟩)

theorem mem_preorder_trans {n m k : Node} (hm : m ∈ n.preorder) (hk : k ∈ m.preorder) : k ∈ n.preorder := by
  obtain ⟨a, ha⟩ := mem_preorder_iff.1 hm
  obtain ⟨b, hb⟩ := mem_preorder_iff.1 hk
  exact mem_preorder_iff.2 ⟨a ++ b, by rw [at?_append, ha, Option.bind_some, hb]⟩

end Syntax.Node

open Syntax

namespace Method

theorem ofName?_eq_some_iff {s : String} {m : Method} : ofName? s = some m ↔ s = m.name := by
  constructor
  · intro h
    have hname := List.find?_some h
    exact (beq_iff_eq.1 hname).symm
  · rintro rfl
    cases m <;> rfl

end Method

namespace Request

/-! ## What a call makes -/

/-- `callee` is the method `m` of the client, called by its bare name and without an optional chain. -/
structure Calls (client : String) (callee : Node) (m : Method) : Prop where
  member : callee.kind = .member
  direct : callee.child? .optionalChain = none
  object : ∃ object, callee.child? .object = some object ∧ object.kind = .identifier ∧ object.text = client
  property : ∃ property, callee.child? .property = some property ∧ property.kind = .propertyIdentifier ∧
    Text.upper property.text = m.name

/-- A call of the method `m` with these arguments sends `v`. -/
structure Sends (arguments : List Node) (m : Method) (v : Value) : Prop where
  nothing : m ∈ [.get, .delete, .head, .options] → v = .null
  shown : m ∈ [.post, .put, .patch] → ∀ a, arguments[1]? = some a → Literal.value a ≠ .null → v = Literal.value a
  unshown : m ∈ [.post, .put, .patch] → (∀ a, arguments[1]? = some a → Literal.value a = .null) →
    v = .string "\x7b\x7bBODY\x7d\x7d"

/-- The call has the shape of a request of method `m` with these arguments in parentheses. -/
structure Shaped (client : String) (call : Node) (m : Method) (list : Node) : Prop where
  isCall : call.kind = .call
  direct : call.child? .optionalChain = none
  callee : ∃ callee, call.child? .function = some callee ∧ Calls client callee m
  arguments : call.child? .arguments = some list
  parentheses : list.kind = .arguments

/-- The arguments of a call: what stands between its parentheses, less comments of either kind. -/
def argumentsOf (list : Node) : List Node := list.children.filter Literal.isExpression

/-- The call makes the request `r`. -/
structure Makes (client : String) (source : Path) (call : Node) (r : Request) : Prop where
  shaped : ∃ list, Shaped client call r.method list ∧
    (∃ first e, (argumentsOf list)[0]? = some first ∧ Literal.Core first e ∧ Literal.Spells e r.url) ∧
    Sends (argumentsOf list) r.method r.body
  url : r.url ≠ ""
  found : r.source = source

/-- A request less what is sent. -/
def outline (r : Request) : Path × Method × String := (r.source, r.method, r.url)

/-- No markup comment stands in the way of what the call shows: none in front of its first argument, and none in the
place of a body, unless the body is not known either. -/
structure Legible (call : Node) (r : Request) : Prop where
  url : ∀ list, call.child? .arguments = some list → ¬ Literal.Covered list.children
  body : ∀ list c, call.child? .arguments = some list → r.method ∈ [.post, .put, .patch] →
    list.contents[1]? = some c → Literal.IsMarkup c → r.body = Literal.unknownValue

theorem guard_eq_some_iff {p : Prop} [Decidable p] {u : Unit} : (guard p : Option Unit) = some u ↔ p := by
  by_cases h : p <;> simp [h]

theorem clientMethod?_eq_some_iff {client : String} {callee : Node} {m : Method} :
    clientMethod? client callee = some m ↔ Calls client callee m := by
  simp only [clientMethod?, Option.bind_eq_bind, Option.bind_eq_some_iff, guard_eq_some_iff, exists_const,
    Option.isNone_iff_eq_none, Method.ofCall?, Method.ofName?_eq_some_iff]
  constructor
  · rintro ⟨⟨hmember, hdirect⟩, object, hobject, ⟨hname, hclient⟩, property, hproperty, hword, hmethod⟩
    exact ⟨hmember, hdirect, ⟨object, hobject, hname, hclient⟩, ⟨property, hproperty, hword, hmethod⟩⟩
  · rintro ⟨hmember, hdirect, ⟨object, hobject, hname, hclient⟩, ⟨property, hproperty, hword, hmethod⟩⟩
    exact ⟨⟨hmember, hdirect⟩, object, hobject, ⟨hname, hclient⟩, property, hproperty, hword, hmethod⟩

theorem sends_bodyOf (m : Method) (arguments : List Node) : Sends arguments m (bodyOf m arguments) where
  nothing h := by
    have hbody : m.hasBody = false := by revert h; cases m <;> decide
    simp [bodyOf, hbody]
  shown h a ha hne := by
    have hbody : m.hasBody = true := by revert h; cases m <;> decide
    rw [bodyOf, if_pos hbody, ha]
    dsimp only
    split
    · rename_i hnull
      exact absurd hnull hne
    · rfl
  unshown h hnull := by
    have hbody : m.hasBody = true := by revert h; cases m <;> decide
    rw [bodyOf, if_pos hbody]
    cases ha : arguments[1]? with
    | none => rfl
    | some a => simp only [hnull a ha]; rfl

/-- What is sent is determined. -/
theorem Sends.unique {arguments : List Node} {m : Method} {v v' : Value} (h : Sends arguments m v)
    (h' : Sends arguments m v') : v = v' := by
  by_cases hm : m ∈ [.post, .put, .patch]
  · by_cases hnull : ∀ a, arguments[1]? = some a → Literal.value a = .null
    · rw [h.unshown hm hnull, h'.unshown hm hnull]
    · push Not at hnull
      obtain ⟨a, ha, hne⟩ := hnull
      rw [h.shown hm a ha hne, h'.shown hm a ha hne]
  · have hm' : m ∈ [.get, .delete, .head, .options] := by revert hm; cases m <;> decide
    rw [h.nothing hm', h'.nothing hm']

theorem Shaped.unique {client : String} {call : Node} {m m' : Method} {list list' : Node}
    (h : Shaped client call m list) (h' : Shaped client call m' list') : list = list' :=
  Option.some.inj (h.arguments.symm.trans h'.arguments)

theorem Shaped.method_unique {client : String} {call : Node} {m m' : Method} {list list' : Node}
    (h : Shaped client call m list) (h' : Shaped client call m' list') : m = m' := by
  obtain ⟨callee, hcallee, hm⟩ := h.callee
  obtain ⟨callee', hcallee', hm'⟩ := h'.callee
  cases hcallee.symm.trans hcallee'
  exact Option.some.inj ((clientMethod?_eq_some_iff.2 hm).symm.trans (clientMethod?_eq_some_iff.2 hm'))

/-- What a call gives, by what is read of its arguments. -/
theorem ofCall?_eq_some_iff {client : String} {source : Path} {call : Node} {r : Request} (hcall : call.kind = .call) :
    ofCall? client source call = some r ↔ ∃ list, Shaped client call r.method list ∧
      (∃ e, Literal.firstExpression? list.children = some e ∧ Literal.Spells e r.url) ∧ r.url ≠ "" ∧
      r.body = bodyOf r.method list.contents ∧ r.source = source := by
  have hfirst : ∀ {list : Node} {url : String}, (∃ first, list.contents[0]? = some first ∧
      Literal.url? first = some url) ↔
      ∃ e, Literal.firstExpression? list.children = some e ∧ Literal.Spells e url := by
    intro list url
    simp only [Literal.url?_eq_some_iff, Literal.firstExpression?_eq_some_iff, Node.contents, ← List.head?_eq_getElem?]
    exact ⟨fun ⟨m, hm, e, he, hs⟩ => ⟨e, ⟨m, hm, he⟩, hs⟩, fun ⟨e, ⟨m, hm, he⟩, hs⟩ => ⟨m, hm, e, he, hs⟩⟩
  simp only [ofCall?, Option.bind_eq_bind, guard_eq_some_iff, exists_const, Option.bind_eq_some_iff,
    Option.isNone_iff_eq_none, clientMethod?_eq_some_iff]
  constructor
  · rintro ⟨hdirect, callee, hcallee, m, hm, list, hlist, hkind, first, hcontents, url, hurl, hne, hr⟩
    cases hr
    exact ⟨list, ⟨hcall, hdirect, ⟨callee, hcallee, hm⟩, hlist, hkind⟩, hfirst.1 ⟨first, hcontents, hurl⟩, hne, rfl,
      rfl⟩
  · rintro ⟨list, ⟨_, hdirect, ⟨callee, hcallee, hm⟩, hlist, hkind⟩, hspelled, hne, hbody, hsource⟩
    obtain ⟨first, hcontents, hurl⟩ := hfirst.2 hspelled
    refine ⟨hdirect, callee, hcallee, r.method, hm, list, hlist, hkind, first, hcontents, r.url, hurl, hne, ?_⟩
    rw [← hsource, ← hbody]
    rfl

/-! ## What is read of a call -/

/-- A call that gives a request has no markup comment in front of its first argument. -/
theorem not_covered_of_spells {ns : List Node} {e : Node} {url : String}
    (he : Literal.firstExpression? ns = some e) (h : Literal.Spells e url) : ¬ Literal.Covered ns := by
  intro hcovered
  obtain ⟨m, hm, hmarkup⟩ := Literal.firstExpression?_of_covered hcovered
  cases he.symm.trans hm
  cases h with
  | string hkind | template hkind =>
    rw [hmarkup] at hkind
    cases hkind

/-- What is read as the second argument is that argument, or a markup comment. -/
theorem second_contents {list : Node} (h : ¬ Literal.Covered list.children) :
    list.contents[1]? = (argumentsOf list)[1]? ∨ ∃ c, list.contents[1]? = some c ∧ Literal.IsMarkup c := by
  have hfilter : argumentsOf list = list.contents.filter fun c => c.kind != .construct "html_comment" := by
    rw [argumentsOf, Node.contents, List.filter_filter]
    exact List.filter_congr fun c _ => Bool.and_comm _ _
  rw [hfilter]
  have hhere : ∀ c, list.contents.head? = some c → ¬ Literal.IsMarkup c := fun c hc hmarkup => h (.here hc hmarkup)
  -- the first is kept, so the second stands in second place if it is kept as well
  generalize list.contents = cs at hhere ⊢
  rcases cs with _ | ⟨first, _ | ⟨second, rest⟩⟩
  · exact .inl rfl
  · have hfirst : first.kind ≠ .construct "html_comment" := hhere first rfl
    simp [hfirst]
  · have hfirst : first.kind ≠ .construct "html_comment" := hhere first rfl
    by_cases hsecond : Literal.IsMarkup second
    · exact .inr ⟨second, rfl, hsecond⟩
    · have hsecond' : second.kind ≠ .construct "html_comment" := hsecond
      simp [hfirst, hsecond']

theorem bodyOf_congr {m : Method} {as bs : List Node} (h : as[1]? = bs[1]?) : bodyOf m as = bodyOf m bs := by
  rw [bodyOf, bodyOf, h]

theorem bodyOf_markup {m : Method} {as : List Node} {c : Node} (hm : m ∈ [.post, .put, .patch])
    (hc : as[1]? = some c) (hmarkup : Literal.IsMarkup c) : bodyOf m as = Literal.unknownValue := by
  have hvalue := Literal.value_markup hmarkup
  refine (sends_bodyOf m as).shown hm c hc (fun hnull => ?_) |>.trans hvalue
  rw [hvalue] at hnull
  cases hnull

/-- A call that gives a request makes one, which differs at most in what is sent. -/
theorem makes_of_ofCall? {client : String} {source : Path} {call : Node} {r : Request} (hcall : call.kind = .call)
    (h : ofCall? client source call = some r) : ∃ body, Makes client source call { r with body } := by
  obtain ⟨list, hshaped, ⟨e, he, hspells⟩, hurl, _, hsource⟩ := (ofCall?_eq_some_iff hcall).1 h
  have hcovered := not_covered_of_spells he hspells
  obtain ⟨first, hfirst, hcore⟩ := (Literal.firstExpression?_of_not_covered hcovered).1 he
  rw [List.head?_eq_getElem?] at hfirst
  have hsends := sends_bodyOf r.method (argumentsOf list)
  exact ⟨bodyOf r.method (argumentsOf list), ⟨list, hshaped, ⟨first, e, hfirst, hcore, hspells⟩, hsends⟩, hurl, hsource⟩

/-- **A call gives the request that it makes, just if no markup comment stands in the way.** -/
theorem Makes.ofCall?_iff {client : String} {source : Path} {call : Node} {r : Request}
    (h : Makes client source call r) : ofCall? client source call = some r ↔ Legible call r := by
  obtain ⟨list, hshaped, ⟨first, e, hfirst, hcore, hspells⟩, hsends⟩ := h.shaped
  have hlist : ∀ {list'}, call.child? .arguments = some list' → list' = list :=
    fun h' => Option.some.inj (h'.symm.trans hshaped.arguments)
  rw [ofCall?_eq_some_iff hshaped.isCall]
  constructor
  · rintro ⟨list', hshaped', ⟨e', he', hspells'⟩, _, hbody, _⟩
    obtain rfl := hshaped.unique hshaped'
    refine ⟨fun list' h' => ?_, fun list' c h' hm hc hmarkup => ?_⟩
    · rw [hlist h']
      exact not_covered_of_spells he' hspells'
    · rw [hlist h'] at hc
      rw [hbody, bodyOf_markup hm hc hmarkup]
  · intro hlegible
    have hcovered := hlegible.url list hshaped.arguments
    rw [← List.head?_eq_getElem?] at hfirst
    have hfirst' := (Literal.firstExpression?_of_not_covered hcovered).2 ⟨first, hfirst, hcore⟩
    refine ⟨list, hshaped, ⟨e, hfirst', hspells⟩, h.url, ?_, h.found⟩
    have hbody : r.body = bodyOf r.method (argumentsOf list) := hsends.unique (sends_bodyOf _ _)
    rcases second_contents hcovered with hsame | ⟨c, hc, hmarkup⟩
    · rw [hbody, bodyOf_congr hsame]
    · by_cases hm : r.method ∈ [.post, .put, .patch]
      · rw [bodyOf_markup hm hc hmarkup]
        exact hlegible.body list c hshaped.arguments hm hc hmarkup
      · have hm' : r.method ∈ [.get, .delete, .head, .options] := by revert hm; cases r.method <;> decide
        rw [hsends.nothing hm', (sends_bodyOf r.method list.contents).nothing hm']

/-- What a call makes is determined. -/
theorem Makes.unique {client : String} {source : Path} {call : Node} {r r' : Request}
    (h : Makes client source call r) (h' : Makes client source call r') : r = r' := by
  obtain ⟨list, hshaped, ⟨first, e, hfirst, hcore, hspells⟩, hsends⟩ := h.shaped
  obtain ⟨list', hshaped', ⟨first', e', hfirst', hcore', hspells'⟩, hsends'⟩ := h'.shaped
  obtain rfl := hshaped.unique hshaped'
  cases hfirst.symm.trans hfirst'
  cases hcore.unique hcore'
  obtain ⟨source, method, url, body⟩ := r
  obtain ⟨source', method', url', body'⟩ := r'
  obtain rfl : method = method' := hshaped.method_unique hshaped'
  obtain rfl : url = url' := hspells.unique hspells'
  obtain rfl : body = body' := hsends.unique hsends'
  obtain rfl : source = source' := h.found.trans h'.found.symm
  rfl

/-! ## The walk -/

/-- The walk meets the calls among the named nodes of the trees on the stack, tree by tree in pre-order. -/
theorem callsFrom_eq (stack : List Node) :
    callsFrom stack = (stack.flatMap Node.preorder).filter fun n => n.kind = .call := by
  fun_induction callsFrom stack with
  | case1 => rfl
  | case2 n rest found hkind ih =>
    rw [List.flatMap_cons, Node.preorder_eq, List.cons_append, List.filter_cons_of_pos (by simpa using hkind),
      ← List.flatMap_append, ← ih]
  | case3 n rest found hkind ih =>
    rw [List.flatMap_cons, Node.preorder_eq, List.cons_append, List.filter_cons_of_neg (by simpa using hkind),
      ← List.flatMap_append, ← ih]

theorem calls_eq (program : Node) : calls program = program.preorder.filter fun n => n.kind = .call := by
  rw [calls, callsFrom_eq, List.flatMap_singleton]

/-- `rs` are the requests that the nodes of a list make, one after the other; nodes that make none are passed over. -/
inductive Kept (client : String) (source : Path) : List Node → List Request → Prop
  | nil : Kept client source [] []
  | keep {n : Node} {r : Request} {ns : List Node} {rs : List Request} (h : Makes client source n r)
      (rest : Kept client source ns rs) : Kept client source (n :: ns) (r :: rs)
  | pass {n : Node} {ns : List Node} {rs : List Request} (h : ∀ r, ¬ Makes client source n r)
      (rest : Kept client source ns rs) : Kept client source (n :: ns) rs

theorem exists_kept (client : String) (source : Path) (ns : List Node) : ∃ rs, Kept client source ns rs := by
  induction ns with
  | nil => exact ⟨[], .nil⟩
  | cons n ns ih =>
    obtain ⟨rs, hrs⟩ := ih
    by_cases h : ∃ r, Makes client source n r
    · obtain ⟨r, hr⟩ := h
      exact ⟨r :: rs, .keep hr hrs⟩
    · exact ⟨rs, .pass (not_exists.1 h) hrs⟩

/-- The requests that nodes with addresses make belong to the addresses of those that make one. -/
theorem Kept.addresses {client : String} {source : Path} {l : List (List Nat × Node)} {rs : List Request}
    (h : Kept client source (l.map (·.2)) rs) : ∃ as, as.Sublist (l.map (·.1)) ∧
      (∀ a, a ∈ as ↔ ∃ call r, (a, call) ∈ l ∧ Makes client source call r) ∧
      List.Forall₂ (fun a r => ∃ call, (a, call) ∈ l ∧ Makes client source call r) as rs := by
  induction l generalizing rs with
  | nil =>
    cases h
    exact ⟨[], .slnil, by simp, .nil⟩
  | cons x l ih =>
    obtain ⟨a, n⟩ := x
    have hmore : ∀ b r, (∃ call, (b, call) ∈ l ∧ Makes client source call r) →
        ∃ call, (b, call) ∈ (a, n) :: l ∧ Makes client source call r :=
      fun b r ⟨call, hcall, hr⟩ => ⟨call, List.mem_cons_of_mem _ hcall, hr⟩
    cases h with
    | @keep _ r _ rs h hrest =>
      obtain ⟨as, hsub, hmem, hall⟩ := ih hrest
      refine ⟨a :: as, hsub.cons_cons a, fun b => ?_, .cons ⟨n, List.mem_cons_self, h⟩ (hall.imp hmore)⟩
      simp only [List.mem_cons, hmem, Prod.mk.injEq]
      constructor
      · rintro (rfl | ⟨call, r, hcall, hr⟩)
        · exact ⟨n, r, .inl ⟨rfl, rfl⟩, h⟩
        · exact ⟨call, r, .inr hcall, hr⟩
      · rintro ⟨call, r, ⟨rfl, rfl⟩ | hcall, hr⟩
        · exact .inl rfl
        · exact .inr ⟨call, r, hcall, hr⟩
    | pass hnone hrest =>
      obtain ⟨as, hsub, hmem, hall⟩ := ih hrest
      refine ⟨as, hsub.cons a, fun b => ?_, hall.imp hmore⟩
      simp only [List.mem_cons, hmem, Prod.mk.injEq]
      constructor
      · rintro ⟨call, r, hcall, hr⟩
        exact ⟨call, r, .inr hcall, hr⟩
      · rintro ⟨call, r, ⟨rfl, rfl⟩ | hcall, hr⟩
        · exact absurd hr (hnone r)
        · exact ⟨call, r, hcall, hr⟩

/-- What a node gives: what it gives as a call, and nothing if it is no call. -/
def made? (client : String) (source : Path) (n : Node) : Option Request :=
  if n.kind = .call then ofCall? client source n else none

theorem makes_of_made? {client : String} {source : Path} {n : Node} {r : Request}
    (h : made? client source n = some r) : ∃ body, Makes client source n { r with body } := by
  obtain ⟨hkind, h⟩ := Option.ite_none_right_eq_some.1 h
  exact makes_of_ofCall? hkind h

/-- A node that makes no request gives none. -/
theorem made?_eq_none {client : String} {source : Path} {n : Node} (h : ∀ r, ¬ Makes client source n r) :
    made? client source n = none := by
  cases hmade : made? client source n with
  | none => rfl
  | some r =>
    obtain ⟨body, hmakes⟩ := makes_of_made? hmade
    exact absurd hmakes (h _)

theorem not_covered_of_plain {n : Node} (h : ∀ m ∈ n.preorder, ¬ Literal.IsMarkup m) :
    ¬ Literal.Covered n.children := by
  have hchild : ∀ {ns : List Node} {m : Node}, (ns.filter Node.isContent).head? = some m →
      m ∈ ns.filter Node.isNamed := by
    intro ns m hm
    obtain ⟨hmem, hcontent⟩ := List.mem_filter.1 (List.mem_of_head? hm)
    exact List.mem_filter.2 ⟨hmem, (Bool.and_eq_true_iff.1 hcontent).1⟩
  suffices hall : ∀ {ns}, Literal.Covered ns → (∀ c ∈ ns.filter Node.isNamed, ∀ m ∈ c.preorder, ¬ Literal.IsMarkup m) →
      False from
    fun hcovered => hall hcovered fun c hc m hm => h m (Node.mem_preorder_trans (Node.mem_preorder_of_child hc) hm)
  intro ns hcovered
  induction hcovered with
  | here hm hmarkup => exact fun hplain => hplain _ (hchild hm) _ (Node.mem_preorder_self _) hmarkup
  | inside hm _ _ ih =>
    intro hplain
    refine ih fun c hc k hk => hplain _ (hchild hm) k ?_
    exact Node.mem_preorder_trans (Node.mem_preorder_of_child hc) hk

/-- In a script without markup comments every call that makes a request is legible. -/
theorem Makes.legible_of_plain {client : String} {source : Path} {program call : Node} {r : Request}
    (h : Makes client source call r) (hcall : call ∈ program.preorder)
    (hplain : ∀ n ∈ program.preorder, ¬ Literal.IsMarkup n) : Legible call r := by
  obtain ⟨list, hshaped, _⟩ := h.shaped
  have hlist : list ∈ program.preorder := by
    refine Node.mem_preorder_trans hcall (Node.mem_preorder_of_child (List.mem_filter.2 ?_))
    exact ⟨List.mem_of_find?_eq_some hshaped.arguments, by rw [Node.isNamed, hshaped.parentheses]; rfl⟩
  have hinside : ∀ n ∈ list.preorder, ¬ Literal.IsMarkup n := fun n hn => hplain n (Node.mem_preorder_trans hlist hn)
  have hsame : ∀ {list'}, call.child? .arguments = some list' → list' = list :=
    fun h' => Option.some.inj (h'.symm.trans hshaped.arguments)
  refine ⟨fun list' h' => ?_, fun list' c h' _ hc hmarkup => ?_⟩
  · rw [hsame h']
    exact not_covered_of_plain hinside
  · rw [hsame h'] at hc
    obtain ⟨hmem, hcontent⟩ := List.mem_filter.1 (List.mem_of_getElem? hc)
    have hchild : c ∈ list.namedChildren := List.mem_filter.2 ⟨hmem, (Bool.and_eq_true_iff.1 hcontent).1⟩
    exact absurd hmarkup (hinside c (Node.mem_preorder_of_child hchild))

theorem Makes.made?_iff {client : String} {source : Path} {n : Node} {r : Request} (h : Makes client source n r) :
    made? client source n = some r ↔ Legible n r := by
  obtain ⟨list, hshaped, _⟩ := h.shaped
  rw [made?, if_pos hshaped.isCall, h.ofCall?_iff]

theorem extract_eq (client : String) (source : Path) (program : Node) :
    extract client source program = program.preorder.filterMap (made? client source) := by
  rw [extract, calls_eq, List.filterMap_filter]
  simp only [decide_eq_true_eq]
  rfl

theorem makes_of_mem_extract {client : String} {source : Path} {program : Node} {r : Request}
    (h : r ∈ extract client source program) : ∃ call body, Makes client source call { r with body } := by
  rw [extract_eq] at h
  obtain ⟨call, _, hmade⟩ := List.mem_filterMap.1 h
  exact ⟨call, makes_of_made? hmade⟩

/-- What is given is what should be, but for what is missing and for what is sent. -/
theorem Kept.sublist {client : String} {source : Path} {ns : List Node} {rs : List Request}
    (h : Kept client source ns rs) :
    ((ns.filterMap (made? client source)).map outline).Sublist (rs.map outline) := by
  induction h with
  | nil => exact .slnil
  | @keep n r ns rs h _ ih =>
    cases hmade : made? client source n with
    | none =>
      rw [List.filterMap_cons_none hmade]
      exact ih.cons _
    | some r' =>
      obtain ⟨body, hr'⟩ := makes_of_made? hmade
      rw [List.filterMap_cons_some hmade, h.unique hr']
      exact ih.cons_cons _
  | @pass n ns rs h _ ih =>
    rwa [List.filterMap_cons_none (made?_eq_none h)]

/-- Everything is given as it should be just if every call that makes a request is legible. -/
theorem Kept.eq_iff {client : String} {source : Path} {ns : List Node} {rs : List Request}
    (h : Kept client source ns rs) : ns.filterMap (made? client source) = rs ↔
      ∀ call ∈ ns, ∀ r, Makes client source call r → Legible call r := by
  induction h with
  | nil => simp
  | @keep n r ns rs h hrest ih =>
    have hn : (∀ r', Makes client source n r' → Legible n r') ↔ made? client source n = some r := by
      rw [h.made?_iff]
      exact ⟨fun hall => hall r h, fun hlegible r' hr' => h.unique hr' ▸ hlegible⟩
    rw [List.forall_mem_cons, hn, ← ih]
    cases hmade : made? client source n with
    | none =>
      -- what is missing here is not made up for by what follows
      have hle := hrest.sublist.length_le
      rw [List.filterMap_cons_none hmade]
      refine iff_of_false (fun heq => ?_) (fun heq => absurd heq.1 nofun)
      rw [heq, List.length_map, List.length_map, List.length_cons] at hle
      omega
    | some r' => rw [List.filterMap_cons_some hmade, List.cons.injEq, Option.some.injEq]
  | @pass n ns rs h _ ih =>
    rw [List.filterMap_cons_none (made?_eq_none h), ih, List.forall_mem_cons, and_iff_right fun r hr => absurd hr (h r)]

section
variable [Field.Validator] [Settings.LawfulValidator]

/-- The fields of a request with a URL pass every check of a request's fields. -/
theorem ofFields_of_url (source : Path) {r : Request} (h : r.url ≠ "") :
    ofFields (some (.string source.text)) (some (.string r.method.name)) (some (.string r.url)) r.body =
      .ok { r with source := Path.ofString source.text } := by
  have hsource : Field.Validator.path "source_path" (.string source.text) = .ok (Path.ofString source.text) :=
    (Settings.LawfulValidator.path_eq_ok_iff _).2 ⟨_, rfl, rfl⟩
  have hmethod : methodField "method" (.string r.method.name) = .ok r.method := by
    have hname : Method.ofName? r.method.name = some r.method := Method.ofName?_eq_some_iff.2 rfl
    simp [methodField, Datum.string, Datum.string?, hname]
  have htext : Field.Validator.string "url_template" (.string r.url) = .ok r.url :=
    (Settings.LawfulValidator.string_eq_ok_iff _).2 rfl
  have hurl : urlField "url_template" (.string r.url) = .ok r.url := by simp [urlField, htext, h]
  simp only [ofFields, needed, hsource, hmethod, hurl]

/-- **Extraction finds exactly the calls that make a request, once each, in the order of the source, just if no markup
comment stands in the way.**  Walking the named nodes in pre-order and keeping what each call makes gives the requests
that a script should have.  So there is one for each address at which a call stands that makes one, however deep inside
other calls; the addresses ascend.  What is extracted are these requests if every call that makes one is legible, and
only then; in any case it is some of them in their order, with the right source, method and URL, and passes the checks
of a request's fields. -/
theorem extract_iff (client : String) (source : Path) (program : Node) :
    ∃ rs, Kept client source program.preorder rs ∧
      (∃ addresses : List (List Nat), addresses.Pairwise (· < ·) ∧
        (∀ a, a ∈ addresses ↔ ∃ call r, program.at? a = some call ∧ Makes client source call r) ∧
        List.Forall₂ (fun a r => ∃ call, program.at? a = some call ∧ Makes client source call r) addresses rs) ∧
      (extract client source program = rs ↔
        ∀ call ∈ program.preorder, ∀ r, Makes client source call r → Legible call r) ∧
      ((extract client source program).map outline).Sublist (rs.map outline) ∧
      ∀ r ∈ extract client source program, ofFields (some (.string source.text)) (some (.string r.method.name))
        (some (.string r.url)) r.body = .ok { r with source := Path.ofString source.text } := by
  obtain ⟨rs, hkept⟩ := exists_kept client source program.preorder
  refine ⟨rs, hkept, ?_, ?_, ?_, ?_⟩
  · rw [← Node.addressed_map_snd] at hkept
    obtain ⟨addresses, hsub, hmem, hall⟩ := hkept.addresses
    simp only [Node.mem_addressed] at hmem hall
    exact ⟨addresses, (List.pairwise_map.2 program.pairwise_addressed).sublist hsub, hmem, hall⟩
  · rw [extract_eq, hkept.eq_iff]
  · rw [extract_eq]
    exact hkept.sublist
  · intro r hr
    obtain ⟨_, _, hmakes⟩ := makes_of_mem_extract hr
    exact ofFields_of_url source hmakes.url

end

/-! ## A call inside another -/

/-- A call in the second argument of another. -/
def nestedCalls : String := "axios.post('/a', [axios.get('/b')])"

theorem read_nestedCalls : (parse? nestedCalls).map (fun program =>
    ((extract "axios" Path.here program).map (·.url),
      program.preorder.all fun n => n.kind != .construct "html_comment")) = some (["/a", "/b"], true) := by
  decide +kernel

section
attribute [local instance] Field.Validator.lax Settings.LawfulValidator.lax

/-- The inner call comes after the outer one. -/
theorem extract_iff_nestedCalls : ∃ program rs, parse? nestedCalls = some program ∧
    Kept "axios" Path.here program.preorder rs ∧ extract "axios" Path.here program = rs ∧
    rs.map (·.url) = ["/a", "/b"] := by
  obtain ⟨program, hprogram, hread⟩ := Option.map_eq_some_iff.1 read_nestedCalls
  obtain ⟨hurls, hplain⟩ := Prod.mk.inj hread
  have hmarkup : ∀ n ∈ program.preorder, ¬ Literal.IsMarkup n := fun n hn hmarkup => by
    simpa [show n.kind = _ from hmarkup] using List.all_eq_true.1 hplain n hn
  obtain ⟨rs, hkept, _, hextract, _⟩ := extract_iff "axios" Path.here program
  have hrs := hextract.2 fun call hcall r hmakes => hmakes.legible_of_plain hcall hmarkup
  exact ⟨program, rs, hprogram, hkept, hrs, hrs ▸ hurls⟩

end

/-! ## A call with a markup comment -/

/-- A call whose first argument has a markup comment on the line above. -/
def markedCall : String := "axios.get(<!-- x\n'/a')"

/-- The first call of a source. -/
def firstCall (source : String) : Node := (((parse? source).map calls).bind List.head?).getD default

/-- What is read of it, and that nothing is extracted. -/
theorem read_markedCall :
    ((parse? markedCall).map fun program => (extract "axios" Path.here program).length) = some 0 ∧
    ((parse? markedCall).map fun program => (calls program).isEmpty) = some false ∧
    (firstCall markedCall).kind = .call ∧ (firstCall markedCall).child? .optionalChain = none ∧
    ((firstCall markedCall).child? .function).bind (clientMethod? "axios") = some .get ∧
    (((firstCall markedCall).child? .arguments).map fun list =>
      (list.kind, (argumentsOf list)[0]?.map fun first => (first.kind, Literal.stringValue first.chars))) =
        some (.arguments, some (.string, "/a")) := by
  decide +kernel

theorem makes_markedCall : Makes "axios" Path.here (firstCall markedCall) ⟨Path.here, .get, "/a", .null⟩ := by
  obtain ⟨_, _, hcall, hdirect, hcallee, harguments⟩ := read_markedCall
  obtain ⟨callee, hfunction, hm⟩ := Option.bind_eq_some_iff.1 hcallee
  obtain ⟨list, hlist, hshown⟩ := Option.map_eq_some_iff.1 harguments
  obtain ⟨hkind, hfirst⟩ := Prod.mk.inj hshown
  obtain ⟨first, hfirst, hstring⟩ := Option.map_eq_some_iff.1 hfirst
  obtain ⟨hstring, hurl⟩ := Prod.mk.inj hstring
  have hspells : Literal.Spells first "/a" := hurl ▸ .string hstring
  have hself : first.kind ≠ .parenthesized := by rw [hstring]; decide
  exact {
    shaped := ⟨list, ⟨hcall, hdirect, ⟨callee, hfunction, clientMethod?_eq_some_iff.1 hm⟩, hlist, hkind⟩,
      ⟨first, first, hfirst, .self hself, hspells⟩, sends_bodyOf .get (argumentsOf list)⟩
    url := by decide
    found := rfl }

/-- The markup comment is taken for the argument, and nothing is extracted of a call that makes a request. -/
theorem extract_markedCall : ¬ ∀ (client : String) (path : Path) (source : String) (program : Node),
    parse? source = some program →
      ∀ rs, Kept client path program.preorder rs → extract client path program = rs := by
  intro h
  obtain ⟨hnone, hsome, _⟩ := read_markedCall
  obtain ⟨program, hprogram, hlength⟩ := Option.map_eq_some_iff.1 hnone
  obtain ⟨rs, hkept⟩ := exists_kept "axios" Path.here program.preorder
  have hextract := h _ _ _ _ hprogram rs hkept
  have hmem : firstCall markedCall ∈ program.preorder := by
    rw [hprogram, Option.map_some, Option.some.injEq] at hsome
    rw [firstCall, hprogram, Option.map_some, Option.bind_some]
    cases hcalls : calls program with
    | nil => simp [hcalls] at hsome
    | cons call others =>
      have hcall : call ∈ calls program := hcalls ▸ List.mem_cons_self
      rw [calls_eq] at hcall
      exact (List.mem_filter.1 hcall).1
  rw [extract_eq] at hextract hlength
  have hmade := makes_markedCall.made?_iff.2 (hkept.eq_iff.1 hextract _ hmem _ makes_markedCall)
  have hgiven := List.mem_filterMap.2 ⟨_, hmem, hmade⟩
  rw [List.eq_nil_of_length_eq_zero hlength] at hgiven
  cases hgiven

end Request

end RequestAtlas
