import RequestAtlas.Proofs.Graph.Copying
/-!
# One text for one content

Trees are the `Same` if they differ only in the order of entries and in what is a list and what a tuple.  Main
statement `render_canonicalForm`: slots have the same text exactly if they hold trees that are the same, and a copy is
its own copy and has the text of what was copied.  Both directions go through `Tree.form`, the document that the text
of a tree reads back as: the text determines the document, and equal documents have equal texts (`render_eq_iff`).
-/

namespace RequestAtlas

/-! ## Texts and documents -/

/-- The text of a finite double is a number, so it is none of the words. -/
theorem NumberLayout.render_finite_ne (l : NumberLayout) {word : String} (hword : Json.number? word.toList = none)
    (s : Bool) (m : Nat) (e : Int) : l.render (.finite s m e) ≠ word := by
  intro heq
  have hnumber := Json.number?_finite l s m e
  rw [heq, hword] at hnumber
  cases hnumber

/-- The other words for what is no finite number do not change which doubles have the same text. -/
theorem NumberLayout.document_render_eq_iff (x y : Binary64) :
    document.render x = document.render y ↔ x.text = y.text := by
  have apart : ∀ {s m e} {z : Binary64}, Json.number? (document.render z).toList = none →
      Json.number? z.text.toList = none →
        (document.render (.finite s m e) = document.render z ↔ Binary64.text (.finite s m e) = z.text) := fun hd hp =>
    iff_of_false (document.render_finite_ne hd _ _ _) (plain.render_finite_ne hp _ _ _)
  match x, y with
  | .finite .., .finite .. => exact Iff.rfl
  | .finite .., .nan => exact apart rfl rfl
  | .finite .., .infinite s => cases s <;> exact apart rfl rfl
  | .nan, .finite .. => exact eq_comm.trans ((apart rfl rfl).trans eq_comm)
  | .infinite s, .finite .. => cases s <;> exact eq_comm.trans ((apart rfl rfl).trans eq_comm)
  | .nan, .nan => decide
  | .nan, .infinite s => cases s <;> decide
  | .infinite s, .nan => cases s <;> decide
  | .infinite s, .infinite s' => cases s <;> cases s' <;> decide

namespace Value

mutual

/-- Values that stand for the same document are written alike. -/
theorem write_eq_of_toJson_eq : ∀ {v w : Value}, v.toJson = w.toJson → ∀ level, write level v = write level w
  | null, w, h, _ => by cases w <;> first | rfl | cases h
  | bool b, w, h, _ => by cases w <;> cases h; rfl
  | int n, w, h, _ => by cases w <;> cases h; rfl
  | float x, w, h, level => by
    cases w with
    | float y => rw [write, write, Json.real.inj h]
    | _ => cases h
  | string s, w, h, _ => by cases w <;> cases h; rfl
  | list [], w, h, level => by
    cases w with
    | list ws =>
      cases ws with
      | nil => rfl
      | cons w ws => cases Json.list.inj h
    | _ => cases h
  | list (v :: vs), w, h, level => by
    cases w with
    | list ws =>
      cases ws with
      | nil => cases Json.list.inj h
      | cons w ws =>
        obtain ⟨hv, hvs⟩ := List.cons.inj (Json.list.inj h)
        rw [write, write, write_eq_of_toJson_eq hv, writeItems_eq_of_toJson_eq hvs]
    | _ => cases h
  | dict [], w, h, level => by
    cases w with
    | dict fs =>
      cases fs with
      | nil => rfl
      | cons f fs => cases Json.dict.inj h
    | _ => cases h
  | dict ((k, v) :: es), w, h, level => by
    cases w with
    | dict fs =>
      cases fs with
      | nil => cases Json.dict.inj h
      | cons f fs =>
        obtain ⟨k', w⟩ := f
        obtain ⟨he, hes⟩ := List.cons.inj (Json.dict.inj h)
        obtain ⟨rfl, hv⟩ := Prod.mk.inj he
        rw [write, write, write_eq_of_toJson_eq hv, writeEntries_eq_of_toJson_eq hes]
    | _ => cases h

theorem writeItems_eq_of_toJson_eq : ∀ {vs ws : List Value}, toJsonList vs = toJsonList ws →
    ∀ level, writeItems level vs = writeItems level ws
  | [], [], _, _ => rfl
  | [], _ :: _, h, _ => by cases h
  | _ :: _, [], h, _ => by cases h
  | v :: vs, w :: ws, h, level => by
    obtain ⟨hv, hvs⟩ := List.cons.inj h
    rw [writeItems, writeItems, write_eq_of_toJson_eq hv, writeItems_eq_of_toJson_eq hvs]

theorem writeEntries_eq_of_toJson_eq : ∀ {es fs : List (String × Value)}, toJsonEntries es = toJsonEntries fs →
    ∀ level, writeEntries level es = writeEntries level fs
  | [], [], _, _ => rfl
  | [], _ :: _, h, _ => by cases h
  | _ :: _, [], h, _ => by cases h
  | (k, v) :: es, (k', w) :: fs, h, level => by
    obtain ⟨he, hes⟩ := List.cons.inj h
    obtain ⟨rfl, hv⟩ := Prod.mk.inj he
    rw [writeEntries, writeEntries, write_eq_of_toJson_eq hv, writeEntries_eq_of_toJson_eq hes]

end

/-- Two values have the same text exactly if their canonical copies stand for the same document. -/
theorem render_eq_iff {v w : Value} (hv : v.Regular) (hw : w.Regular) :
    v.render = w.render ↔ v.canonical.toJson = w.canonical.toJson := by
  refine ⟨canonical_toJson_eq_of_render_eq hv.1 hw.1 hv.2 hw.2, fun h => ?_⟩
  rw [render_of_short hv.2, render_of_short hw.2, text, text, write_eq_of_toJson_eq h]

/-- Entries with distinct keys are sorted alike in whatever order they came. -/
theorem sortEntries_eq_of_perm {α : Type} {es fs : List (String × α)} (hp : es.Perm fs)
    (hn : (es.map (·.1)).Nodup) : sortEntries es = sortEntries fs := by
  have hkeys := (stableSort_sortEntries es).keys_eq (stableSort_sortEntries fs) hp
  have hsame := map_eq_of_map_eq (g := id) hkeys fun a ha b hb hab => by
    have ha' : a ∈ es := (sortEntries_perm es).mem_iff.1 ha
    have hb' : b ∈ es := hp.mem_iff.2 ((sortEntries_perm fs).mem_iff.1 hb)
    exact List.inj_on_of_nodup_map hn ha' hb' hab
  simpa using hsame

end Value

/-! ## Trees with the same content -/

/-- The same scalar.  Doubles are told apart by their texts. -/
def Scalar.Same : Scalar → Scalar → Prop
  | .float x, .float y => x.text = y.text
  | a, b => a = b

/-- Scalars are the same exactly if they stand for the same document. -/
theorem Scalar.same_iff (a b : Scalar) : a.Same b ↔ a.toValue.toJson = b.toValue.toJson := by
  cases a <;> cases b <;>
    simp [Same, toValue, Value.toJson, NumberLayout.document_render_eq_iff]

namespace Tree

/-- The items of a list or a tuple. -/
def items? : Tree → Option (List Tree)
  | list items => some items
  | tuple items => some items
  | _ => none

/-- The same content: whether items are in a list or a tuple does not matter, nor does the order of entries. -/
inductive Same : Tree → Tree → Prop
  | scalar {a b : Scalar} (h : a.Same b) : Same (.scalar a) (.scalar b)
  | sequence {v w : Tree} {pairs : List (Tree × Tree)} (hv : v.items? = some (pairs.map (·.1)))
      (hw : w.items? = some (pairs.map (·.2))) (h : ∀ p ∈ pairs, Same p.1 p.2) : Same v w
  | dict {es fs : List (String × Tree)} {parts : List (String × Tree × Tree)}
      (hes : es.Perm (parts.map fun p => (p.1, p.2.1))) (hfs : fs.Perm (parts.map fun p => (p.1, p.2.2)))
      (h : ∀ p ∈ parts, Same p.2.1 p.2.2) : Same (.dict es) (.dict fs)

/-- The document that the text of a tree reads back as. -/
def form (t : Tree) : Json := t.toValue.canonical.toJson

theorem form_scalar (a : Scalar) : form (.scalar a) = a.toValue.toJson := by
  cases a <;> rfl

theorem toValue_of_items {t : Tree} {ts : List Tree} (h : t.items? = some ts) :
    t.toValue = .list (ts.map toValue) := by
  cases t <;> cases h <;> rw [toValue, toValues_eq_map]

theorem form_of_items {t : Tree} {ts : List Tree} (h : t.items? = some ts) : t.form = .list (ts.map form) := by
  rw [form, toValue_of_items h, Value.toJson_canonical_list, List.map_map]
  rfl

theorem form_dict (es : List (String × Tree)) :
    form (.dict es) = .dict ((Value.sortEntries es).map fun e => (e.1, e.2.form)) := by
  rw [form, toValue, toEntries_eq_map, Value.canonical_dict, Value.toJson, Value.toJsonEntries_eq_map,
    Value.sortEntries_map toValue, List.map_map, List.map_map]
  rfl

theorem regular_of_items {t : Tree} {ts : List Tree} (h : t.items? = some ts) (ht : t.toValue.Regular) :
    ∀ u ∈ ts, u.toValue.Regular := by
  rw [toValue_of_items h] at ht
  exact List.forall_mem_map.1 ht.list

theorem regular_of_entries {es : List (String × Tree)} (h : (dict es).toValue.Regular) :
    (es.map (·.1)).Nodup ∧ ∀ e ∈ es, e.2.toValue.Regular := by
  rw [toValue, toEntries_eq_map] at h
  have hentries := h.dict
  rw [List.map_map, List.forall_mem_map] at hentries
  exact hentries

/-- Trees with the same content stand for the same document: sorting undoes the order of entries. -/
theorem Same.form_eq {v w : Tree} (h : v.Same w) : v.toValue.Regular → w.toValue.Regular → v.form = w.form := by
  induction h with
  | scalar h =>
    intro _ _
    rw [form_scalar, form_scalar]
    exact (Scalar.same_iff _ _).1 h
  | sequence hv hw _ ih =>
    intro hregular hregular'
    rw [form_of_items hv, form_of_items hw, List.map_map, List.map_map]
    refine congrArg Json.list (List.map_congr_left fun p hp => ih p hp ?_ ?_)
    · exact regular_of_items hv hregular _ (List.mem_map_of_mem hp)
    · exact regular_of_items hw hregular' _ (List.mem_map_of_mem hp)
  | @dict es fs parts hes hfs _ ih =>
    intro hregular hregular'
    obtain ⟨hn, hregular⟩ := regular_of_entries hregular
    obtain ⟨hn', hregular'⟩ := regular_of_entries hregular'
    rw [form_dict, form_dict, Value.sortEntries_eq_of_perm hes hn, Value.sortEntries_eq_of_perm hfs hn',
      Value.sortEntries_map fun q : Tree × Tree => q.1, Value.sortEntries_map fun q : Tree × Tree => q.2,
      List.map_map, List.map_map]
    refine congrArg Json.dict (List.map_congr_left fun p hp => Prod.ext rfl ?_)
    have hmem : p ∈ parts := (Value.sortEntries_perm parts).mem_iff.1 hp
    exact ih p hmem (hregular _ (hes.mem_iff.2 (List.mem_map_of_mem hmem)))
      (hregular' _ (hfs.mem_iff.2 (List.mem_map_of_mem hmem)))

/-- Two lists with the same image are the halves of a list of pairs. -/
theorem exists_pairs_of_map_eq {α β γ : Type} {f : α → γ} {f' : β → γ} : ∀ {l : List α} {l' : List β},
    l.map f = l'.map f' →
      ∃ pairs : List (α × β), pairs.map (·.1) = l ∧ pairs.map (·.2) = l' ∧ ∀ p ∈ pairs, f p.1 = f' p.2
  | [], [], _ => ⟨[], rfl, rfl, by simp⟩
  | [], _ :: _, h => by simp at h
  | _ :: _, [], h => by simp at h
  | a :: l, b :: l', h => by
    rw [List.map_cons, List.map_cons, List.cons.injEq] at h
    obtain ⟨pairs, rfl, rfl, hpairs⟩ := exists_pairs_of_map_eq h.2
    exact ⟨(a, b) :: pairs, rfl, rfl, List.forall_mem_cons.2 ⟨h.1, hpairs⟩⟩

/-- Sequences that stand for the same document have the same content if their items do. -/
theorem same_of_items {v w : Tree} {ts us : List Tree} (hv : v.items? = some ts) (hw : w.items? = some us)
    (hform : v.form = w.form) (h : ∀ t ∈ ts, ∀ {u : Tree}, t.form = u.form → t.Same u) : v.Same w := by
  rw [form_of_items hv, form_of_items hw] at hform
  obtain ⟨pairs, rfl, rfl, hpairs⟩ := exists_pairs_of_map_eq (Json.list.inj hform)
  exact .sequence hv hw fun p hp => h p.1 (List.mem_map_of_mem hp) (hpairs p hp)

/-- Dictionaries that stand for the same document have the same content if their entries do. -/
theorem same_of_entries {es fs : List (String × Tree)} (hform : form (.dict es) = form (.dict fs))
    (h : ∀ e ∈ es, ∀ {u : Tree}, e.2.form = u.form → e.2.Same u) : (dict es).Same (.dict fs) := by
  rw [form_dict, form_dict] at hform
  obtain ⟨pairs, hes, hfs, hpairs⟩ := exists_pairs_of_map_eq (Json.dict.inj hform)
  -- the entries that stand side by side once they are sorted
  refine @Same.dict es fs (pairs.map fun p => (p.1.1, p.1.2, p.2.2)) ?_ ?_ ?_
  · rw [List.map_map]
    exact hes ▸ (Value.sortEntries_perm es).symm
  · have hsnd : pairs.map (fun p => (p.1.1, p.2.2)) = pairs.map (·.2) :=
      List.map_congr_left fun p hp => Prod.ext (Prod.mk.inj (hpairs p hp)).1 rfl
    rw [List.map_map]
    exact (hsnd.trans hfs) ▸ (Value.sortEntries_perm fs).symm
  · rw [List.forall_mem_map]
    intro p hp
    have hmem : p.1 ∈ es := (Value.sortEntries_perm es).mem_iff.1 (hes ▸ List.mem_map_of_mem hp)
    exact h p.1 hmem (Prod.mk.inj (hpairs p hp)).2

mutual

/-- Trees that stand for the same document have the same content. -/
theorem same_of_form_eq : ∀ {v w : Tree}, v.form = w.form → v.Same w
  | scalar a, w, h => by
    rw [form_scalar] at h
    cases w with
    | scalar b => exact .scalar ((Scalar.same_iff a b).2 (h.trans (form_scalar b)))
    | dict fs => rw [form_dict] at h; cases a <;> cases h
    | _ => rw [form_of_items rfl] at h; cases a <;> cases h
  | list ts, w, h | tuple ts, w, h => by
    cases w with
    | scalar b => rw [form_of_items rfl, form_scalar] at h; cases b <;> cases h
    | dict fs => rw [form_of_items rfl, form_dict] at h; cases h
    | _ => exact same_of_items rfl rfl h (same_of_form_eq_list ts)
  | dict es, w, h => by
    cases w with
    | scalar b => rw [form_dict, form_scalar] at h; cases b <;> cases h
    | dict fs => exact same_of_entries h (same_of_form_eq_entries es)
    | _ => rw [form_dict, form_of_items rfl] at h; cases h

theorem same_of_form_eq_list : ∀ (ts : List Tree), ∀ t ∈ ts, ∀ {u : Tree}, t.form = u.form → t.Same u
  | [] => by simp
  | _ :: ts => List.forall_mem_cons.2 ⟨same_of_form_eq, same_of_form_eq_list ts⟩

theorem same_of_form_eq_entries : ∀ (es : List (String × Tree)), ∀ e ∈ es, ∀ {u : Tree},
    e.2.form = u.form → e.2.Same u
  | [] => by simp
  | (_, _) :: es => List.forall_mem_cons.2 ⟨same_of_form_eq, same_of_form_eq_entries es⟩

end

/-- **Trees with distinct keys have the same content exactly if they have the same text.** -/
theorem same_iff {v w : Tree} (hv : v.toValue.Regular) (hw : w.toValue.Regular) :
    v.toValue.render = w.toValue.render ↔ v.Same w :=
  (Value.render_eq_iff hv hw).trans ⟨same_of_form_eq, fun h => h.form_eq hv hw⟩

end Tree

/-! ## Values in graphs -/

namespace Graph

/-- A value lies at a slot of a regular graph. -/
structure Stores (g : Graph) (s : Slot) (v : Value) : Prop where
  regular : g.Regular
  admits : g.Admits s
  holds : ∃ t, g.Holds s t ∧ t.toValue = v

section
variable {g k : Graph} {s : Slot} {t : Tree} {v : Value}

/-- **A value has one copy and one text wherever it lies.** -/
theorem Stores.canonical (h : g.Stores s v) : g.canonical s = .ok (.ofValue v.canonical) := by
  obtain ⟨t, ht, rfl⟩ := h.holds
  exact h.regular.canonical_holds ht

theorem Stores.render (h : g.Stores s v) : g.render s = v.render := by
  obtain ⟨t, ht, rfl⟩ := h.holds
  exact h.regular.render_holds h.admits ht

theorem Admits.mono (hgk : g.containers <+: k.containers) (h : g.Admits s) : k.Admits s := by
  cases s with
  | scalar a => cases a <;> exact h
  | ref i => exact Nat.lt_of_lt_of_le h hgk.length_le

/-- Further containers do not change what a slot holds. -/
theorem Holds.mono (hgk : g.containers <+: k.containers) (h : g.Holds s t) : k.Holds s t := by
  have keeps : ∀ {i : Nat} {c : Container}, g.containers[i]? = some c → k.containers[i]? = some c := by
    intro i c hc
    obtain ⟨more, hmore⟩ := hgk
    rw [← hmore, List.getElem?_append_left (List.getElem?_eq_some_iff.1 hc).1, hc]
  induction h with
  | scalar a => exact .scalar a
  | list hc _ ih => exact .list (keeps hc) ih
  | tuple hc _ ih => exact .tuple (keeps hc) ih
  | dict hc _ ih => exact .dict (keeps hc) ih

/-- A container of slots that are there already may be added. -/
theorem Regular.push (hg : g.Regular) {c : Container} (hslots : ∀ s ∈ c.slots, g.Admits s)
    (hkeys : ∀ entries, c = .dict entries → (entries.map (·.1)).Nodup ∧ ∀ e ∈ entries, e.1.isString) :
    Regular ⟨g.containers ++ [c]⟩ where
  slots := by
    rw [List.forall_mem_append, List.forall_mem_singleton]
    exact ⟨fun c hc s hs => (hg.slots c hc s hs).mono (List.prefix_append _ _),
      fun s hs => (hslots s hs).mono (List.prefix_append _ _)⟩
  keys := by
    intro entries hmem
    rcases List.mem_append.1 hmem with hmem | hmem
    · exact hg.keys entries hmem
    · exact hkeys entries (List.mem_singleton.1 hmem).symm

end

/-- A value for which every graph has room. -/
def Storable (v : Value) : Prop :=
  ∀ g : Graph, g.Regular → ∃ k : Graph, g.containers <+: k.containers ∧ ∃ s, k.Stores s v

/-- Values are stored one after the other. -/
theorem exists_stored_all {α : Type} {value : α → Value} : ∀ {l : List α}, (∀ a ∈ l, Storable (value a)) →
    ∀ {g : Graph}, g.Regular → ∃ k : Graph, g.containers <+: k.containers ∧ k.Regular ∧
      ∃ parts : List (α × Slot × Tree), parts.map (·.1) = l ∧
        ∀ p ∈ parts, k.Admits p.2.1 ∧ k.Holds p.2.1 p.2.2 ∧ p.2.2.toValue = value p.1
  | [], _, g, hg => ⟨g, List.prefix_rfl, hg, [], rfl, by simp⟩
  | a :: l, h, g, hg => by
    rw [List.forall_mem_cons] at h
    obtain ⟨k, hgk, s, hk, hs, t, ht, hvalue⟩ := h.1 g hg
    obtain ⟨k', hkk', hk', parts, rfl, hparts⟩ := exists_stored_all h.2 hk
    exact ⟨k', hgk.trans hkk', hk', (a, s, t) :: parts, rfl,
      List.forall_mem_cons.2 ⟨⟨hs.mono hkk', ht.mono hkk', hvalue⟩, hparts⟩⟩

/-- A container is stored behind its parts. -/
theorem exists_stored_push {k : Graph} (hk : k.Regular) {c : Container} {t : Tree}
    (hslots : ∀ s ∈ c.slots, k.Admits s)
    (hkeys : ∀ entries, c = .dict entries → (entries.map (·.1)).Nodup ∧ ∀ e ∈ entries, e.1.isString)
    (ht : ∀ {k' : Graph}, k.containers <+: k'.containers → k'.containers[k.containers.length]? = some c →
      k'.Holds (.ref k.containers.length) t) :
    ∃ k' : Graph, k.containers <+: k'.containers ∧ ∃ s, k'.Stores s t.toValue := by
  have hpush : k.containers <+: k.containers ++ [c] := List.prefix_append _ _
  refine ⟨⟨k.containers ++ [c]⟩, hpush, .ref k.containers.length, hk.push hslots hkeys, ?_, t, ht hpush ?_, rfl⟩
  · simp [Admits]
  · simp

theorem storable_list {vs : List Value} (h : ∀ v ∈ vs, Storable v) : Storable (.list vs) := by
  intro g hg
  obtain ⟨k, hgk, hk, parts, rfl, hparts⟩ := exists_stored_all h hg
  obtain ⟨k', hkk', s, hs⟩ := exists_stored_push hk (c := .list ((parts.map (·.2)).map (·.1)))
    (t := .list ((parts.map (·.2)).map (·.2))) (by simpa [Container.slots] using fun s v t hp => (hparts _ hp).1)
    (fun _ h => by cases h)
    (fun hkk' hc => .list hc (List.forall_mem_map.2 fun p hp => (hparts p hp).2.1.mono hkk'))
  have hvalue : (Tree.list ((parts.map (·.2)).map (·.2))).toValue = .list (parts.map (·.1)) := by
    rw [Tree.toValue, Tree.toValues_eq_map, List.map_map, List.map_map]
    exact congrArg Value.list (List.map_congr_left fun p hp => (hparts p hp).2.2)
  exact ⟨k', hgk.trans hkk', s, hvalue ▸ hs⟩

theorem storable_dict {es : List (String × Value)} (hn : (es.map (·.1)).Nodup) (h : ∀ e ∈ es, Storable e.2) :
    Storable (.dict es) := by
  intro g hg
  obtain ⟨k, hgk, hk, parts, rfl, hparts⟩ := exists_stored_all h hg
  -- each part with its key
  let keyed := parts.map fun p => (p.1.1, p.2)
  have hslots : ∀ s ∈ (Container.dict (keyed.map fun p => (.string p.1, p.2.1))).slots, k.Admits s := by
    simp only [keyed, Container.slots, List.forall_mem_map]
    exact fun p hp => (hparts p hp).1
  have hkeys : ((keyed.map fun p => (Scalar.string p.1, p.2.1)).map (·.1)).Nodup ∧
      ∀ e ∈ keyed.map fun p => (Scalar.string p.1, p.2.1), e.1.isString = true := by
    refine ⟨?_, List.forall_mem_map.2 fun p _ => rfl⟩
    have hstrings := hn.map (f := Scalar.string) fun a b => Scalar.string.inj
    simp only [keyed, List.map_map] at hstrings ⊢
    exact hstrings
  obtain ⟨k', hkk', s, hs⟩ := exists_stored_push hk (c := .dict (keyed.map fun p => (.string p.1, p.2.1)))
    (t := .dict (keyed.map fun p => (p.1, p.2.2)))
    hslots (fun _ h => by cases h; exact hkeys)
    (fun hkk' hc => .dict hc (List.forall_mem_map.2 fun p hp => (hparts p hp).2.1.mono hkk'))
  have hvalue : (Tree.dict (keyed.map fun p => (p.1, p.2.2))).toValue = .dict (parts.map (·.1)) := by
    rw [Tree.toValue, Tree.toEntries_eq_map, List.map_map, List.map_map]
    exact congrArg Value.dict (List.map_congr_left fun p hp => Prod.ext rfl (hparts p hp).2.2)
  exact ⟨k', hgk.trans hkk', s, hvalue ▸ hs⟩

mutual

/-- Every value that has a text that reads back lies at some slot of some graph. -/
theorem storable : ∀ {v : Value}, v.Regular → Storable v
  | .null => fun _ g hg => ⟨g, List.prefix_rfl, .scalar .null, hg, trivial, _, .scalar _, rfl⟩
  | .bool b => fun _ g hg => ⟨g, List.prefix_rfl, .scalar (.bool b), hg, trivial, _, .scalar _, rfl⟩
  | .int n => fun h g hg => ⟨g, List.prefix_rfl, .scalar (.int n), hg, h.2, _, .scalar _, rfl⟩
  | .float x => fun _ g hg => ⟨g, List.prefix_rfl, .scalar (.float x), hg, trivial, _, .scalar _, rfl⟩
  | .string s => fun _ g hg => ⟨g, List.prefix_rfl, .scalar (.string s), hg, trivial, _, .scalar _, rfl⟩
  | .list vs => fun h => storable_list (storable_items vs (Value.Regular.list h))
  | .dict es => fun h => storable_dict (Value.Regular.dict h).1 (storable_entries es (Value.Regular.dict h).2)

theorem storable_items : ∀ vs : List Value, (∀ v ∈ vs, v.Regular) → ∀ v ∈ vs, Storable v
  | [], _ => by simp
  | _ :: vs, h => by
    rw [List.forall_mem_cons] at h ⊢
    exact ⟨storable h.1, storable_items vs h.2⟩

theorem storable_entries : ∀ es : List (String × Value), (∀ e ∈ es, e.2.Regular) → ∀ e ∈ es, Storable e.2
  | [], _ => by simp
  | (_, _) :: es, h => by
    rw [List.forall_mem_cons] at h ⊢
    exact ⟨storable h.1, storable_entries es h.2⟩

end

/-! ## The canonical form -/

/-- **The text is a canonical form.**  Two slots that hold trees have texts, and the same text exactly if the trees
differ in nothing but the order of entries and what is a list and what a tuple.  The copy that is made of a tree can
be stored, and wherever it is stored its copy is itself and its text the text of the tree. -/
theorem render_canonicalForm {g k : Graph} {s r : Slot} {v w : Tree} (hg : g.Regular) (hk : k.Regular)
    (hs : g.Admits s) (hr : k.Admits r) (hv : g.Holds s v) (hw : k.Holds r w) :
    (∃ text, g.render s = .ok text ∧ (k.render r = .ok text ↔ v.Same w)) ∧
    ∃ copy : Value, g.canonical s = .ok (.ofValue copy) ∧ (∃ g' s', Stores g' s' copy) ∧
      ∀ g' s', Stores g' s' copy → g'.canonical s' = .ok (.ofValue copy) ∧ g'.render s' = g.render s := by
  have hvr := hg.regular_holds hv hs
  have hwr := hk.regular_holds hw hr
  have hsv : g.Stores s v.toValue := ⟨hg, hs, v, hv, rfl⟩
  have hrw : k.Stores r w.toValue := ⟨hk, hr, w, hw, rfl⟩
  constructor
  · refine ⟨_, hsv.render.trans (Value.render_of_short hvr.2), ?_⟩
    rw [hrw.render, ← Value.render_of_short hvr.2, eq_comm, Tree.same_iff hvr hwr]
  · refine ⟨v.toValue.canonical, hsv.canonical, ?_, fun g' s' h => ?_⟩
    · obtain ⟨g', _, s', hstores⟩ := storable hvr.canonical g hg
      exact ⟨g', s', hstores⟩
    · rw [h.canonical, h.render, hsv.render, Value.canonical_canonical, Value.render_canonical hvr]
      exact ⟨rfl, rfl⟩

/-- A list in a dictionary. -/
def listInDict : Graph where
  containers := [.list [.scalar .null], .dict [(.string "b", .ref 0), (.string "a", .scalar .null)]]

/-- A tuple in a dictionary with its entries the other way around. -/
def tupleInDict : Graph where
  containers := [.tuple [.scalar .null], .dict [(.string "a", .scalar .null), (.string "b", .ref 0)]]

/-- The two have the same text; one and true have not. -/
theorem render_canonicalForm_reordered : listInDict.render (.ref 1) = tupleInDict.render (.ref 1) ∧
    Graph.render ⟨[]⟩ (.scalar (.int 1)) ≠ Graph.render ⟨[]⟩ (.scalar (.bool true)) := by
  constructor
  · have hlist : listInDict.Regular :=
      ⟨by simp [listInDict, Container.slots, Admits], fun _ h => by simp [listInDict] at h; subst h; decide⟩
    have htuple : tupleInDict.Regular :=
      ⟨by simp [tupleInDict, Container.slots, Admits], fun _ h => by simp [tupleInDict] at h; subst h; decide⟩
    have hitems : listInDict.Holds (.ref 0) (.list [.scalar .null]) :=
      @Holds.list _ 0 [(.scalar .null, .scalar .null)] rfl (by simp [Holds.scalar])
    have hitems' : tupleInDict.Holds (.ref 0) (.tuple [.scalar .null]) :=
      @Holds.tuple _ 0 [(.scalar .null, .scalar .null)] rfl (by simp [Holds.scalar])
    have hv : listInDict.Holds (.ref 1) (.dict [("b", .list [.scalar .null]), ("a", .scalar .null)]) :=
      @Holds.dict _ 1 [("b", .ref 0, _), ("a", .scalar .null, .scalar .null)] rfl (by simp [hitems, Holds.scalar])
    have hw : tupleInDict.Holds (.ref 1) (.dict [("a", .scalar .null), ("b", .tuple [.scalar .null])]) :=
      @Holds.dict _ 1 [("a", .scalar .null, .scalar .null), ("b", .ref 0, _)] rfl (by simp [hitems', Holds.scalar])
    have hnull : Tree.Same (.scalar .null) (.scalar .null) := .scalar rfl
    have hsequence : Tree.Same (.list [.scalar .null]) (.tuple [.scalar .null]) :=
      @Tree.Same.sequence _ _ [(.scalar .null, .scalar .null)] rfl rfl (by simpa using hnull)
    have hsame : Tree.Same (.dict [("b", .list [.scalar .null]), ("a", .scalar .null)])
        (.dict [("a", .scalar .null), ("b", .tuple [.scalar .null])]) :=
      @Tree.Same.dict _ _ [("b", .list [.scalar .null], .tuple [.scalar .null]), ("a", .scalar .null, .scalar .null)]
        (List.Perm.refl _) (List.Perm.swap _ _ _) (by simpa using ⟨hsequence, hnull⟩)
    obtain ⟨text, htext, hiff⟩ := (render_canonicalForm hlist htuple (s := .ref 1) (r := .ref 1)
      (by simp [Admits, listInDict]) (by simp [Admits, tupleInDict]) hv hw).1
    exact htext.trans (hiff.2 hsame).symm
  · have hempty : Graph.Regular ⟨[]⟩ := ⟨by simp, by simp⟩
    have hshort : Value.isLong 1 = false := by decide +kernel
    obtain ⟨text, htext, hiff⟩ := (render_canonicalForm hempty hempty (s := .scalar (.int 1))
      (r := .scalar (.bool true)) hshort trivial (.scalar _) (.scalar _)).1
    rw [htext]
    intro heq
    cases hiff.1 heq.symm with
    | scalar h => cases h
    | sequence hv => cases hv

end Graph

end RequestAtlas
