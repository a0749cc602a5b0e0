import RequestAtlas.Proofs.Graph.Unfolding
import RequestAtlas.Proofs.Results
import RequestAtlas.Proofs.Values
/-!
# Copying a graph

The containers being copied are kept so that a container which contains itself is not entered for ever.  Main
statement `cycle_guard`: where no container contains itself the guard is never met, and the copy is the canonical
copy of the tree that is held, each shared container in full wherever it stands; writing fails exactly where some
container does contain itself.
-/

namespace RequestAtlas

/-! ## Copies of values -/

namespace Copy

mutual

/-- A value as a copy in which no container was left as it is. -/
def ofValue : Value → Copy
  | .null => .scalar .null
  | .bool b => .scalar (.bool b)
  | .int n => .scalar (.int n)
  | .float x => .scalar (.float x)
  | .string s => .scalar (.string s)
  | .list items => .list (ofValues items)
  | .dict entries => .dict (ofEntries entries)

/-- Apply `ofValue` to each item. -/
def ofValues : List Value → List Copy
  | [] => []
  | v :: vs => ofValue v :: ofValues vs

/-- Apply `ofValue` to each entry. -/
def ofEntries : List (String × Value) → List (String × Copy)
  | [] => []
  | (k, v) :: es => (k, ofValue v) :: ofEntries es

end

theorem ofValue_scalar (a : Scalar) : ofValue a.toValue = .scalar a := by
  cases a <;> rfl

theorem ofValues_eq_map (vs : List Value) : ofValues vs = vs.map ofValue := by
  induction vs with
  | nil => rfl
  | cons v vs ih => rw [ofValues, ih, List.map_cons]

theorem ofEntries_eq_map (es : List (String × Value)) : ofEntries es = es.map fun e => (e.1, ofValue e.2) := by
  induction es with
  | nil => rfl
  | cons e es ih => rw [ofEntries, ih, List.map_cons]

mutual

theorem toValue_ofValue : ∀ v : Value, (ofValue v).toValue = v
  | .null => rfl
  | .bool _ => rfl
  | .int _ => rfl
  | .float _ => rfl
  | .string _ => rfl
  | .list vs => by rw [ofValue, toValue, toValues_ofValues vs]
  | .dict es => by rw [ofValue, toValue, toEntries_ofEntries es]

theorem toValues_ofValues : ∀ vs : List Value, toValues (ofValues vs) = vs
  | [] => rfl
  | v :: vs => by rw [ofValues, toValues, toValue_ofValue v, toValues_ofValues vs]

theorem toEntries_ofEntries : ∀ es : List (String × Value), toEntries (ofEntries es) = es
  | [] => rfl
  | (k, v) :: es => by rw [ofEntries, toEntries, toValue_ofValue v, toEntries_ofEntries es]

end

end Copy

/-- The items of a list or a tuple. -/
def Container.items? : Container → Option (List Slot)
  | list items => some items
  | tuple items => some items
  | dict _ => none

namespace Graph

variable {g : Graph}

theorem copiesFault?_eq_findSome? : ∀ cs : List Copy, g.copiesFault? cs = cs.findSome? g.copyFault?
  | [] => rfl
  | c :: cs => by
    rw [copiesFault?, copiesFault?_eq_findSome? cs, List.findSome?_cons]
    cases g.copyFault? c <;> rfl

theorem entriesFault?_eq_findSome? : ∀ es : List (String × Copy),
    g.entriesFault? es = es.findSome? fun e => g.copyFault? e.2
  | [] => rfl
  | (k, c) :: es => by
    rw [entriesFault?, entriesFault?_eq_findSome? es, List.findSome?_cons]
    cases g.copyFault? c <;> rfl

mutual

/-- A value whose integers can be written has no fault. -/
theorem copyFault?_ofValue : ∀ {v : Value}, v.hasLong = false → g.copyFault? (Copy.ofValue v) = none
  | .null => fun _ => rfl
  | .bool _ => fun _ => rfl
  | .int n => fun h => by
    rw [Value.hasLong] at h
    rw [Copy.ofValue, copyFault?, h]
    rfl
  | .float _ => fun _ => rfl
  | .string _ => fun _ => rfl
  | .list vs => fun h => copiesFault?_ofValues h
  | .dict es => fun h => entriesFault?_ofEntries h

theorem copiesFault?_ofValues : ∀ {vs : List Value}, Value.hasLongList vs = false →
    g.copiesFault? (Copy.ofValues vs) = none
  | [], _ => rfl
  | v :: vs, h => by
    rw [Value.hasLongList, Bool.or_eq_false_iff] at h
    rw [Copy.ofValues, copiesFault?, copyFault?_ofValue h.1, copiesFault?_ofValues h.2]
    rfl

theorem entriesFault?_ofEntries : ∀ {es : List (String × Value)}, Value.hasLongEntries es = false →
    g.entriesFault? (Copy.ofEntries es) = none
  | [], _ => rfl
  | (k, v) :: es, h => by
    rw [Value.hasLongEntries, Bool.or_eq_false_iff] at h
    rw [Copy.ofEntries, entriesFault?, copyFault?_ofValue h.1, entriesFault?_ofEntries h.2]
    rfl

end

/-! ## The copy of a container from the copies of its parts -/

section
variable {active : List Nat} {i : Nat} {α : Type} (slot : α → Slot) (copied : α → Copy)

theorem copy_of_mem (hi : i ∈ active) : g.copy active (.ref i) = .ok (.same i) := by
  rw [copy, if_pos (List.contains_iff_mem.2 hi)]

/-- The copy of a list or a tuple is the list of the copies of its items. -/
theorem copy_sequence {c : Container} {parts : List α} (hi : i ∉ active) (hc : g.containers[i]? = some c)
    (hitems : c.items? = some (parts.map slot)) (h : ∀ p ∈ parts, g.copy (i :: active) (slot p) = .ok (copied p)) :
    g.copy active (.ref i) = .ok (.list (parts.map copied)) := by
  have hparts := Results.mapM_map_eq_ok h
  rw [copy, if_neg (by simpa using hi)]
  cases c <;> cases hitems <;> split <;> simp_all

/-- Keys that are texts are put in order as they are. -/
theorem orderedEntries_texts (texts : List (String × Slot)) :
    orderedEntries (texts.map fun e => (.string e.1, e.2)) = .ok (Value.sortEntries texts) := by
  have htexts : (texts.map fun e => (Scalar.string e.1, e.2)).mapM
      (fun e : Scalar × Slot => (e.1.keyText).bind fun k => Except.ok (ε := RenderError) (k, e.2)) =
        .ok (texts.map id) :=
    Results.mapM_map_eq_ok fun _ _ => rfl
  rw [List.map_id] at htexts
  exact congrArg (fun r => r.bind fun es => Except.ok (Value.sortEntries es)) htexts

/-- Entries with distinct keys are put into an empty dictionary as they are. -/
theorem foldl_put_eq {es : List (String × Copy)} (h : (es.map (·.1)).Nodup) :
    es.foldl (fun es e => Value.put es e.1 e.2) [] = es := by
  suffices hall : ∀ (back front : List (String × Copy)), ((front ++ back).map (·.1)).Nodup →
      back.foldl (fun es e => Value.put es e.1 e.2) front = front ++ back from hall es [] h
  intro back
  induction back with
  | nil => intro front _; simp
  | cons e back ih =>
    intro front hn
    have hnew : e.1 ∉ front.map (·.1) := by
      rw [List.map_append, List.nodup_append] at hn
      exact fun hmem => hn.2.2 _ hmem _ (by simp) rfl
    rw [List.foldl_cons, Value.put_of_notMem _ hnew, ih _ (by simpa using hn)]
    simp

theorem copy_dict {parts : List (String × α)} (hi : i ∉ active) (hn : (parts.map (·.1)).Nodup)
    (hc : g.containers[i]? = some (.dict (parts.map fun p => (.string p.1, slot p.2))))
    (h : ∀ p ∈ parts, g.copy (i :: active) (slot p.2) = .ok (copied p.2)) :
    g.copy active (.ref i) = .ok (.dict ((Value.sortEntries parts).map fun p => (p.1, copied p.2))) := by
  have hordered : orderedEntries (parts.map fun p => (.string p.1, slot p.2)) =
      .ok ((Value.sortEntries parts).map fun p => (p.1, slot p.2)) := by
    rw [← Value.sortEntries_map slot, ← orderedEntries_texts, List.map_map]
    rfl
  have hcopies : ((Value.sortEntries parts).map fun p => (p.1, slot p.2)).mapM
      (fun e : String × Slot => (g.copy (i :: active) e.2).bind fun c => .ok (e.1, c)) =
      .ok ((Value.sortEntries parts).map fun p => (p.1, copied p.2)) := by
    refine Results.mapM_map_eq_ok fun p hp => ?_
    rw [h p ((Value.sortEntries_perm parts).mem_iff.1 hp)]
    rfl
  have hkeys : (((Value.sortEntries parts).map fun p => (p.1, copied p.2)).map (·.1)).Nodup := by
    rw [List.map_map]
    exact (Value.keys_sortEntries_perm parts).nodup_iff.2 hn
  have hstep : g.copy active (.ref i) =
      (orderedEntries (parts.map fun p => (.string p.1, slot p.2)) >>= fun ordered =>
        (ordered.mapM fun e => (g.copy (i :: active) e.2).bind fun c => .ok (e.1, c)) >>= fun copies =>
          .ok (.dict (copies.foldl (fun es e => Value.put es e.1 e.2) []))) := by
    rw [copy, if_neg (by simpa using hi)]
    split <;> simp_all
    rfl
  rw [hstep]
  exact Results.bind_eq_ok_iff.2 ⟨_, hordered, Results.bind_eq_ok_iff.2 ⟨_, hcopies, by rw [foldl_put_eq hkeys]⟩⟩

end

/-! ## The copy of a slot that holds a tree -/

/-- What is active around a container, and the container itself, is not reached from its parts. -/
theorem not_reaches_slot {active : List Nat} {i : Nat} {c : Container} {s : Slot} (hc : g.containers[i]? = some c)
    (hs : s ∈ c.slots) (hcyclic : ¬ g.Cyclic (.ref i)) (hactive : ∀ j ∈ active, ¬ g.Reaches (.ref i) j) :
    ∀ j ∈ i :: active, ¬ g.Reaches s j := by
  intro j hj hreach
  have hbehind := transGen_of_reaches hc hs hreach
  rcases List.mem_cons.1 hj with rfl | hj
  · exact hcyclic ⟨j, .refl, hbehind⟩
  · exact hactive j hj hbehind.to_reflTransGen

/-- **The copy of a slot that holds a tree is the canonical copy of the tree**, whatever is active around it and
not reached from it: the copy is never cut short. -/
theorem Regular.copy_holds (hg : g.Regular) {s : Slot} {t : Tree} (h : g.Holds s t) :
    ∀ {active : List Nat}, (∀ i ∈ active, ¬ g.Reaches s i) →
      g.copy active s = .ok (.ofValue t.toValue.canonical) := by
  -- by induction on the tree; the container that is entered becomes active for its parts
  induction h with
  | scalar a =>
    intro active _
    have hcanonical : a.toValue.canonical = a.toValue := by cases a <;> rfl
    rw [copy, Tree.toValue, hcanonical, Copy.ofValue_scalar]
  | list hc h ih =>
    intro active hactive
    have hcyclic := (Holds.list hc h).not_cyclic
    rw [copy_sequence Prod.fst _ (fun hi => hactive _ hi .refl) hc rfl fun p hp =>
      ih p hp (not_reaches_slot hc (List.mem_map_of_mem hp) hcyclic hactive)]
    rw [Tree.toValue, Value.canonical_list, Copy.ofValue, Copy.ofValues_eq_map, Tree.toValues_eq_map]
    simp
  | tuple hc h ih =>
    intro active hactive
    have hcyclic := (Holds.tuple hc h).not_cyclic
    rw [copy_sequence Prod.fst _ (fun hi => hactive _ hi .refl) hc rfl fun p hp =>
      ih p hp (not_reaches_slot hc (List.mem_map_of_mem hp) hcyclic hactive)]
    rw [Tree.toValue, Value.canonical_list, Copy.ofValue, Copy.ofValues_eq_map, Tree.toValues_eq_map]
    simp
  | dict hc h ih =>
    intro active hactive
    have hcyclic := (Holds.dict hc h).not_cyclic
    have hcopy := copy_dict Prod.fst (fun q => .ofValue q.2.toValue.canonical)
      (fun hi => hactive _ hi .refl) (hg.nodup Prod.fst hc) hc fun p hp =>
        ih p hp (not_reaches_slot hc (List.mem_map.2 ⟨_, List.mem_map_of_mem hp, rfl⟩) hcyclic hactive)
    rw [hcopy, Tree.toValue, Value.canonical_dict, Copy.ofValue, Copy.ofEntries_eq_map, Tree.toEntries_eq_map,
      Value.sortEntries_map Tree.toValue, Value.sortEntries_map fun q : Slot × Tree => q.2]
    simp

/-- A tree that a regular graph holds has a text that reads back. -/
theorem Regular.regular_holds (hg : g.Regular) {s : Slot} {t : Tree} (h : g.Holds s t) :
    g.Admits s → t.toValue.Regular := by
  induction h with
  | scalar a =>
    intro hs
    cases a with
    | int n => exact ⟨rfl, hs⟩
    | _ => exact ⟨rfl, rfl⟩
  | list hc _ ih | tuple hc _ ih =>
    intro _
    rw [Tree.toValue, Tree.toValues_eq_map]
    refine Value.regular_list ?_
    simp only [List.forall_mem_map]
    exact fun p hp => ih p hp (hg.admits hc _ (List.mem_map_of_mem hp))
  | dict hc _ ih =>
    intro _
    rw [Tree.toValue, Tree.toEntries_eq_map, List.map_map]
    refine Value.regular_dict ?_ ?_
    · rw [List.map_map]
      exact hg.nodup Prod.fst hc
    · simp only [List.forall_mem_map]
      exact fun p hp => ih p hp (hg.admits hc _ (List.mem_map.2 ⟨_, List.mem_map_of_mem hp, rfl⟩))

section
variable {s : Slot} {t : Tree}

theorem Regular.canonical_holds (hg : g.Regular) (h : g.Holds s t) :
    g.canonical s = .ok (.ofValue t.toValue.canonical) :=
  hg.copy_holds h fun _ hi => absurd hi List.not_mem_nil

/-- What is found wrong with a copy is what writing it comes to. -/
theorem render_of_canonical {c : Copy} (h : g.canonical s = .ok c) :
    g.render s = (g.copyFault? c).elim c.toValue.render .error := by
  rw [render, h]
  cases hfault : g.copyFault? c <;> simp [bind, Except.bind, hfault]

/-- A slot that holds a tree is written as the value of the tree is. -/
theorem Regular.render_holds (hg : g.Regular) (hs : g.Admits s) (h : g.Holds s t) :
    g.render s = t.toValue.render := by
  have hregular := hg.regular_holds h hs
  have hfault : g.copyFault? (.ofValue t.toValue.canonical) = none := copyFault?_ofValue hregular.canonical.2
  rw [render_of_canonical (hg.canonical_holds h), hfault, ← Value.render_canonical hregular, Copy.toValue_ofValue]
  rfl

end

/-! ## Faults -/

/-- What may be found wrong with a slot: that a container contains itself, or nothing, and then the slot holds a
tree. -/
def Judges (g : Graph) (s : Slot) (fault : Option RenderError) : Prop :=
  fault = some .circular ∨ fault = none ∧ ∃ t, g.Holds s t

/-- What the parts of a container are found to be decides about the container, in whatever order they are asked. -/
theorem Regular.judges_container (hg : g.Regular) {i : Nat} {c : Container} (hc : g.containers[i]? = some c)
    {α : Type} {parts : List α} (slot : α → Slot) {fault : α → Option RenderError}
    (hparts : ∀ s ∈ c.slots, ∃ p ∈ parts, slot p = s) (h : ∀ p ∈ parts, g.Judges (slot p) (fault p)) :
    g.Judges (.ref i) (parts.findSome? fault) := by
  cases hfault : parts.findSome? fault with
  | none =>
    rw [List.findSome?_eq_none_iff] at hfault
    refine .inr ⟨rfl, hg.exists_holds hc fun s hs => ?_⟩
    obtain ⟨p, hp, rfl⟩ := hparts s hs
    rcases h p hp with hcircular | ⟨_, ht⟩
    · rw [hfault p hp] at hcircular
      cases hcircular
    · exact ht
  | some e =>
    obtain ⟨p, hp, he⟩ := List.exists_of_findSome?_eq_some hfault
    rcases h p hp with hcircular | ⟨hnone, _⟩
    · exact .inl (he.symm.trans hcircular)
    · rw [hnone] at he
      cases he

/-- A scalar that is admitted has no fault. -/
theorem judges_scalar {a : Scalar} (hs : g.Admits (.scalar a)) : g.Judges (.scalar a) (g.copyFault? (.scalar a)) := by
  refine .inr ⟨?_, _, .scalar a⟩
  cases a with
  | int n => rw [copyFault?, show Value.isLong n = false from hs]; rfl
  | _ => rfl

/-- Writing a container as it is finds a container that contains itself, or a tree. -/
theorem Regular.judges_fault (hg : g.Regular) (active : List Nat) (s : Slot) :
    g.Admits s → g.Judges s (g.fault? active s) := by
  -- entering a container leaves fewer that are idle, so this induction reaches the parts
  fun_induction g.fault? active s with
  | case1 active n hlong =>
    intro hs
    cases hs.symm.trans hlong
  | case2 active n _ => exact fun _ => .inr ⟨rfl, _, .scalar _⟩
  | case3 active a _ => exact fun _ => .inr ⟨rfl, _, .scalar _⟩
  | case4 active i _ => exact fun _ => .inl rfl
  | case5 active i _ hc =>
    intro hs
    exact absurd hs (Nat.not_lt.2 (List.getElem?_eq_none_iff.1 hc))
  | case6 active i _ items hc ih | case7 active i _ items hc ih =>
    intro _
    exact hg.judges_container hc id (fun s hs => ⟨s, hs, rfl⟩) fun s hs => ih s (hg.admits hc s hs)
  | case8 active i _ entries hc _ ih =>
    intro _
    refine hg.judges_container hc Prod.snd (fun s hs => ?_) fun e he => ?_
    · obtain ⟨e, he, rfl⟩ := List.mem_map.1 hs
      exact ⟨e, List.mem_mergeSort.2 he, rfl⟩
    · have hmem : e ∈ entries := List.mem_mergeSort.1 he
      have hstring := (hg.keys entries (List.mem_of_getElem? hc)).2 e hmem
      have hpart := ih e.2 (hg.admits hc _ (List.mem_map_of_mem hmem))
      obtain ⟨key, s⟩ := e
      cases key with
      | string text => exact hpart
      | _ => cases hstring
  | case9 active i _ entries hc hmixed =>
    refine absurd ?_ hmixed
    have hstring : entries.all (·.1.isString) = true :=
      List.all_eq_true.2 (hg.keys entries (List.mem_of_getElem? hc)).2
    rw [orderable, hstring, Bool.or_true, Bool.true_or]

/-- **A copy is always made, and writing it finds a container that contains itself, or a tree.** -/
theorem Regular.judges_copy (hg : g.Regular) (active : List Nat) (s : Slot) :
    g.Admits s → ∃ c, g.copy active s = .ok c ∧ g.Judges s (g.copyFault? c) := by
  induction active, s using copy.induct g with
  | case1 active a => exact fun hs => ⟨.scalar a, by rw [copy], judges_scalar hs⟩
  | case2 active i hi => exact fun hs => ⟨.same i, copy_of_mem (by simpa using hi), hg.judges_fault [] (.ref i) hs⟩
  | case3 active i _ hc =>
    intro hs
    exact absurd hs (Nat.not_lt.2 (List.getElem?_eq_none_iff.1 hc))
  | case4 active i hi items hc ih | case5 active i hi items hc ih =>
    intro _
    obtain ⟨parts, rfl, hparts⟩ := exists_parts fun s hs => ih s (hg.admits hc s hs)
    refine ⟨_, copy_sequence Prod.fst Prod.snd (by simpa using hi) hc rfl fun p hp => (hparts p hp).1, ?_⟩
    rw [copyFault?, copiesFault?_eq_findSome?, List.findSome?_map]
    exact hg.judges_container hc Prod.fst (fun s hs => List.mem_map.1 hs) fun p hp => (hparts p hp).2
  | case6 active i hi entries hc ih =>
    intro _
    obtain ⟨texts, rfl⟩ := hg.dict hc
    have hslots : ∀ e ∈ texts, ∃ c, g.copy (i :: active) e.2 = .ok c ∧ g.Judges e.2 (g.copyFault? c) := fun e he =>
      ih e.2 (hg.admits hc _ (List.mem_map.2 ⟨_, List.mem_map_of_mem he, rfl⟩))
    obtain ⟨parts, rfl, hparts⟩ := exists_entryParts
      (P := fun s c => g.copy (i :: active) s = .ok c ∧ g.Judges s (g.copyFault? c)) hslots
    rw [List.map_map] at hc
    refine ⟨_, copy_dict Prod.fst Prod.snd (by simpa using hi) (hg.nodup Prod.fst hc) hc fun p hp =>
      (hparts p hp).1, ?_⟩
    rw [copyFault?, entriesFault?_eq_findSome?, List.findSome?_map]
    refine hg.judges_container hc (fun p => p.2.1) (fun s hs => ?_) fun p hp =>
      (hparts p ((Value.sortEntries_perm parts).mem_iff.1 hp)).2
    simpa [Container.slots, (Value.sortEntries_perm parts).mem_iff] using hs

/-! ## The guard -/

/-- **The guard against cycles.**  In a graph of lists, tuples and dictionaries from texts, with any sharing and any
cycles, a copy is always made.  Where no container is reached that is reached from itself, the slot holds one tree,
the copy is the canonical copy of the whole tree, and there is a text, the text of the tree.  Where there is such a
container, and only there, writing fails and says so. -/
theorem cycle_guard {g : Graph} {s : Slot} (hg : g.Regular) (hs : g.Admits s) :
    (∃ c, g.canonical s = .ok c) ∧
    (¬ g.Cyclic s → ∃ t, (∀ u, g.Holds s u ↔ u = t) ∧ g.canonical s = .ok (.ofValue t.toValue.canonical) ∧
      g.render s = t.toValue.render ∧ ∃ text, g.render s = .ok text) ∧
    (g.render s = .error .circular ↔ g.Cyclic s) ∧
    RenderError.circular.message = "Circular reference detected" := by
  obtain ⟨c, hcopy, hjudged⟩ := hg.judges_copy [] s hs
  have hacyclic : ∀ {t}, g.Holds s t → g.render s = t.toValue.render ∧ ∃ text, g.render s = .ok text := by
    intro t ht
    have hrender := hg.render_holds hs ht
    exact ⟨hrender, _, hrender.trans (Value.render_of_short (hg.regular_holds ht hs).2)⟩
  refine ⟨⟨c, hcopy⟩, fun hcyclic => ?_, ⟨fun hrender => ?_, fun hcyclic => ?_⟩, rfl⟩
  · obtain ⟨t, ht⟩ := hg.holds_of_not_cyclic hs hcyclic
    exact ⟨t, fun u => ⟨fun hu => hu.unique ht, fun hu => hu ▸ ht⟩, hg.canonical_holds ht, hacyclic ht⟩
  · by_contra hcyclic
    obtain ⟨t, ht⟩ := hg.holds_of_not_cyclic hs hcyclic
    obtain ⟨_, text, htext⟩ := hacyclic ht
    cases hrender.symm.trans htext
  · rcases hjudged with hcircular | ⟨_, ht⟩
    · rw [render_of_canonical hcopy, hcircular]
      rfl
    · exact absurd hcyclic ((hg.holds_iff hs).1 ht)

/-- A dictionary that has another twice, and a list in a ring with a tuple. -/
def sharedAndCyclic : Graph where
  containers := [
    .dict [(.string "z", .ref 1), (.string "a", .ref 1)],
    .dict [(.string "n", .scalar (.int 1)), (.string "m", .scalar .null)],
    .list [.ref 1, .ref 3],
    .tuple [.scalar (.string "x"), .ref 2]]

theorem regular_sharedAndCyclic : sharedAndCyclic.Regular where
  slots := by
    have hone : Value.isLong 1 = false := by decide +kernel
    simp [sharedAndCyclic, Container.slots, Admits, hone]
  keys := by
    intro entries hentries
    simp only [sharedAndCyclic, List.mem_cons, Container.dict.injEq, reduceCtorEq, List.not_mem_nil,
      or_false] at hentries
    rcases hentries with rfl | rfl <;> decide

/-- The shared dictionary is copied twice, with its keys in order; the ring is found. -/
theorem cycle_guard_sharedAndCyclic :
    sharedAndCyclic.canonical (.ref 0) = .ok (.ofValue
      (.dict [("a", .dict [("m", .null), ("n", .int 1)]), ("z", .dict [("m", .null), ("n", .int 1)])])) ∧
    sharedAndCyclic.render (.ref 2) = .error .circular := by
  have hinner : sharedAndCyclic.Holds (.ref 1) (.dict [("n", .scalar (.int 1)), ("m", .scalar .null)]) :=
    @Holds.dict _ 1 [("n", .scalar (.int 1), .scalar (.int 1)), ("m", .scalar .null, .scalar .null)] rfl
      (by simp [Holds.scalar])
  have houter : sharedAndCyclic.Holds (.ref 0) (.dict
      [("z", .dict [("n", .scalar (.int 1)), ("m", .scalar .null)]),
        ("a", .dict [("n", .scalar (.int 1)), ("m", .scalar .null)])]) :=
    @Holds.dict _ 0 [("z", .ref 1, _), ("a", .ref 1, _)] rfl (by simp [hinner])
  have hring : sharedAndCyclic.Cyclic (.ref 2) := by
    have hto : sharedAndCyclic.Refers 2 3 := ⟨_, rfl, by decide⟩
    have hback : sharedAndCyclic.Refers 3 2 := ⟨_, rfl, by decide⟩
    exact ⟨2, .refl, .tail (.single hto) hback⟩
  have hadmits : sharedAndCyclic.Admits (.ref 0) ∧ sharedAndCyclic.Admits (.ref 2) := by
    simp [Admits, sharedAndCyclic]
  constructor
  · obtain ⟨t, ht, hcanonical, _⟩ := (cycle_guard regular_sharedAndCyclic hadmits.1).2.1 houter.not_cyclic
    have hza : Value.keyLe "z" "a" = false := by decide
    have hnm : Value.keyLe "n" "m" = false := by decide
    rw [hcanonical, ← (ht _).1 houter]
    simp [Tree.toValue, Tree.toEntries, Scalar.toValue, Value.canonical, Value.canonicalEntries, Value.sortEntries,
      List.mergeSort, hza, hnm]
  · exact (cycle_guard regular_sharedAndCyclic hadmits.2).2.2.1.2 hring

end Graph

end RequestAtlas
