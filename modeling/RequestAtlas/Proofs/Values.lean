import RequestAtlas.Proofs.Json.RoundTrip
/-!
# Values and their canonical copies

A value is `Regular` if it has a text that reads back.  Making a canonical copy is idempotent (`canonical_canonical`)
and changes neither whether a value can be written nor its text (`render_canonical`).
-/

namespace RequestAtlas.Value

/-- A value whose text is defined and reads back: dictionaries have distinct keys, and no integer is too long to
be written. -/
def Regular (v : Value) : Prop := v.distinctKeys = true ∧ v.hasLong = false

theorem distinctKeysList_iff : ∀ {vs : List Value},
    distinctKeysList vs = true ↔ ∀ v ∈ vs, v.distinctKeys = true
  | [] => by simp [distinctKeysList]
  | v :: vs => by
    have ih : distinctKeysList vs = true ↔ _ := distinctKeysList_iff
    simp [distinctKeysList, ih]

theorem hasLongList_eq_false_iff : ∀ {vs : List Value}, hasLongList vs = false ↔ ∀ v ∈ vs, v.hasLong = false
  | [] => by simp [hasLongList]
  | v :: vs => by
    have ih : hasLongList vs = false ↔ _ := hasLongList_eq_false_iff
    simp [hasLongList, ih]

theorem hasLongEntries_eq_false_iff : ∀ {es : List (String × Value)},
    hasLongEntries es = false ↔ ∀ e ∈ es, e.2.hasLong = false
  | [] => by simp [hasLongEntries]
  | (k, v) :: es => by
    have ih : hasLongEntries es = false ↔ _ := hasLongEntries_eq_false_iff
    simp [hasLongEntries, ih]

theorem regular_string (s : String) : (string s).Regular := ⟨rfl, rfl⟩

theorem regular_list {vs : List Value} (h : ∀ v ∈ vs, v.Regular) : (list vs).Regular :=
  ⟨distinctKeysList_iff.2 fun v hv => (h v hv).1, hasLongList_eq_false_iff.2 fun v hv => (h v hv).2⟩

theorem regular_dict {es : List (String × Value)} (hn : (es.map (·.1)).Nodup) (h : ∀ e ∈ es, e.2.Regular) :
    (dict es).Regular := by
  refine ⟨?_, hasLongEntries_eq_false_iff.2 fun e he => (h e he).2⟩
  rw [distinctKeys, Bool.and_eq_true, decide_eq_true_eq]
  exact ⟨hn, distinctKeysEntries_iff.2 fun e he => (h e he).1⟩

theorem Regular.list {vs : List Value} (h : (list vs).Regular) : ∀ v ∈ vs, v.Regular := fun v hv =>
  ⟨distinctKeysList_iff.1 h.1 v hv, hasLongList_eq_false_iff.1 h.2 v hv⟩

theorem Regular.dict {es : List (String × Value)} (h : (dict es).Regular) :
    (es.map (·.1)).Nodup ∧ ∀ e ∈ es, e.2.Regular := by
  obtain ⟨hd, hl⟩ := h
  rw [distinctKeys, Bool.and_eq_true, decide_eq_true_eq] at hd
  exact ⟨hd.1, fun e he => ⟨distinctKeysEntries_iff.1 hd.2 e he, hasLongEntries_eq_false_iff.1 hl e he⟩⟩

theorem canonicalList_eq_map : ∀ vs : List Value, canonicalList vs = vs.map canonical
  | [] => rfl
  | v :: vs => by rw [canonicalList, canonicalList_eq_map vs, List.map_cons]

theorem toJson_canonical_list (vs : List Value) :
    (list vs).canonical.toJson = .list (vs.map fun v => v.canonical.toJson) := by
  rw [canonical, toJson, toJsonList_eq_map, canonicalList_eq_map, List.map_map]
  rfl

/-- Following keys into the canonical copy of a dictionary. -/
theorem at?_canonical {es : List (String × Value)} (hn : (es.map (·.1)).Nodup) (k : String) (ks : List String) :
    (dict es).canonical.toJson.at? (k :: ks) = (get? es k).bind fun v => v.canonical.toJson.at? ks := by
  rw [Json.at?, List.foldlM_cons, field?_canonical hn]
  cases get? es k <;> rfl

/-! ## Copies of copies -/

/-- Sorting by key commutes with changes to what belongs to the keys. -/
theorem sortEntries_map {α β : Type} (g : α → β) (es : List (String × α)) :
    sortEntries (es.map fun e => (e.1, g e.2)) = (sortEntries es).map fun e => (e.1, g e.2) :=
  (stableSort_sortEntries _).unique ((stableSort_sortEntries es).map _ fun _ => rfl)

/-- Entries in order stay as they are. -/
theorem sortEntries_sortEntries {α : Type} (es : List (String × α)) :
    sortEntries (sortEntries es) = sortEntries es :=
  (stableSort_sortEntries _).unique ⟨List.Perm.refl _, (stableSort_sortEntries es).ascending, fun _ => rfl⟩

theorem canonical_int (n : Int) : (int n).canonical = int n := rfl

theorem canonical_list (vs : List Value) : (list vs).canonical = list (vs.map canonical) := by
  rw [canonical, canonicalList_eq_map]

theorem canonical_dict (es : List (String × Value)) :
    (dict es).canonical = dict ((sortEntries es).map fun e => (e.1, e.2.canonical)) := by
  rw [canonical, canonicalEntries_eq_map, sortEntries_map]

mutual

/-- **A canonical copy is its own canonical copy.** -/
theorem canonical_canonical : ∀ v : Value, v.canonical.canonical = v.canonical
  | null => rfl
  | bool _ => rfl
  | int _ => rfl
  | float _ => rfl
  | string _ => rfl
  | list vs => by
    rw [canonical_list, canonical_list, List.map_map]
    exact congrArg list (List.map_congr_left (canonical_canonical_list vs))
  | dict es => by
    rw [canonical_dict, canonical_dict, sortEntries_map canonical, sortEntries_sortEntries, List.map_map]
    refine congrArg dict (List.map_congr_left fun e he => ?_)
    exact congrArg (Prod.mk e.1) (canonical_canonical_entries es e ((sortEntries_perm es).mem_iff.1 he))

theorem canonical_canonical_list : ∀ (vs : List Value), ∀ v ∈ vs, v.canonical.canonical = v.canonical
  | [] => by simp
  | v :: vs => List.forall_mem_cons.2 ⟨canonical_canonical v, canonical_canonical_list vs⟩

theorem canonical_canonical_entries : ∀ (es : List (String × Value)), ∀ e ∈ es,
    e.2.canonical.canonical = e.2.canonical
  | [] => by simp
  | (_, v) :: es => List.forall_mem_cons.2 ⟨canonical_canonical v, canonical_canonical_entries es⟩

end

mutual

theorem hasLong_canonical : ∀ {v : Value}, v.hasLong = false → v.canonical.hasLong = false
  | null => id
  | bool _ => id
  | int n => fun h => (congrArg hasLong (canonical_int n)).trans h
  | float _ => id
  | string _ => id
  | list vs => fun h => by
    rw [canonical_list, hasLong, hasLongList_eq_false_iff, List.forall_mem_map]
    exact hasLong_canonical_list h
  | dict es => fun h => by
    rw [canonical_dict, hasLong, hasLongEntries_eq_false_iff, List.forall_mem_map]
    exact fun e he => hasLong_canonical_entries h e ((sortEntries_perm es).mem_iff.1 he)

theorem hasLong_canonical_list : ∀ {vs : List Value}, hasLongList vs = false → ∀ v ∈ vs, v.canonical.hasLong = false
  | [], _ => by simp
  | v :: vs, h => by
    rw [hasLongList, Bool.or_eq_false_iff] at h
    exact List.forall_mem_cons.2 ⟨hasLong_canonical h.1, hasLong_canonical_list h.2⟩

theorem hasLong_canonical_entries : ∀ {es : List (String × Value)}, hasLongEntries es = false →
    ∀ e ∈ es, e.2.canonical.hasLong = false
  | [], _ => by simp
  | (_, v) :: es, h => by
    rw [hasLongEntries, Bool.or_eq_false_iff] at h
    exact List.forall_mem_cons.2 ⟨hasLong_canonical h.1, hasLong_canonical_entries h.2⟩

end

theorem Regular.canonical {v : Value} (h : v.Regular) : v.canonical.Regular :=
  ⟨distinctKeys_canonical h.1, hasLong_canonical h.2⟩

/-- A canonical copy has the text of the value. -/
theorem render_canonical {v : Value} (h : v.Regular) : v.canonical.render = v.render := by
  rw [render_of_short h.2, render_of_short h.canonical.2, text, text, canonical_canonical]

end RequestAtlas.Value
