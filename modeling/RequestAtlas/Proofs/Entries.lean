import RequestAtlas.Proofs.StableSort
import RequestAtlas.Value.Basic
import Mathlib.Data.List.Nodup
/-!
# Entries by key

Lists of keys with what belongs to them stand for dictionaries and for folders.  `Value.put` and `Value.get?` are
related as writing and reading are (`get?_put_self`, `get?_put_of_ne`); a key that is new goes to the end.
-/

namespace RequestAtlas.Value

variable {α β : Type}

/-! ## Looking up keys -/

theorem get?_cons_self (k : String) (v : α) (es : List (String × α)) : get? ((k, v) :: es) k = some v := by
  simp [get?]

theorem get?_cons_of_ne {k k' : String} (h : k' ≠ k) (v : α) (es : List (String × α)) :
    get? ((k', v) :: es) k = get? es k := by
  simp [get?, h]

/-- With distinct keys a look-up finds exactly the entries. -/
theorem get?_eq_some_iff : ∀ {es : List (String × α)} {k : String} {v : α}, (es.map (·.1)).Nodup →
    (get? es k = some v ↔ (k, v) ∈ es)
  | [], _, _, _ => by simp [get?]
  | (k', w) :: es, k, v, h => by
    rw [List.map_cons, List.nodup_cons] at h
    by_cases hk : k' = k
    · subst hk
      have hnot : (k', v) ∉ es := fun hmem => h.1 (List.mem_map_of_mem (f := (·.1)) hmem)
      simp [get?_cons_self, hnot, eq_comm]
    · rw [get?_cons_of_ne hk, get?_eq_some_iff h.2]
      simp [Ne.symm hk]

/-- The order of entries with distinct keys does not matter to look-ups. -/
theorem get?_perm {es fs : List (String × α)} (hp : es.Perm fs) (hn : (es.map (·.1)).Nodup) (k : String) :
    get? es k = get? fs k := by
  have hn' : (fs.map (·.1)).Nodup := (hp.map _).nodup_iff.1 hn
  apply Option.ext
  intro v
  rw [get?_eq_some_iff hn, get?_eq_some_iff hn', hp.mem_iff]

theorem get?_map (f : α → β) (es : List (String × α)) (k : String) :
    get? (es.map fun e => (e.1, f e.2)) k = (get? es k).map f := by
  induction es with
  | nil => rfl
  | cons e es ih =>
    obtain ⟨k', v⟩ := e
    rw [List.map_cons]
    by_cases hk : k' = k
    · subst hk; rw [get?_cons_self, get?_cons_self]; rfl
    · rw [get?_cons_of_ne hk, get?_cons_of_ne hk, ih]

/-- A key that is not there has nothing. -/
theorem get?_eq_none_iff : ∀ {es : List (String × α)} {k : String}, get? es k = none ↔ k ∉ es.map (·.1)
  | [], _ => by simp [get?]
  | (k', v) :: es, k => by
    have ih : get? es k = none ↔ _ := get?_eq_none_iff
    by_cases hk : k' = k
    · subst hk
      simp [get?_cons_self]
    · rw [get?_cons_of_ne hk, ih]
      simp [Ne.symm hk]

/-- What is found stands somewhere, behind other keys. -/
theorem exists_of_get? : ∀ {es : List (String × α)} {k : String} {v : α}, get? es k = some v →
    ∃ front back, es = front ++ (k, v) :: back ∧ k ∉ front.map (·.1)
  | [], _, _, h => by simp [get?] at h
  | (k', w) :: es, k, v, h => by
    by_cases hk : k' = k
    · subst hk
      rw [get?_cons_self, Option.some.injEq] at h
      subst h
      exact ⟨[], es, rfl, by simp⟩
    · rw [get?_cons_of_ne hk] at h
      obtain ⟨front, back, rfl, hfront⟩ := exists_of_get? h
      exact ⟨(k', w) :: front, back, rfl, by simpa [Ne.symm hk] using hfront⟩

theorem mem_of_get? {es : List (String × α)} {k : String} {v : α} (h : get? es k = some v) : (k, v) ∈ es := by
  obtain ⟨front, back, rfl, _⟩ := exists_of_get? h
  exact List.mem_append_right front List.mem_cons_self

theorem get?_append_of_notMem : ∀ {front : List (String × α)} {k : String} (back : List (String × α)),
    k ∉ front.map (·.1) → get? (front ++ back) k = get? back k
  | [], _, _, _ => rfl
  | (k', v) :: front, k, back, h => by
    simp only [List.map_cons, List.mem_cons, not_or] at h
    rw [List.cons_append, get?_cons_of_ne (Ne.symm h.1), get?_append_of_notMem back h.2]

theorem get?_append_of_mem : ∀ {front : List (String × α)} {k : String} (back : List (String × α)),
    k ∈ front.map (·.1) → get? (front ++ back) k = get? front k
  | [], _, _, h => by simp at h
  | (k', v) :: front, k, back, h => by
    by_cases hk : k' = k
    · subst hk
      rw [List.cons_append, get?_cons_self, get?_cons_self]
    · rw [List.cons_append, get?_cons_of_ne hk, get?_cons_of_ne hk]
      have hmem : k ∈ front.map (·.1) := by simpa [Ne.symm hk] using h
      exact get?_append_of_mem back hmem

/-! ## Setting keys -/

theorem put_of_notMem {α : Type} : ∀ {es : List (String × α)} {k : String} (v : α),
    k ∉ es.map (·.1) → put es k v = es ++ [(k, v)]
  | [], _, _, _ => rfl
  | (k', w) :: es, k, v, h => by
    simp only [List.map_cons, List.mem_cons, not_or] at h
    rw [put, if_neg (Ne.symm h.1), put_of_notMem v h.2]
    rfl

/-- A key that is there keeps its place. -/
theorem put_append_cons : ∀ {front : List (String × α)} {k : String} (v w : α) (back : List (String × α)),
    k ∉ front.map (·.1) → put (front ++ (k, v) :: back) k w = front ++ (k, w) :: back
  | [], k, v, w, back, _ => by simp [put]
  | (k', u) :: front, k, v, w, back, h => by
    simp only [List.map_cons, List.mem_cons, not_or] at h
    rw [List.cons_append, put, if_neg (Ne.symm h.1), put_append_cons v w back h.2]
    rfl

theorem get?_put_self : ∀ (es : List (String × α)) (k : String) (v : α), get? (put es k v) k = some v
  | [], k, v => get?_cons_self k v []
  | (k', w) :: es, k, v => by
    by_cases hk : k' = k
    · rw [put, if_pos hk, hk, get?_cons_self]
    · rw [put, if_neg hk, get?_cons_of_ne hk, get?_put_self es k v]

theorem get?_put_of_ne {k k' : String} (h : k ≠ k') (v : α) : ∀ es : List (String × α),
    get? (put es k v) k' = get? es k'
  | [] => get?_cons_of_ne h v []
  | (j, w) :: es => by
    by_cases hj : j = k
    · subst hj
      rw [put, if_pos rfl, get?_cons_of_ne h, get?_cons_of_ne h]
    · rw [put, if_neg hj]
      by_cases hj' : j = k'
      · subst hj'
        rw [get?_cons_self, get?_cons_self]
      · rw [get?_cons_of_ne hj', get?_cons_of_ne hj', get?_put_of_ne h v es]

/-! ## Sorting by key -/

theorem keyLe_eq (a b : String) : keyLe a b = decide (a ≤ b) := by
  rw [keyLe, ← decide_not, decide_eq_decide]
  exact not_lt

/-- Entries are sorted stably by their keys. -/
theorem stableSort_sortEntries (es : List (String × α)) : StableSort (·.1) es (sortEntries es) :=
  stableSort_mergeSort (fun a b => keyLe_eq a.1 b.1) es

theorem sortEntries_perm (es : List (String × α)) : (sortEntries es).Perm es := List.mergeSort_perm _ _

theorem keys_sortEntries_perm (es : List (String × α)) :
    ((sortEntries es).map (·.1)).Perm (es.map (·.1)) :=
  (sortEntries_perm es).map _

end RequestAtlas.Value
