import RequestAtlas.FileTree.Walk
import RequestAtlas.Proofs.Entries
/-!
# Places of a file tree

What stands at a place after something was put at another one.  `Entry.at?` is what names lead to from an entry, so
that the place of a longer list of names is found in two steps (`get?_append`).  Putting an entry somewhere changes
what stands there and below (`get?_set_below`), replaces the folders above by folders (`get?_set_above`) and leaves
everything else alone (`get?_set_apart`); where there is no folder to put it in, nothing changes at all.
-/

namespace RequestAtlas

namespace Entry

/-- The entry that names lead to from an entry. -/
def at? : Entry → List String → Option Entry
  | e, [] => some e
  | .folder es, name :: rest => Folder.get? es (name :: rest)
  | _, _ :: _ => none

theorem at?_nil (e : Entry) : e.at? [] = some e := by
  cases e <;> rfl

theorem at?_folder (es : Folder) : ∀ p : List String, (Entry.folder es).at? p = es.get? p
  | [] => rfl
  | _ :: _ => rfl

end Entry

namespace Folder

theorem get?_nil (es : Folder) : es.get? [] = some (.folder es) := rfl

/-- A place is found by its first name, and then below. -/
theorem get?_cons (es : Folder) (name : String) (rest : List String) :
    es.get? (name :: rest) = (Value.get? es name).bind fun e => e.at? rest := by
  cases h : Value.get? es name with
  | none => rw [get?.eq_def]; simp [h]
  | some e =>
    cases rest with
    | nil => rw [get?.eq_def]; simp [h, Entry.at?_nil]
    | cons m r => cases e <;> (rw [get?.eq_def]; simp [h, Entry.at?])

theorem get?_append (es : Folder) : ∀ p q : List String, es.get? (p ++ q) = (es.get? p).bind fun e => e.at? q
  | [], q => (Entry.at?_folder es q).symm
  | name :: p, q => by
    rw [List.cons_append, get?_cons, get?_cons]
    cases Value.get? es name with
    | none => rfl
    | some e =>
      cases e with
      | folder sub =>
        rw [Option.bind_some, Option.bind_some, Entry.at?_folder, Entry.at?_folder, get?_append sub p q]
      | file content => cases p <;> cases q <;> rfl
      | link target => cases p <;> cases q <;> rfl

/-- Above a folder there is a folder, in which it is found by the other names. -/
theorem folder_of_get?_cons {es sub : Folder} {name : String} {rest : List String}
    (h : es.get? (name :: rest) = some (.folder sub)) :
    ∃ inner : Folder, Value.get? es name = some (.folder inner) ∧ inner.get? rest = some (.folder sub) := by
  rw [get?_cons] at h
  obtain ⟨e, he, hat⟩ := Option.bind_eq_some_iff.1 h
  cases e with
  | folder inner => exact ⟨inner, he, by rwa [Entry.at?_folder] at hat⟩
  | file content => cases rest <;> simp [Entry.at?] at hat
  | link target => cases rest <;> simp [Entry.at?] at hat

/-! ## Putting an entry at a place -/

theorem set_singleton (es : Folder) (name : String) (e : Entry) : es.set [name] e = Value.put es name e := by
  simp [set]

theorem set_cons {es inner : Folder} {name : String} (h : Value.get? es name = some (.folder inner))
    {rest : List String} (hne : rest ≠ []) (e : Entry) :
    es.set (name :: rest) e = Value.put es name (.folder (inner.set rest e)) := by
  rw [set]
  simp [hne, h]

/-- In a folder where nothing with the first name is a folder, nothing is written below that name. -/
theorem set_of_no_folder {es : Folder} {m : String} {p : List String} (hp : p ≠ []) (e : Entry)
    (h : ∀ inner, Value.get? es m ≠ some (.folder inner)) : es.set (m :: p) e = es := by
  simp [set, hp]

/-- Where there is no folder to put it in, nothing is put. -/
theorem set_eq_self (e : Entry) : ∀ {es : Folder} {q : List String} {name : String},
    (∀ sub, es.get? q ≠ some (.folder sub)) → es.set (q ++ [name]) e = es
  | es, [], _, h => absurd rfl (h es)
  | es, m :: q, name, h => by
    cases hm : Value.get? es m with
    | none => rw [List.cons_append, set]; simp [hm]
    | some d =>
      cases d with
      | file content => rw [List.cons_append, set]; simp [hm]
      | link target => rw [List.cons_append, set]; simp [hm]
      | folder inner =>
        have hinner : ∀ sub, get? inner q ≠ some (.folder sub) := by
          intro sub hsub
          apply h sub
          rw [get?_cons, hm, Option.bind_some, Entry.at?_folder, hsub]
        rw [List.cons_append, set_cons hm (by simp), set_eq_self e hinner]
        obtain ⟨front, back, rfl, hfront⟩ := Value.exists_of_get? hm
        exact Value.put_append_cons _ _ back hfront

section
variable {sub : Folder} {name : String} {e : Entry}

/-- At the place and below stands what was put there. -/
theorem get?_set_below (r : List String) : ∀ {es : Folder} {q : List String}, es.get? q = some (.folder sub) →
    (es.set (q ++ [name]) e).get? (q ++ name :: r) = e.at? r
  | es, [], _ => by
    rw [List.nil_append, List.nil_append, set_singleton, get?_cons, Value.get?_put_self, Option.bind_some]
  | es, m :: q, h => by
    obtain ⟨inner, hm, hinner⟩ := folder_of_get?_cons h
    rw [List.cons_append, List.cons_append, set_cons hm (by simp), get?_cons, Value.get?_put_self,
      Option.bind_some, Entry.at?_folder, get?_set_below r hinner]

/-- Folders above stay folders. -/
theorem get?_set_above : ∀ {es : Folder} {p q : List String}, es.get? q = some (.folder sub) → p <+: q →
    ∃ a b, es.get? p = some (.folder a) ∧ (es.set (q ++ [name]) e).get? p = some (.folder b)
  | es, [], q, _, _ => ⟨es, _, rfl, rfl⟩
  | es, k :: p, [], _, hp => absurd (List.prefix_nil.1 hp) (by simp)
  | es, k :: p, m :: q, h, hp => by
    obtain ⟨rfl, hpq⟩ := List.cons_prefix_cons.1 hp
    obtain ⟨inner, hm, hinner⟩ := folder_of_get?_cons h
    obtain ⟨a, b, ha, hb⟩ := get?_set_above hinner hpq
    refine ⟨a, b, ?_, ?_⟩
    · rw [get?_cons, hm, Option.bind_some, Entry.at?_folder, ha]
    · rw [List.cons_append, set_cons hm (by simp), get?_cons, Value.get?_put_self, Option.bind_some,
        Entry.at?_folder, hb]

/-- Everything else is left alone. -/
theorem get?_set_apart : ∀ {es : Folder} {p q : List String}, es.get? q = some (.folder sub) →
    ¬ (q ++ [name]) <+: p → ¬ p <+: q → (es.set (q ++ [name]) e).get? p = es.get? p
  | es, [], q, _, _, hpq => absurd (List.nil_prefix) hpq
  | es, k :: p, [], _, hqp, _ => by
    have hk : name ≠ k := by
      rintro rfl
      exact hqp (by simp)
    rw [List.nil_append, set_singleton, get?_cons, get?_cons, Value.get?_put_of_ne hk]
  | es, k :: p, m :: q, h, hqp, hpq => by
    obtain ⟨inner, hm, hinner⟩ := folder_of_get?_cons h
    rw [List.cons_append, set_cons hm (by simp), get?_cons, get?_cons]
    by_cases hk : m = k
    · subst hk
      have hqp' : ¬ (q ++ [name]) <+: p := fun hx => hqp (by simpa using hx)
      have hpq' : ¬ p <+: q := fun hx => hpq (by simpa using hx)
      rw [Value.get?_put_self, hm, Option.bind_some, Option.bind_some, Entry.at?_folder, Entry.at?_folder,
        get?_set_apart hinner hqp' hpq']
    · rw [Value.get?_put_of_ne hk]

end

/-- A folder above holds what it held, with the entry put into it. -/
theorem get?_set_prefix {e : Entry} {r : List String} (hr : r ≠ []) : ∀ {es sub : Folder} {q : List String},
    es.get? q = some (.folder sub) → (es.set (q ++ r) e).get? q = some (.folder (sub.set r e))
  | es, sub, [], h => by
    cases h
    rfl
  | es, sub, m :: q, h => by
    obtain ⟨inner, hm, hinner⟩ := folder_of_get?_cons h
    rw [List.cons_append, set_cons hm (by simp [hr]), get?_cons, Value.get?_put_self, Option.bind_some,
      Entry.at?_folder, get?_set_prefix hr hinner]

/-- Where no folder is replaced, a folder elsewhere holds what it held, perhaps with the entry put into it. -/
theorem get?_set_folder {tree es : Folder} {place q : List String} (e : Entry)
    (hold : ∀ sub, tree.get? place ≠ some (.folder sub)) (hq : tree.get? q = some (.folder es)) :
    (tree.set place e).get? q = some (.folder es) ∨
    ∃ r, r ≠ [] ∧ place = q ++ r ∧ es.get? r = tree.get? place ∧
      (tree.set place e).get? q = some (.folder (es.set r e)) := by
  by_cases hpre : q <+: place
  · obtain ⟨r, rfl⟩ := hpre
    have hr : r ≠ [] := by
      rintro rfl
      rw [List.append_nil] at hold
      exact hold es hq
    exact .inr ⟨r, hr, rfl, by rw [get?_append, hq, Option.bind_some, Entry.at?_folder], get?_set_prefix hr hq⟩
  · left
    rcases List.eq_nil_or_concat place with rfl | ⟨above, name, rfl⟩
    · exact absurd rfl (hold tree)
    · rw [List.concat_eq_append] at hold hpre ⊢
      by_cases habove : ∃ sub, tree.get? above = some (.folder sub)
      · obtain ⟨sub, habove⟩ := habove
        have hbelow : ¬ (above ++ [name]) <+: q := by
          rintro ⟨r, rfl⟩
          rw [get?_append] at hq
          obtain ⟨d, hd, hat⟩ := Option.bind_eq_some_iff.1 hq
          cases d with
          | folder inner => exact hold inner hd
          | file c => cases r <;> cases hat
          | link t => cases r <;> cases hat
        rw [get?_set_apart habove hbelow fun h => hpre (h.trans (List.prefix_append above [name])), hq]
      · push Not at habove
        rw [set_eq_self _ habove, hq]

/-- Putting an entry where it stands changes nothing. -/
theorem set_of_get? {e : Entry} : ∀ {es : Folder} {p : List String}, p ≠ [] → es.get? p = some e → es.set p e = es
  | es, [], hp, _ => absurd rfl hp
  | es, [name], _, h => by
    rw [get?_cons] at h
    obtain ⟨d, hd, hat⟩ := Option.bind_eq_some_iff.1 h
    rw [Entry.at?_nil] at hat
    cases hat
    obtain ⟨front, back, rfl, hfront⟩ := Value.exists_of_get? hd
    rw [set_singleton, Value.put_append_cons _ _ back hfront]
  | es, name :: m :: p, _, h => by
    rw [get?_cons] at h
    obtain ⟨d, hd, hat⟩ := Option.bind_eq_some_iff.1 h
    cases d with
    | file content => cases hat
    | link target => cases hat
    | folder inner =>
      rw [Entry.at?_folder] at hat
      rw [set_cons hd (by simp), set_of_get? (by simp) hat]
      obtain ⟨front, back, rfl, hfront⟩ := Value.exists_of_get? hd
      exact Value.put_append_cons _ _ back hfront

/-! ## Putting something with nothing below it -/

/-- Two answers about a place agree, up to what folders hold. -/
def Similar (a b : Option Entry) : Prop := a = b ∨ ∃ es fs, a = some (.folder es) ∧ b = some (.folder fs)

theorem Similar.symm {a b : Option Entry} (h : Similar a b) : Similar b a := by
  rcases h with rfl | ⟨es, fs, rfl, rfl⟩
  · exact .inl rfl
  · exact .inr ⟨fs, es, rfl, rfl⟩

theorem Similar.trans {a b c : Option Entry} (h : Similar a b) (h' : Similar b c) : Similar a c := by
  rcases h with rfl | ⟨es, fs, rfl, rfl⟩
  · exact h'
  · rcases h' with rfl | ⟨_, gs, _, rfl⟩
    · exact .inr ⟨es, fs, rfl, rfl⟩
    · exact .inr ⟨es, gs, rfl, rfl⟩

theorem Similar.file {a b : Option Entry} (h : Similar a b) (content : List UInt8) :
    a = some (.file content) ↔ b = some (.file content) := by
  rcases h with rfl | ⟨es, fs, rfl, rfl⟩
  · rfl
  · simp

theorem Similar.link {a b : Option Entry} (h : Similar a b) (target : String) :
    a = some (.link target) ↔ b = some (.link target) := by
  rcases h with rfl | ⟨es, fs, rfl, rfl⟩
  · rfl
  · simp

theorem Similar.none {a b : Option Entry} (h : Similar a b) : a = none ↔ b = none := by
  rcases h with rfl | ⟨es, fs, rfl, rfl⟩
  · rfl
  · simp

/-- Where something with nothing in it takes the place of such a thing or of nothing, no answer about another place
changes but for the folders around it. -/
theorem similar_set {es : Folder} {q : List String} {name : String} {e : Entry}
    (he : ∀ k r, e.at? (k :: r) = none) (hold : ∀ sub, es.get? (q ++ [name]) ≠ some (.folder sub)) {p : List String}
    (hp : p ≠ q ++ [name]) : Similar (es.get? p) ((es.set (q ++ [name]) e).get? p) := by
  by_cases hq : ∃ sub, es.get? q = some (.folder sub)
  · obtain ⟨sub, hq⟩ := hq
    by_cases hbelow : (q ++ [name]) <+: p
    · obtain ⟨r, rfl⟩ := hbelow
      obtain ⟨k, r, rfl⟩ : ∃ k r', r = k :: r' := List.exists_cons_of_ne_nil (by rintro rfl; simp at hp)
      left
      rw [get?_append, List.append_assoc, List.singleton_append, get?_set_below (k :: r) hq, he]
      cases hc : es.get? (q ++ [name]) with
      | none => rfl
      | some d =>
        cases d with
        | folder inner => exact absurd hc (hold inner)
        | file c => rfl
        | link t => rfl
    · by_cases habove : p <+: q
      · exact .inr (get?_set_above hq habove)
      · exact .inl (get?_set_apart hq hbelow habove).symm
  · push Not at hq
    rw [set_eq_self _ hq]
    exact .inl rfl

/-- Elsewhere a file over a file or over nothing changes no answer but for the folders around it. -/
theorem similar_set_file {es : Folder} {q : List String} {name : String} (content : List UInt8)
    (hold : ∀ sub, es.get? (q ++ [name]) ≠ some (.folder sub)) {p : List String} (hp : p ≠ q ++ [name]) :
    Similar (es.get? p) ((es.set (q ++ [name]) (.file content)).get? p) :=
  similar_set (fun _ _ => rfl) hold hp

end Folder

end RequestAtlas
