import RequestAtlas.Proofs.FileTree.Growth
/-!
# The shape of trees

Names in a folder are distinct, a tree has no links, all names have a property: each of these says the same of every
folder of a tree, so all are decided by one search (`everywhere`).
-/

namespace RequestAtlas

/-! ## Distinct names -/

/-- In every folder the names are distinct. -/
def Folder.Distinct (tree : Folder) : Prop := ∀ p es, tree.get? p = some (.folder es) → (es.map (·.1)).Nodup

theorem Folder.Distinct.nodup {tree : Folder} (h : tree.Distinct) : (tree.map (·.1)).Nodup := h [] tree rfl

theorem Folder.Distinct.of_get? {tree es : Folder} (h : tree.Distinct) {p : List String}
    (hp : tree.get? p = some (.folder es)) : es.Distinct := by
  intro q fs hq
  apply h (p ++ q) fs
  rw [get?_append, hp, Option.bind_some, Entry.at?_folder, hq]

/-- The names inside an entry are distinct. -/
def Entry.Distinct (e : Entry) : Prop := ∀ es, e = .folder es → Folder.Distinct es

/-- With distinct names, what stands below an entry of a folder is found by its name first. -/
theorem Folder.Distinct.get?_of_mem {es : Folder} (h : es.Distinct) {name : String} {e : Entry}
    (hmem : (name, e) ∈ es) : e.Distinct ∧ ∀ rest, es.get? (name :: rest) = e.at? rest := by
  have hget : Value.get? es name = some e := (Value.get?_eq_some_iff h.nodup).2 hmem
  have hrest : ∀ rest, es.get? (name :: rest) = e.at? rest := by
    intro rest
    rw [get?_cons, hget, Option.bind_some]
  refine ⟨?_, hrest⟩
  rintro inner rfl
  exact h.of_get? (hrest [])

/-- Names are distinct if they are in the folder itself and inside its entries. -/
theorem Folder.distinct_of_entries {es : Folder} (hn : (es.map (·.1)).Nodup) (h : ∀ e ∈ es, e.2.Distinct) :
    es.Distinct := by
  intro p fs hp
  cases p with
  | nil =>
    cases hp
    exact hn
  | cons name rest =>
    rw [get?_cons] at hp
    obtain ⟨e, he, hat⟩ := Option.bind_eq_some_iff.1 hp
    obtain ⟨front, back, rfl, _⟩ := Value.exists_of_get? he
    have hdistinct : e.Distinct := h (name, e) (by simp)
    cases e with
    | folder inner => exact hdistinct inner rfl rest fs (Entry.at?_folder inner rest ▸ hat)
    | file content => cases rest <;> cases hat
    | link target => cases rest <;> cases hat

/-! ## A property of every folder -/

/-- Whether an entry is a link. -/
def Entry.isLink : Entry → Bool
  | .link _ => true
  | _ => false

mutual

/-- Whether a property holds of every folder in an entry. -/
def Entry.everywhere (P : Folder → Bool) : Entry → Bool
  | .folder es => P es && Folder.everywhere P es
  | _ => true

/-- Whether a property holds of every folder below a folder. -/
def Folder.everywhere (P : Folder → Bool) : List (String × Entry) → Bool
  | [] => true
  | (_, e) :: es => e.everywhere P && Folder.everywhere P es

end

namespace Folder

theorem everywhere_of_mem {P : Folder → Bool} : ∀ {es : Folder}, everywhere P es = true → ∀ {name : String}
    {e : Entry}, (name, e) ∈ es → e.everywhere P = true
  | (key, d) :: es, h, name, e, hmem => by
    rw [everywhere, Bool.and_eq_true] at h
    rcases List.mem_cons.1 hmem with heq | hmem
    · cases heq
      exact h.1
    · exact everywhere_of_mem h.2 hmem

/-- What holds of a folder and everywhere below it holds wherever a place leads. -/
theorem of_everywhere {P : Folder → Bool} : ∀ {place : List String} {tree es : Folder},
    (Entry.folder tree).everywhere P = true → tree.get? place = some (.folder es) → P es = true
  | [], tree, es, h, hget => by
    cases hget
    rw [Entry.everywhere, Bool.and_eq_true] at h
    exact h.1
  | name :: place, tree, es, h, hget => by
    obtain ⟨inner, hinner, hes⟩ := folder_of_get?_cons hget
    obtain ⟨front, back, rfl, _⟩ := Value.exists_of_get? hinner
    rw [Entry.everywhere, Bool.and_eq_true] at h
    exact of_everywhere (everywhere_of_mem h.2 (List.mem_append_right front List.mem_cons_self)) hes

theorem distinct_of_everywhere {tree : Folder}
    (h : (Entry.folder tree).everywhere (fun es => (es.map (·.1)).Nodup) = true) : tree.Distinct :=
  fun _ _ hget => of_decide_eq_true (of_everywhere h hget)

theorem linkFree_of_everywhere {tree : Folder}
    (h : (Entry.folder tree).everywhere (fun es => es.all fun e => !e.2.isLink) = true) : tree.LinkFree := by
  intro place target hget
  rcases List.eq_nil_or_concat place with rfl | ⟨above, name, rfl⟩
  · cases hget
  · rw [List.concat_eq_append] at hget
    obtain ⟨es, hes⟩ := hasFolder_of_get? hget
    have hall : (es.all fun e => !e.2.isLink) = true := of_everywhere h hes
    rw [get?_append, hes, Option.bind_some, Entry.at?_folder, get?_cons] at hget
    obtain ⟨e, he, hat⟩ := Option.bind_eq_some_iff.1 hget
    obtain ⟨front, back, rfl, _⟩ := Value.exists_of_get? he
    cases hat
    simp [Entry.isLink] at hall

theorem allNames_of_everywhere {P : String → Prop} [DecidablePred P] : ∀ {tree : Folder},
    (Entry.folder tree).everywhere (fun es => es.all fun e => P e.1) = true → AllNames P tree
  | [], _ => trivial
  | (name, e) :: tree, h => by
    simp only [Entry.everywhere, everywhere, List.all_cons, Bool.and_eq_true, decide_eq_true_eq] at h
    obtain ⟨⟨hname, hrest⟩, hentry, hbelow⟩ := h
    have htree : (Entry.folder tree).everywhere (fun es => es.all fun e => P e.1) = true := by
      rw [Entry.everywhere, Bool.and_eq_true]
      exact ⟨hrest, hbelow⟩
    refine ⟨hname, ?_, allNames_of_everywhere htree⟩
    cases e with
    | file content => trivial
    | link target => trivial
    | folder es => exact allNames_of_everywhere hentry

end Folder

end RequestAtlas
