import RequestAtlas.Proofs.Encoding
import RequestAtlas.Proofs.Entries
import RequestAtlas.Proofs.Results
import RequestAtlas.Selection
/-!
# The search with a stack is an ordered traversal

`Selection.scriptsFrom` takes entries off a stack and puts the entries of a folder on top.  `scriptsAt` is the same
search as a recursion over the tree: what an entry contributes depends on nothing around it, and a folder contributes
what its entries do, names in order.  The stack only remembers what is left (`scriptsFrom_cons`), so both list the same
scripts, as long as every entry that is met can be asked about (`scriptsFrom_visits`).
-/

namespace RequestAtlas

/-- What belongs to names is sorted stably by the code points of the names. -/
theorem Folder.stableSort_byName [Surrogates] {α : Type} (es : List (String × α)) :
    StableSort (fun e => Text.codes e.1) es (byName es) :=
  stableSort_mergeSort (fun a b => Text.nameLe_eq a.1 b.1) es

theorem Folder.byName_perm [Surrogates] {α : Type} (es : List (String × α)) : (byName es).Perm es :=
  List.mergeSort_perm _ _

theorem Folder.listing_perm [Surrogates] (es : Folder) : es.listing.Perm es := byName_perm es

namespace Selection

open Folder

theorem size_le_sizes : ∀ {es : Folder} {e : String × Entry}, e ∈ es → size e.2 ≤ sizes es
  | [], _, h => by cases h
  | (name, d) :: es, e, h => by
    rw [sizes]
    rcases List.mem_cons.1 h with rfl | h
    · exact Nat.le_add_right _ _
    · exact Nat.le_trans (size_le_sizes h) (Nat.le_add_left _ _)

theorem size_lt_of_mem {es : Folder} {e : String × Entry} (h : e ∈ es) : size e.2 < size (.folder es) := by
  rw [size]
  exact Nat.lt_succ_of_le (size_le_sizes h)

/-! ## Entries that are met -/

/-- The names lead to an entry that the search of a folder meets: none is left out, and all but the last are those of
folders. -/
inductive Met (f : Filter) : Folder → List String → Prop
  | entry {es : Folder} {name : String} {e : Entry} (mem : (name, e) ∈ es) (kept : name ∉ f.skip) : Met f es [name]
  | inside {es sub : Folder} {name : String} {names : List String} (mem : (name, .folder sub) ∈ es)
      (kept : name ∉ f.skip) (met : Met f sub names) : Met f es (name :: names)

theorem Met.mono {f : Filter} {es es' : Folder} {names : List String} (h : Met f es names) (hsub : es ⊆ es') :
    Met f es' names := by
  cases h with
  | entry mem kept => exact .entry (hsub mem) kept
  | inside mem kept met => exact .inside (hsub mem) kept met

/-- What is met is met at one of the entries. -/
theorem met_cons_iff {f : Filter} {e : String × Entry} {l : Folder} {names : List String} :
    Met f (e :: l) names ↔ Met f [e] names ∨ Met f l names := by
  constructor
  · rintro (⟨mem, kept⟩ | ⟨mem, kept, met⟩)
    · rcases List.mem_cons.1 mem with rfl | mem
      · exact .inl (.entry List.mem_cons_self kept)
      · exact .inr (.entry mem kept)
    · rcases List.mem_cons.1 mem with rfl | mem
      · exact .inl (.inside List.mem_cons_self kept met)
      · exact .inr (.inside mem kept met)
  · rintro (h | h)
    · exact h.mono (by simp)
    · exact h.mono (by simp)

/-- At a folder it is met itself, and below it what is met in it. -/
theorem met_folder_iff {f : Filter} {name : String} {es : Folder} {names : List String} :
    Met f [(name, .folder es)] names ↔
      name ∉ f.skip ∧ (names = [name] ∨ ∃ rest, names = name :: rest ∧ Met f es rest) := by
  constructor
  · rintro (⟨mem, kept⟩ | ⟨mem, kept, met⟩)
    · cases List.mem_singleton.1 mem
      exact ⟨kept, .inl rfl⟩
    · cases List.mem_singleton.1 mem
      exact ⟨kept, .inr ⟨_, rfl, met⟩⟩
  · rintro ⟨kept, rfl | ⟨rest, rfl, met⟩⟩
    · exact .entry List.mem_cons_self kept
    · exact .inside List.mem_cons_self kept met

/-- Where no folder is, nothing but the entry itself is met. -/
theorem met_leaf_iff {f : Filter} {name : String} {e : Entry} (h : ∀ es, e ≠ .folder es) {names : List String} :
    Met f [(name, e)] names ↔ name ∉ f.skip ∧ names = [name] := by
  constructor
  · rintro (⟨mem, kept⟩ | ⟨mem, kept, met⟩)
    · cases List.mem_singleton.1 mem
      exact ⟨kept, rfl⟩
    · cases List.mem_singleton.1 mem
      exact absurd rfl (h _)
  · rintro ⟨kept, rfl⟩
    exact .entry List.mem_cons_self kept

/-! ## The search as a recursion -/

variable [Surrogates]

mutual

/-- The scripts at and below an entry, each as the names that lead to it from the folder around. -/
def scriptsAt (f : Filter) (name : String) : Entry → List (List String)
  | .link _ => []
  | .file _ => if f.accepts name then [[name]] else []
  | .folder es => ((byName (scriptsIn f es)).flatMap (·.2)).map (name :: ·)

/-- The scripts at and below each entry that is not left out. -/
def scriptsIn (f : Filter) : List (String × Entry) → List (String × List (List String))
  | [] => []
  | (name, e) :: rest =>
    if f.skip.contains name then scriptsIn f rest
    else (name, scriptsAt f name e) :: scriptsIn f rest

end

/-- What an entry adds to the scripts of the folder around it. -/
def share (f : Filter) (e : String × Entry) : List (List String) :=
  if f.skip.contains e.1 then [] else scriptsAt f e.1 e.2

theorem filter_scriptsIn (f : Filter) : ∀ es : Folder, (scriptsIn f es).filter (!·.2.isEmpty) =
    (es.map fun e => (e.1, share f e)).filter (!·.2.isEmpty)
  | [] => rfl
  | (name, e) :: es => by
    have ih := filter_scriptsIn f es
    by_cases hskip : f.skip.contains name = true
    · have hshare : share f (name, e) = [] := if_pos hskip
      rw [scriptsIn, if_pos hskip, List.map_cons, List.filter_cons_of_neg (by simp [hshare]), ih]
    · have hshare : share f (name, e) = scriptsAt f name e := if_neg hskip
      rw [scriptsIn, if_neg hskip, List.map_cons, List.filter_cons, List.filter_cons, ih, hshare]

/-- The scripts of a folder: what its entries add, names in order. -/
def scripts (f : Filter) (es : Folder) : List (List String) := es.listing.flatMap (share f)

/-- Putting the entries in order first or what they add is the same. -/
theorem flatMap_scriptsIn (f : Filter) (es : Folder) : (byName (scriptsIn f es)).flatMap (·.2) = scripts f es := by
  have hsort : StableSort (fun e => Text.codes e.1) (es.map fun e => (e.1, share f e))
      (es.listing.map fun e => (e.1, share f e)) :=
    (stableSort_byName es).map _ fun _ => rfl
  have h := StableSort.flatMap_eq (·.2) (stableSort_byName (scriptsIn f es)) hsort (filter_scriptsIn f es)
  rwa [List.flatMap_map] at h

theorem share_link (f : Filter) (name target : String) : share f (name, .link target) = [] := by
  simp [share, scriptsAt]

/-- A folder adds its scripts. -/
theorem share_entries (f : Filter) {name : String} (h : name ∉ f.skip) (es : Folder) :
    share f (name, .folder es) = (scripts f es).map (name :: ·) := by
  rw [share, if_neg (by simpa using h), scriptsAt, flatMap_scriptsIn]

theorem share_skipped (f : Filter) {name : String} (h : name ∈ f.skip) (e : Entry) : share f (name, e) = [] := by
  simp [share, h]

theorem share_file (f : Filter) {name : String} (h : name ∉ f.skip) (content : List UInt8) :
    share f (name, .file content) = if f.accepts name then [[name]] else [] := by
  simp [share, h, scriptsAt]

/-! ## Entries that are asked about -/

/-- The system can be asked about the path. -/
def Short (p : Path) : Prop := Text.nameSize p.text ≤ pathLimit

instance (p : Path) : Decidable (Short p) := inferInstanceAs (Decidable (_ ≤ _))

theorem ask_ok_iff {p : Path} : ask p = .ok () ↔ Short p := by
  rw [ask, Short, ← Nat.not_lt]
  split <;> simp [*]

theorem ask_error {p : Path} {e : FileError} (h : ask p = .error e) : e = .fault .nameTooLong p ∧ ¬ Short p := by
  rw [ask] at h
  split at h
  · next hlong =>
    cases h
    exact ⟨rfl, Nat.not_le.2 hlong⟩
  · cases h

/-- The paths of all entries that are met can be asked about. -/
def MetShort (base : Path) (f : Filter) (above : List String) (es : Folder) : Prop :=
  ∀ names, Met f es names → Short (below base (above ++ names))

theorem metShort_cons {base : Path} {f : Filter} {above : List String} {e : String × Entry} {l : Folder} :
    MetShort base f above (e :: l) ↔ MetShort base f above [e] ∧ MetShort base f above l := by
  simp only [MetShort, met_cons_iff (l := l), or_imp, forall_and]

theorem metShort_perm {base : Path} {f : Filter} {above : List String} {es es' : Folder} (h : es.Perm es') :
    MetShort base f above es ↔ MetShort base f above es' :=
  ⟨fun hs _ hm => hs _ (hm.mono h.symm.subset), fun hs _ hm => hs _ (hm.mono h.subset)⟩

theorem metShort_folder {base : Path} {f : Filter} {above : List String} {name : String} {es : Folder}
    (h : name ∉ f.skip) : MetShort base f above [(name, .folder es)] ↔
      Short (below base (above ++ [name])) ∧ MetShort base f (above ++ [name]) es := by
  simp only [MetShort, met_folder_iff, h, not_false_eq_true, true_and, List.append_assoc, List.singleton_append]
  constructor
  · intro hall
    exact ⟨hall _ (.inl rfl), fun rest hrest => hall _ (.inr ⟨rest, rfl, hrest⟩)⟩
  · rintro ⟨hself, hrest⟩ names (rfl | ⟨rest, rfl, hmet⟩)
    · exact hself
    · exact hrest rest hmet

theorem metShort_leaf {base : Path} {f : Filter} {above : List String} {name : String} {e : Entry}
    (h : name ∉ f.skip) (hleaf : ∀ es, e ≠ .folder es) :
    MetShort base f above [(name, e)] ↔ Short (below base (above ++ [name])) := by
  simp [MetShort, met_leaf_iff hleaf, h]

theorem metShort_skipped {base : Path} {f : Filter} {above : List String} {name : String} (h : name ∈ f.skip)
    (e : Entry) : MetShort base f above [(name, e)] := by
  rintro names (⟨mem, kept⟩ | ⟨mem, kept, _⟩) <;> cases List.mem_singleton.1 mem <;> exact absurd h kept

/-! ## The stack -/

theorem looksAt_skipped {base : Path} {f : Filter} {above : List String} {name : String} (h : name ∈ f.skip) :
    looksAt base f above name = .ok false := by
  simp [looksAt, h]

theorem looksAt_ok_iff {base : Path} {f : Filter} {above : List String} {name : String} {b : Bool}
    (h : name ∉ f.skip) : looksAt base f above name = .ok b ↔ Short (below base (above ++ [name])) ∧ b = true := by
  rw [looksAt, if_neg (by simpa using h), Results.bind_eq_ok_iff]
  constructor
  · rintro ⟨u, hask, hb⟩
    cases hb
    exact ⟨ask_ok_iff.1 hask, rfl⟩
  · rintro ⟨hshort, rfl⟩
    exact ⟨(), ask_ok_iff.2 hshort, rfl⟩

/-- How the search goes on where it looks at the next entry. -/
theorem scriptsFrom_kept {base : Path} {f : Filter} {above : List String} {name : String} {e : Entry}
    {stack : List Visit} {paths : List (List String)} (h : name ∉ f.skip) :
    scriptsFrom base f (⟨above, name, e⟩ :: stack) = .ok paths ↔ Short (below base (above ++ [name])) ∧
      match e with
      | .link _ => scriptsFrom base f stack = .ok paths
      | .folder es => scriptsFrom base f (visits (above ++ [name]) es ++ stack) = .ok paths
      | .file _ => ∃ rest, scriptsFrom base f stack = .ok rest ∧
          paths = (if f.accepts name then [above ++ [name]] else []) ++ rest := by
  cases e with
  | link target =>
    rw [scriptsFrom, Results.bind_eq_ok_iff]
    simp [looksAt_ok_iff h]
  | folder es =>
    rw [scriptsFrom, Results.bind_eq_ok_iff]
    simp [looksAt_ok_iff h]
  | file content =>
    rw [scriptsFrom, Results.bind_eq_ok_iff]
    simp only [looksAt_ok_iff h]
    by_cases haccepts : f.accepts name = true
    · simp only [haccepts, if_true]
      constructor
      · rintro ⟨b, ⟨hshort, rfl⟩, h⟩
        obtain ⟨rest, hrest, h⟩ := Results.bind_eq_ok_iff.1 h
        cases h
        exact ⟨hshort, rest, hrest, rfl⟩
      · rintro ⟨hshort, rest, hrest, rfl⟩
        exact ⟨true, ⟨hshort, rfl⟩, Results.bind_eq_ok_iff.2 ⟨rest, hrest, rfl⟩⟩
    · simp [haccepts]

/-- An entry on top of the stack adds its share, if all that is met there can be asked about, and the search goes on
with the others. -/
def Adds (base : Path) (f : Filter) (above : List String) (e : String × Entry) : Prop :=
  ∀ stack paths, scriptsFrom base f (⟨above, e.1, e.2⟩ :: stack) = .ok paths ↔ MetShort base f above [e] ∧
    ∃ rest, scriptsFrom base f stack = .ok rest ∧ paths = (share f e).map (above ++ ·) ++ rest

theorem metShort_nil (base : Path) (f : Filter) (above : List String) : MetShort base f above [] := by
  rintro names (⟨mem, _⟩ | ⟨mem, _, _⟩) <;> cases mem

/-- Entries that add their shares add them one after the other. -/
theorem scriptsFrom_entries {base : Path} {f : Filter} {above : List String} {stack : List Visit} :
    ∀ {l : Folder} {paths : List (List String)}, (∀ e ∈ l, Adds base f above e) →
      (scriptsFrom base f ((l.map fun e => ⟨above, e.1, e.2⟩) ++ stack) = .ok paths ↔ MetShort base f above l ∧
        ∃ rest, scriptsFrom base f stack = .ok rest ∧ paths = (l.flatMap (share f)).map (above ++ ·) ++ rest)
  | [], paths, _ => by simp [metShort_nil]
  | e :: l, paths, h => by
    rw [List.forall_mem_cons] at h
    rw [List.map_cons, List.cons_append, h.1, metShort_cons (l := l), and_assoc]
    refine and_congr_right fun _ => ?_
    simp only [scriptsFrom_entries h.2]
    constructor
    · rintro ⟨_, ⟨hl, rest, hrest, rfl⟩, rfl⟩
      exact ⟨hl, rest, hrest, by simp⟩
    · rintro ⟨hl, rest, hrest, rfl⟩
      exact ⟨_, ⟨hl, rest, hrest, rfl⟩, by simp⟩

/-- **Every entry adds its share.**  The induction is on how much there is below it, since a folder is replaced by its
entries. -/
theorem adds_share (base : Path) (f : Filter) (above : List String) (name : String) (e : Entry) :
    Adds base f above (name, e) := by
  induction hn : size e using Nat.strongRecOn generalizing above name e with
  | _ n ih =>
    intro stack paths
    by_cases hskip : name ∈ f.skip
    · rw [iff_true_intro (metShort_skipped hskip e), true_and, share_skipped f hskip]
      cases e <;> simp [scriptsFrom, looksAt_skipped hskip, bind, Except.bind]
    · rw [scriptsFrom_kept hskip]
      cases e with
      | link target =>
        rw [metShort_leaf hskip (by simp), share_link]
        simp
      | file content =>
        rw [metShort_leaf hskip (by simp), share_file f hskip]
        by_cases haccepts : f.accepts name = true <;> simp [haccepts]
      | folder es =>
        have entries : ∀ e ∈ listing es, Adds base f (above ++ [name]) e := fun e he =>
          ih _ (hn ▸ size_lt_of_mem ((listing_perm es).mem_iff.1 he)) _ _ _ rfl
        rw [metShort_folder hskip, share_entries f hskip, scripts, and_assoc]
        refine and_congr_right fun _ => ?_
        dsimp only
        rw [visits, scriptsFrom_entries entries, metShort_perm (listing_perm es)]
        simp [Function.comp_def]

/-- **The search of a folder lists its scripts, if all that is met there can be asked about.** -/
theorem scriptsFrom_visits {base : Path} {f : Filter} {es : Folder} {paths : List (List String)} :
    scriptsFrom base f (visits [] es) = .ok paths ↔ MetShort base f [] es ∧ paths = scripts f es := by
  have h : scriptsFrom base f ((es.listing.map fun e => ⟨[], e.1, e.2⟩) ++ []) = .ok paths ↔ _ :=
    scriptsFrom_entries fun e _ => adds_share base f [] e.1 e.2
  rw [List.append_nil, metShort_perm (listing_perm es)] at h
  simpa [visits, scripts, scriptsFrom] using h

theorem looksAt_error {base : Path} {f : Filter} {above : List String} {name : String} {e : FileError}
    (h : looksAt base f above name = .error e) : ∃ p, e = .fault .nameTooLong p ∧ ¬ Short p := by
  rw [looksAt] at h
  split at h
  · cases h
  · rcases Results.bind_eq_error_iff.1 h with h | ⟨_, _, h⟩
    · exact ⟨_, ask_error h⟩
    · cases h

/-- A search that fails has met an entry that cannot be asked about. -/
theorem scriptsFrom_error {base : Path} {f : Filter} {stack : List Visit} {e : FileError}
    (h : scriptsFrom base f stack = .error e) : ∃ p, e = .fault .nameTooLong p ∧ ¬ Short p := by
  fun_induction scriptsFrom base f stack with
  | case1 => cases h
  | case2 above name target stack ih =>
    rcases Results.bind_eq_error_iff.1 h with h | ⟨_, _, h⟩
    · exact looksAt_error h
    · exact ih h
  | case3 above name es stack inside behind =>
    rcases Results.bind_eq_error_iff.1 h with h | ⟨looks, _, h⟩
    · exact looksAt_error h
    · cases looks
      · exact behind h
      · exact inside h
  | case4 above name content stack behind =>
    rcases Results.bind_eq_error_iff.1 h with h | ⟨looks, _, h⟩
    · exact looksAt_error h
    · split at h
      · rcases Results.bind_eq_error_iff.1 h with h | ⟨_, _, h⟩
        · exact behind h
        · cases h
      · exact behind h

end Selection

end RequestAtlas
