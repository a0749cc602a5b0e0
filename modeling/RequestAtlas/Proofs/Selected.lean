import RequestAtlas.Proofs.Walking
import RequestAtlas.Proofs.Workspace.Folders
/-!
# Which scripts are selected

`Selection.found` lists the scripts under a root, and `Fits` says that the paths of all entries that are asked about on
the way are short enough.  `select` answers exactly what is found if all fits, and fails otherwise
(`selected_ok_iff`, `select_answers`).  An empty folder holds no script, so folders that are added change neither the
selection nor its order (`found_grown`), wherever under the root they are and even if they are numbered; but their paths
have to fit as well.
-/

namespace RequestAtlas.Selection

open Folder Work

/-- The names lead from a root to an entry that is asked about: every entry of the root is, and all that is met in the
numbered folders. -/
inductive Asked (f : Filter) (es : Folder) : List String → Prop
  | entry {name : String} {e : Entry} (mem : (name, e) ∈ es) : Asked f es [name]
  | inside {name : String} {sub : Folder} {n : Nat} {names : List String} (mem : (name, .folder sub) ∈ es)
      (number : number? name = some n) (positive : 1 ≤ n) (met : Met f sub names) : Asked f es (name :: names)

theorem met_of_get? {f : Filter} : ∀ {names : List String} {es : Folder} {e : Entry}, names ≠ [] →
    (∀ name ∈ names, name ∉ f.skip) → es.get? names = some e → Met f es names
  | [], _, _, hne, _, _ => absurd rfl hne
  | name :: rest, es, e, _, hkept, he => by
    rw [List.forall_mem_cons] at hkept
    rw [get?_cons] at he
    obtain ⟨d, hget, hat⟩ := Option.bind_eq_some_iff.1 he
    have hmem := Value.mem_of_get? hget
    cases rest with
    | nil => exact .entry hmem hkept.1
    | cons next rest =>
      cases d with
      | folder sub => exact .inside hmem hkept.1 (met_of_get? (by simp) hkept.2 (Entry.at?_folder sub _ ▸ hat))
      | file content => cases hat
      | link target => cases hat

theorem mem_numbered {es : Folder} {n : Numbered} :
    n ∈ numbered es ↔ (n.name, Entry.folder n.entries) ∈ es ∧ number? n.name = some n.number := by
  rw [numbered, List.mem_filterMap]
  constructor
  · rintro ⟨⟨name, e⟩, hmem, hsome⟩
    cases e with
    | file content => cases hsome
    | link target => cases hsome
    | folder sub =>
      obtain ⟨k, hk, rfl⟩ := Option.map_eq_some_iff.1 hsome
      exact ⟨hmem, hk⟩
  · rintro ⟨hmem, hnumber⟩
    exact ⟨_, hmem, by simp [hnumber]⟩

theorem below_below (root : Path) (names more : List String) :
    below (below root names) more = below root (names ++ more) := by
  simp [below]

/-- An entry that was there before a folder was added is there still, or is a folder with the new one somewhere in
it. -/
theorem mem_of_grown {name : String} {es es' : Folder} (h : Grown name es es') {key : String} {e : Entry}
    (hmem : (key, e) ∈ es) :
    (key, e) ∈ es' ∨ ∃ sub sub', e = .folder sub ∧ (key, .folder sub') ∈ es' ∧ Grown name sub sub' := by
  cases h with
  | here hnew => exact .inl (List.mem_append_left _ hmem)
  | @inside sub sub' hin front back inner =>
    rcases List.mem_append.1 hmem with hfront | hback
    · exact .inl (List.mem_append_left _ hfront)
    · rcases List.mem_cons.1 hback with heq | hback
      · cases heq
        exact .inr ⟨sub, sub', rfl, by simp, hin⟩
      · exact .inl (by simp [hback])

theorem Met.grown {f : Filter} {name : String} {es es' : Folder} {names : List String} (hmet : Met f es names)
    (h : Grown name es es') : Met f es' names := by
  induction hmet generalizing es' with
  | entry mem kept =>
    rcases mem_of_grown h mem with mem | ⟨_, _, _, mem, _⟩
    · exact .entry mem kept
    · exact .entry mem kept
  | inside mem kept met ih =>
    rcases mem_of_grown h mem with mem | ⟨_, _, heq, mem, hin⟩
    · exact .inside mem kept met
    · cases heq
      exact .inside mem kept (ih hin)

theorem Asked.grown {f : Filter} {name : String} {es es' : Folder} {names : List String} (hasked : Asked f es names)
    (h : Grown name es es') : Asked f es' names := by
  cases hasked with
  | entry mem =>
    rcases mem_of_grown h mem with mem | ⟨_, _, _, mem, _⟩
    · exact .entry mem
    · exact .entry mem
  | inside mem number positive met =>
    rcases mem_of_grown h mem with mem | ⟨_, _, heq, mem, hin⟩
    · exact .inside mem number positive met
    · cases heq
      exact .inside mem number positive (met.grown hin)

variable [Surrogates]

/-- The paths of all entries that are asked about are short enough. -/
def Fits (root : Path) (f : Filter) (es : Folder) : Prop := ∀ names, Asked f es names → Short (below root names)

mutual

/-- Whether the path of an entry is short enough, and those of all that is below it. -/
def shortAt (p : Path) : Entry → Bool
  | .folder es => decide (Short p) && shortIn p es
  | _ => decide (Short p)

/-- Whether that holds of every entry of a folder. -/
def shortIn (p : Path) : List (String × Entry) → Bool
  | [] => true
  | (name, e) :: es => shortAt (below p [name]) e && shortIn p es

end

theorem shortIn_of_mem {p : Path} : ∀ {es : Folder}, shortIn p es = true → ∀ {name : String} {e : Entry},
    (name, e) ∈ es → Short (below p [name]) ∧ ∀ sub, e = .folder sub → shortIn (below p [name]) sub = true
  | (key, d) :: es, h, name, e, hmem => by
    rw [shortIn, Bool.and_eq_true] at h
    rcases List.mem_cons.1 hmem with heq | hmem
    · cases heq
      cases d <;> simpa [shortAt] using h.1
    · exact shortIn_of_mem h.2 hmem

theorem short_of_met {f : Filter} {p : Path} {es : Folder} {names : List String} (h : shortIn p es = true)
    (hmet : Met f es names) : Short (below p names) := by
  induction hmet generalizing p with
  | entry mem kept => exact (shortIn_of_mem h mem).1
  | @inside es sub name names mem kept met ih =>
    have hshort := ih ((shortIn_of_mem h mem).2 _ rfl)
    rwa [below_below] at hshort

/-- Where all paths are short enough, whatever the filter leaves out, all fits. -/
theorem fits_of_shortIn {root : Path} {es : Folder} (f : Filter) (h : shortIn root es = true) : Fits root f es := by
  intro names hasked
  cases hasked with
  | entry mem => exact (shortIn_of_mem h mem).1
  | @inside name sub n names mem number positive met =>
    have hshort := short_of_met ((shortIn_of_mem h mem).2 _ rfl) met
    rwa [below_below] at hshort

/-- The scripts of a numbered folder. -/
def pathsIn (root : Path) (f : Filter) (n : Numbered) : List Path :=
  (scripts f n.entries).map (scriptPath root n.name)

/-- The scripts under a root with the given entries. -/
def found (root : Path) (f : Filter) (es : Folder) : List Path :=
  (chosen (numbered es.listing)).flatMap (pathsIn root f)

/-- What searching a numbered folder answers. -/
def searched (root : Path) (f : Filter) (n : Numbered) : Except Failure (List Path) := do
  let names ← (scriptsFrom (below root [n.name]) f (visits [] n.entries)).mapError .file
  return names.map (scriptPath root n.name)

/-- What selecting scripts under a root answers. -/
def selected (w : Workspace) (root : Path) (f : Filter) : Except Failure (List Path) := do
  match ← (w.folder? root).mapError .file with
  | none => return []
  | some es =>
    let ns ← (numberedUnder root es).mapError .file
    return (← (chosen ns).mapM (searched root f)).flatten

/-! ## What the search answers -/

theorem mem_chosen {es : Folder} {n : Numbered} : n ∈ chosen (numbered es.listing) ↔
    (n.name, Entry.folder n.entries) ∈ es ∧ number? n.name = some n.number ∧ 1 ≤ n.number := by
  rw [chosen, List.mem_mergeSort, List.mem_filter, mem_numbered, (listing_perm es).mem_iff, decide_eq_true_eq,
    and_assoc]

theorem searched_ok_iff {root : Path} {f : Filter} {n : Numbered} {paths : List Path} :
    searched root f n = .ok paths ↔ MetShort (below root [n.name]) f [] n.entries ∧ paths = pathsIn root f n := by
  rw [searched, Results.bind_eq_ok_iff]
  constructor
  · rintro ⟨names, hnames, h⟩
    obtain ⟨hshort, rfl⟩ := scriptsFrom_visits.1 (Results.mapError_eq_ok_iff.1 hnames)
    cases h
    exact ⟨hshort, rfl⟩
  · rintro ⟨hshort, rfl⟩
    exact ⟨_, Results.mapError_eq_ok_iff.2 (scriptsFrom_visits.2 ⟨hshort, rfl⟩), rfl⟩

theorem searched_error {root : Path} {f : Filter} {n : Numbered} {e : Failure} (h : searched root f n = .error e) :
    ∃ p, e = .file (.fault .nameTooLong p) ∧ ¬ Short p := by
  rcases Results.bind_eq_error_iff.1 h with h | ⟨_, _, h⟩
  · obtain ⟨d, hd, rfl⟩ := Results.mapError_eq_error_iff.1 h
    obtain ⟨p, rfl, hp⟩ := scriptsFrom_error hd
    exact ⟨p, rfl, hp⟩
  · cases h

theorem numberedUnder_ok_iff {root : Path} {es : Folder} {ns : List Numbered} :
    numberedUnder root es = .ok ns ↔ (∀ e ∈ es, Short (below root [e.1])) ∧ ns = numbered es.listing := by
  rw [numberedUnder, Results.bind_eq_ok_iff]
  constructor
  · rintro ⟨_, hasked, h⟩
    cases h
    refine ⟨fun e he => ?_, rfl⟩
    exact ask_ok_iff.1 (Results.forM_eq_ok_iff.1 hasked e ((listing_perm es).mem_iff.2 he))
  · rintro ⟨hshort, rfl⟩
    refine ⟨(), Results.forM_eq_ok_iff.2 fun e he => ?_, rfl⟩
    exact ask_ok_iff.2 (hshort e ((listing_perm es).mem_iff.1 he))

theorem forM_ask_error {root : Path} {e : FileError} : ∀ {es : Folder},
    es.forM (fun d => ask (below root [d.1])) = .error e → ∃ p, e = .fault .nameTooLong p ∧ ¬ Short p
  | [], h => by cases h
  | d :: es, h => by
    rcases Results.bind_eq_error_iff.1 h with h | ⟨_, _, h⟩
    · exact ⟨_, ask_error h⟩
    · exact forM_ask_error h

theorem numberedUnder_error {root : Path} {es : Folder} {e : FileError} (h : numberedUnder root es = .error e) :
    ∃ p, e = .fault .nameTooLong p ∧ ¬ Short p := by
  rcases Results.bind_eq_error_iff.1 h with h | ⟨_, _, h⟩
  · exact forM_ask_error h
  · cases h

/-- All fits just if it does at the entries of the root and in the numbered folders that are searched. -/
theorem fits_iff {root : Path} {f : Filter} {es : Folder} : Fits root f es ↔ (∀ e ∈ es, Short (below root [e.1])) ∧
    ∀ n ∈ chosen (numbered es.listing), MetShort (below root [n.name]) f [] n.entries := by
  constructor
  · intro h
    constructor
    · rintro ⟨name, e⟩ hmem
      exact h [name] (.entry hmem)
    · intro n hn names hmet
      obtain ⟨hmem, hnumber, hpositive⟩ := mem_chosen.1 hn
      rw [below_below]
      exact h (n.name :: names) (.inside hmem hnumber hpositive hmet)
  · rintro ⟨hentries, hinside⟩ names hasked
    cases hasked with
    | @entry name e hmem => exact hentries (name, e) hmem
    | @inside name sub n names hmem hnumber hpositive hmet =>
      have hshort := hinside ⟨n, name, sub⟩ (mem_chosen.2 ⟨hmem, hnumber, hpositive⟩) names hmet
      rwa [below_below] at hshort

/-! ## What selecting answers -/

/-- **Selecting answers just if the root can be asked about and leads to no folder, or to one in which all fits.** -/
theorem selected_ok_iff {w : Workspace} {root : Path} {f : Filter} {paths : List Path} :
    selected w root f = .ok paths ↔ (w.folder? root = .ok none ∧ paths = []) ∨
      ∃ es, w.folder? root = .ok (some es) ∧ Fits root f es ∧ paths = found root f es := by
  rw [selected, Results.bind_eq_ok_iff]
  constructor
  · rintro ⟨o, ho, h⟩
    rw [Results.mapError_eq_ok_iff] at ho
    cases o with
    | none =>
      cases h
      exact .inl ⟨ho, rfl⟩
    | some es =>
      refine .inr ⟨es, ho, ?_⟩
      obtain ⟨ns, hns, h⟩ := Results.bind_eq_ok_iff.1 h
      obtain ⟨hentries, rfl⟩ := numberedUnder_ok_iff.1 (Results.mapError_eq_ok_iff.1 hns)
      obtain ⟨pss, hpss, h⟩ := Results.bind_eq_ok_iff.1 h
      cases h
      have hinside : ∀ n ∈ chosen (numbered es.listing), searched root f n = .ok (pathsIn root f n) := by
        intro n hn
        obtain ⟨paths, hpaths⟩ := Results.exists_of_mapM_eq_ok hpss hn
        rw [hpaths, (searched_ok_iff.1 hpaths).2]
      rw [Results.mapM_eq_ok_map hinside] at hpss
      cases hpss
      refine ⟨fits_iff.2 ⟨hentries, fun n hn => (searched_ok_iff.1 (hinside n hn)).1⟩, ?_⟩
      rw [found, List.flatMap_def]
  · rintro (⟨hroot, rfl⟩ | ⟨es, hroot, hfits, rfl⟩)
    · exact ⟨none, Results.mapError_eq_ok_iff.2 hroot, rfl⟩
    · obtain ⟨hentries, hinside⟩ := fits_iff.1 hfits
      have hpss := Results.mapM_eq_ok_map fun n hn => searched_ok_iff.2 ⟨hinside n hn, rfl⟩
      refine ⟨some es, Results.mapError_eq_ok_iff.2 hroot, Results.bind_eq_ok_iff.2 ⟨_,
        Results.mapError_eq_ok_iff.2 (numberedUnder_ok_iff.2 ⟨hentries, rfl⟩), Results.bind_eq_ok_iff.2 ⟨_, hpss, ?_⟩⟩⟩
      rw [found, List.flatMap_def]
      rfl

theorem selected_of_fits {w : Workspace} {root : Path} {f : Filter} {es : Folder}
    (hroot : w.folder? root = .ok (some es)) (hfits : Fits root f es) : selected w root f = .ok (found root f es) :=
  selected_ok_iff.2 (.inr ⟨es, hroot, hfits, rfl⟩)

/-- Selecting fails where the root cannot be asked about, or an entry under it. -/
theorem selected_error {w : Workspace} {root : Path} {f : Filter} {e : Failure} (h : selected w root f = .error e) :
    (∃ d, w.folder? root = .error d ∧ e = .file d) ∨ ∃ p, e = .file (.fault .nameTooLong p) ∧ ¬ Short p := by
  rcases Results.bind_eq_error_iff.1 h with h | ⟨o, _, h⟩
  · exact .inl (Results.mapError_eq_error_iff.1 h)
  · right
    cases o with
    | none => cases h
    | some es =>
      rcases Results.bind_eq_error_iff.1 h with h | ⟨ns, _, h⟩
      · obtain ⟨d, hd, rfl⟩ := Results.mapError_eq_error_iff.1 h
        obtain ⟨p, rfl, hp⟩ := numberedUnder_error hd
        exact ⟨p, rfl, hp⟩
      · rcases Results.bind_eq_error_iff.1 h with h | ⟨_, _, h⟩
        · obtain ⟨n, _, h⟩ := Results.exists_of_mapM_eq_error h
          exact searched_error h
        · cases h

/-- Where something does not fit, nothing is selected. -/
theorem selected_of_not_fits {w : Workspace} {root : Path} {f : Filter} {es : Folder}
    (hroot : w.folder? root = .ok (some es)) (hfits : ¬ Fits root f es) :
    ∃ p, selected w root f = .error (.file (.fault .nameTooLong p)) ∧ ¬ Short p := by
  cases hs : selected w root f with
  | ok paths =>
    rcases selected_ok_iff.1 hs with ⟨hnone, _⟩ | ⟨es', hsome, hfits', _⟩
    · rw [hroot] at hnone
      cases hnone
    · rw [hroot] at hsome
      cases hsome
      exact absurd hfits' hfits
  | error e =>
    rcases selected_error hs with ⟨d, hd, _⟩ | ⟨p, rfl, hp⟩
    · rw [hroot] at hd
      cases hd
    · exact ⟨p, rfl, hp⟩

theorem search_answers (root : Path) (f : Filter) (n : Numbered) (w : Workspace) :
    (search root f n).Answers w (searched root f n) :=
  (answers_ofFile _ w).bind_any fun _ => answers_note_bind (answers_pure _ w)

/-- Selecting answers what is selected and changes nothing but the log. -/
theorem select_answers (root : Path) (f : Filter) (w : Workspace) :
    (select root f).Answers w (selected w root f) := by
  refine answers_get_bind fun log => ?_
  have hfolder : (w.withLog log).folder? root = w.folder? root := rfl
  rw [hfolder]
  refine (answers_ofFile (w.folder? root) w).bind_any fun o => ?_
  cases o with
  | none => exact answers_note_bind (answers_pure [] w)
  | some es =>
    refine (answers_ofFile (numberedUnder root es) w).bind_any fun ns => ?_
    by_cases hn : ns.isEmpty = true
    · have hnone : (chosen ns).mapM (searched root f) = .ok [] := by
        simp [List.isEmpty_iff.1 hn, chosen, pure, Except.pure]
      rw [if_pos hn, hnone]
      exact answers_note_bind (answers_pure [] w)
    · rw [if_neg hn]
      have hsearches := answers_mapM (fun n => search_answers root f n w) (chosen ns)
      exact hsearches.bind_any fun pss => answers_pure pss.flatten w

/-! ## Folders that are added -/

theorem share_folder (f : Filter) {es es' : Folder} (h : scripts f es = scripts f es') (name : String) :
    share f (name, .folder es) = share f (name, .folder es') := by
  simp only [share, scriptsAt, flatMap_scriptsIn, h]

theorem share_empty (f : Filter) (name : String) : share f (name, .folder []) = [] := by
  simp [share, scriptsAt, scriptsIn, byName]

/-- Folders that were added hold no scripts. -/
theorem scripts_grown (f : Filter) {name : String} {es es' : Folder} (h : Grown name es es') :
    scripts f es' = scripts f es := by
  induction h with
  | here hnew =>
    rw [← flatMap_scriptsIn, ← flatMap_scriptsIn]
    apply StableSort.flatMap_eq (·.2) (stableSort_byName _) (stableSort_byName _)
    rw [filter_scriptsIn, filter_scriptsIn]
    simp [share_empty]
  | inside hin front back key ih =>
    rw [← flatMap_scriptsIn, ← flatMap_scriptsIn]
    apply StableSort.flatMap_eq (·.2) (stableSort_byName _) (stableSort_byName _)
    rw [filter_scriptsIn, filter_scriptsIn]
    simp [share_folder f ih]

/-- The scripts of an entry directly under the root, with its number, if it is searched and has any. -/
def part (root : Path) (f : Filter) (e : String × Entry) : List (Nat × List Path) :=
  ((numbered [e]).filter (1 ≤ ·.number)).map (fun n => (n.number, pathsIn root f n)) |>.filter (!·.2.isEmpty)

theorem flatMap_part (root : Path) (f : Filter) : ∀ es : Folder, es.flatMap (part root f) =
    (((numbered es).filter (1 ≤ ·.number)).map fun n => (n.number, pathsIn root f n)).filter (!·.2.isEmpty)
  | [] => rfl
  | e :: es => by
    have hcons : numbered (e :: es) = numbered [e] ++ numbered es := by
      rw [numbered, numbered, numbered, ← List.filterMap_append, List.singleton_append]
    rw [List.flatMap_cons, flatMap_part root f es, hcons, List.filter_append, List.map_append, List.filter_append]
    rfl

theorem part_folder (root : Path) (f : Filter) {es es' : Folder} (h : scripts f es = scripts f es')
    (name : String) : part root f (name, .folder es) = part root f (name, .folder es') := by
  simp only [part, numbered, List.filterMap_cons, List.filterMap_nil]
  cases number? name with
  | none => rfl
  | some k =>
    by_cases hk : 1 ≤ k <;> simp [hk, pathsIn, h]

theorem part_empty (root : Path) (f : Filter) (name : String) : part root f (name, .folder []) = [] := by
  simp only [part, numbered, List.filterMap_cons, List.filterMap_nil]
  cases number? name with
  | none => rfl
  | some k =>
    by_cases hk : 1 ≤ k <;> simp [hk, pathsIn, scripts, listing, byName]

/-- The numbered folders of two roots have the same scripts if, entry by entry, their parts are the same. -/
theorem found_eq_of_parts (root : Path) (f : Filter) {es es' : Folder}
    (h : (es.map fun e => (e.1, part root f e)).filter (!·.2.isEmpty) =
      (es'.map fun e => (e.1, part root f e)).filter (!·.2.isEmpty)) : found root f es = found root f es' := by
  have hlisting : es.listing.flatMap (part root f) = es'.listing.flatMap (part root f) := by
    have hsort : ∀ fs : Folder, StableSort (fun e => Text.codes e.1) (fs.map fun e => (e.1, part root f e))
        (fs.listing.map fun e => (e.1, part root f e)) :=
      fun fs => (stableSort_byName fs).map _ fun _ => rfl
    have heq := StableSort.flatMap_eq (·.2) (hsort es) (hsort es') h
    rwa [List.flatMap_map, List.flatMap_map] at heq
  rw [flatMap_part, flatMap_part] at hlisting
  have hchosen : ∀ fs : Folder, StableSort Prod.fst
      (((numbered fs.listing).filter (1 ≤ ·.number)).map fun n => (n.number, pathsIn root f n))
      ((chosen (numbered fs.listing)).map fun n => (n.number, pathsIn root f n)) :=
    fun fs => (stableSort_mergeSort (f := Numbered.number) (fun _ _ => rfl) _).map _ fun _ => rfl
  have heq := StableSort.flatMap_eq (·.2) (hchosen es) (hchosen es') hlisting
  rwa [List.flatMap_map, List.flatMap_map] at heq

/-- **Empty folders that are added change neither the selection nor its order.** -/
theorem found_grown (root : Path) (f : Filter) {name : String} {es es' : Folder} (h : Grown name es es') :
    found root f es' = found root f es := by
  apply found_eq_of_parts
  cases h with
  | here hnew => simp [part_empty]
  | inside hin front back key => simp [part_folder root f (scripts_grown f hin)]

theorem found_nil (root : Path) (f : Filter) : found root f [] = [] := by
  simp [found, listing, byName, numbered, chosen]

/-- All that was asked about is asked about still, so what fits after a folder was added did so before. -/
theorem Fits.grown {root : Path} {f : Filter} {name : String} {es es' : Folder} (h : Grown name es es')
    (hfits : Fits root f es') : Fits root f es :=
  fun names hasked => hfits names (hasked.grown h)

/-- A selection that is made after a folder was added is the one that was made before. -/
theorem selected_grown {w : Workspace} {root : Path} {f : Filter} {name : String} {tree' : Folder}
    (hlinks : w.tree.LinkFree) (hdots : ".." ∉ root.parts) (h : Grown name w.tree tree') {files : List Path}
    (hs : selected { w with tree := tree' } root f = .ok files) : selected w root f = .ok files := by
  rcases selected_ok_iff.1 hs with ⟨ho, rfl⟩ | ⟨es', ho, hfits, rfl⟩
  · rcases Workspace.folder?_grown hlinks hdots h ho with ⟨_, _, _, hnone, _⟩ | ⟨hnone, _⟩
    · cases hnone
    · exact selected_ok_iff.2 (.inl ⟨hnone, rfl⟩)
  · rcases Workspace.folder?_grown hlinks hdots h ho with ⟨es, _, hes, heq, hsame⟩ | ⟨hnone, heq⟩
    · cases heq
      rcases hsame with rfl | hgrown
      · exact selected_of_fits hes hfits
      · rw [found_grown root f hgrown]
        exact selected_of_fits hes (hfits.grown hgrown)
    · rcases heq with heq | heq
      · cases heq
      · cases heq
        rw [found_nil]
        exact selected_ok_iff.2 (.inl ⟨hnone, rfl⟩)

/-! ## Names on the way to a script -/

mutual

theorem allNames_scriptsAt {P : String → Prop} (f : Filter) {name : String} (hname : P name) :
    ∀ {e : Entry}, e.AllNames P → ∀ names ∈ scriptsAt f name e, ∀ n ∈ names, P n
  | .link _, _, names, h => by simp [scriptsAt] at h
  | .file _, _, names, h => by
    rw [scriptsAt] at h
    split at h
    · rw [List.mem_singleton] at h
      subst h
      simpa using hname
    · cases h
  | .folder es, he, names, h => by
    rw [Entry.AllNames] at he
    simp only [scriptsAt, List.mem_map, List.mem_flatMap] at h
    obtain ⟨rest, ⟨e, hmem, hrest⟩, rfl⟩ := h
    rw [List.forall_mem_cons]
    exact ⟨hname, allNames_scriptsIn f he e ((byName_perm _).mem_iff.1 hmem) rest hrest⟩

theorem allNames_scriptsIn {P : String → Prop} (f : Filter) : ∀ {es : List (String × Entry)}, AllNames P es →
    ∀ e ∈ scriptsIn f es, ∀ names ∈ e.2, ∀ n ∈ names, P n
  | [], _, e, h => by simp [scriptsIn] at h
  | (name, d) :: es, hes, e, h => by
    rw [AllNames] at hes
    rw [scriptsIn] at h
    split at h
    · exact allNames_scriptsIn f hes.2.2 e h
    · rcases List.mem_cons.1 h with rfl | h
      · exact allNames_scriptsAt f hes.1 hes.2.1
      · exact allNames_scriptsIn f hes.2.2 e h

end

/-- A selected script is a script of some folder directly under the root. -/
theorem exists_of_mem_found {root : Path} {f : Filter} {es : Folder} {p : Path} (hp : p ∈ found root f es) :
    ∃ key sub names, (key, Entry.folder sub) ∈ es ∧ (∃ d ∈ scriptsIn f sub, names ∈ d.2) ∧
      p = { root with parts := root.parts ++ key :: names } := by
  rw [found, List.mem_flatMap] at hp
  obtain ⟨n, hn, hp⟩ := hp
  rw [pathsIn, List.mem_map] at hp
  obtain ⟨names, hnames, rfl⟩ := hp
  rw [← flatMap_scriptsIn, List.mem_flatMap] at hnames
  obtain ⟨d, hd, hnames⟩ := hnames
  exact ⟨n.name, n.entries, names, (mem_chosen.1 hn).1, ⟨d, (byName_perm _).mem_iff.1 hd, hnames⟩, rfl⟩

/-- A selected script is reached from the root by names of the tree. -/
theorem names_of_mem_found {P : String → Prop} {root : Path} {f : Filter} {es : Folder} (h : AllNames P es)
    {p : Path} (hp : p ∈ found root f es) :
    ∃ names, p = { root with parts := root.parts ++ names } ∧ ∀ n ∈ names, P n := by
  obtain ⟨key, sub, names, hmem, ⟨d, hd, hnames⟩, rfl⟩ := exists_of_mem_found hp
  obtain ⟨hkey, hsub⟩ := h.of_mem hmem
  refine ⟨key :: names, rfl, ?_⟩
  rw [List.forall_mem_cons]
  exact ⟨hkey, allNames_scriptsIn f hsub d hd names hnames⟩

/-- What is selected stands under a root that leads to a folder. -/
theorem exists_of_mem_selected {w : Workspace} {root : Path} {f : Filter} {files : List Path}
    (hs : selected w root f = .ok files) {p : Path} (hp : p ∈ files) :
    ∃ q es, w.locate true root = .ok (.found q (.folder es)) ∧ p ∈ found root f es := by
  rcases selected_ok_iff.1 hs with ⟨_, rfl⟩ | ⟨es, hes, _, rfl⟩
  · cases hp
  · obtain ⟨q, hl⟩ := Workspace.folder?_some_iff.1 hes
    exact ⟨q, es, hl, hp⟩

/-- A script that is selected in a workspace is reached from the root by names of the tree. -/
theorem names_of_mem_selected {P : String → Prop} {w : Workspace} {root : Path} {f : Filter} {files : List Path}
    (h : AllNames P w.tree) (hs : selected w root f = .ok files) {p : Path} (hp : p ∈ files) :
    ∃ names, p = { root with parts := root.parts ++ names } ∧ ∀ n ∈ names, P n := by
  obtain ⟨q, es, hl, hfound⟩ := exists_of_mem_selected hs hp
  have hget := walk_found (Workspace.locate_ok_iff.1 hl).2.2
  exact names_of_mem_found (h.of_get? hget) hfound

end RequestAtlas.Selection
