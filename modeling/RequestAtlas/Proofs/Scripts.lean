import RequestAtlas.Proofs.FileTree.Shape
import RequestAtlas.Proofs.Selected
import RequestAtlas.Proofs.Workspace.Filing
/-!
# Selected scripts and written files

A script is a file below the root whose name has one of the endings (`script_of_mem_found`).  What a file holds does
not matter to the selection, and neither does a new file whose name has none of the endings: `found_set`.
-/

namespace RequestAtlas

namespace Selection

open Folder

/-! ## Endings -/

theorem dropStart?_isSome_iff : ∀ {start cs : List Char}, (Text.dropStart? start cs).isSome = true ↔ start <+: cs
  | [], cs => by simp [Text.dropStart?]
  | c :: start, [] => by simp [Text.dropStart?]
  | c :: start, d :: cs => by
    rw [Text.dropStart?, List.cons_prefix_cons]
    split
    · rename_i hcd
      rw [dropStart?_isSome_iff, and_iff_right hcd]
    · rename_i hcd
      simp [hcd]

/-- A file is a script if its name ends with one of the endings. -/
theorem accepts_iff {f : Filter} {name : String} :
    f.accepts name = true ↔ ∃ ext ∈ f.extensions, ext.toList <:+ name.toList := by
  simp only [Filter.accepts, List.any_eq_true, Text.endsWith, dropStart?_isSome_iff, List.reverse_prefix]

/-! ## What is selected -/

/-- The names that lead from an entry to a script: the last of them has one of the endings, and where names are
distinct a file stands at their end. -/
def Script (f : Filter) (name : String) (e : Entry) (rest : List String) : Prop :=
  (∃ last, (name :: rest).getLast? = some last ∧ f.accepts last = true) ∧
    (e.Distinct → ∃ content, e.at? rest = some (.file content))

/-- One name further out. -/
theorem Script.outer {f : Filter} {name key : String} {e : Entry} {es : Folder} {rest : List String}
    (h : Script f name e rest) (hmem : (name, e) ∈ es) : Script f key (.folder es) (name :: rest) := by
  obtain ⟨⟨last, hlast, haccepts⟩, hfile⟩ := h
  refine ⟨⟨last, by rw [List.getLast?_cons, hlast]; rfl, haccepts⟩, fun hdistinct => ?_⟩
  obtain ⟨hinner, hget⟩ := (hdistinct es rfl).get?_of_mem hmem
  obtain ⟨content, hcontent⟩ := hfile hinner
  exact ⟨content, by rw [Entry.at?_folder, hget, hcontent]⟩

/-- A file may be written at a place without changing the selection: it is no script, or a file already. -/
def Unselected (f : Filter) (es : Folder) (p : List String) : Prop :=
  (es.get? p = none ∧ ∀ name, p.getLast? = some name → f.accepts name = false) ∨ ∃ old, es.get? p = some (.file old)

theorem Unselected.inner {f : Filter} {es inner : Folder} {m : String} {p : List String} (hp : p ≠ [])
    (hm : Value.get? es m = some (.folder inner)) (h : Unselected f es (m :: p)) : Unselected f inner p := by
  rw [Unselected, get?_cons, hm, Option.bind_some, Entry.at?_folder, List.getLast?_cons] at h
  obtain ⟨last, hlast⟩ := List.getLast?_isSome.2 hp |> Option.isSome_iff_exists.1
  simpa [Unselected, hlast] using h

theorem unselected_singleton {f : Filter} {es : Folder} {name : String} (h : Unselected f es [name]) :
    (Value.get? es name = none ∧ f.accepts name = false) ∨ ∃ old, Value.get? es name = some (.file old) := by
  have hget : es.get? [name] = Value.get? es name := by
    rw [get?_cons]
    cases Value.get? es name with
    | none => rfl
    | some e => exact e.at?_nil
  simpa [Unselected, hget] using h

/-- Where a file gets other content, the entries are those of before, up to that file and the folders around it. -/
theorem mem_of_mem_set_file {content : List UInt8} {es : Folder} {p : List String} {old : List UInt8}
    (hold : es.get? p = some (.file old)) {key : String} {e : Entry} (hmem : (key, e) ∈ es.set p (.file content)) :
    ∃ d, (key, d) ∈ es ∧ (d = e ∨ (∀ sub, e ≠ .folder sub) ∨ ∃ (sub : Folder) (r : List String), d = .folder sub ∧
      e = .folder (sub.set r (.file content)) ∧ sub.get? r = some (.file old)) := by
  -- what stands at the first name is exchanged, and all other entries stay
  have hput : ∀ {m : String} {d d' : Entry}, Value.get? es m = some d → (key, e) ∈ Value.put es m d' →
      (key, e) ∈ es ∨ (key = m ∧ e = d' ∧ (key, d) ∈ es) := by
    intro m d d' hget hmem
    obtain ⟨front, back, rfl, hfront⟩ := Value.exists_of_get? hget
    rw [Value.put_append_cons _ _ back hfront] at hmem
    rcases List.mem_append.1 hmem with hmem | hmem
    · exact .inl (List.mem_append_left _ hmem)
    · rcases List.mem_cons.1 hmem with heq | hmem
      · cases heq
        exact .inr ⟨rfl, rfl, by simp⟩
      · exact .inl (by simp [hmem])
  match p, hold with
  | [name], hold =>
    rw [set_singleton] at hmem
    rw [get?_cons] at hold
    obtain ⟨d, hget, hat⟩ := Option.bind_eq_some_iff.1 hold
    rcases hput hget hmem with hthere | ⟨rfl, rfl, hthere⟩
    · exact ⟨e, hthere, .inl rfl⟩
    · exact ⟨d, hthere, .inr (.inl (by simp))⟩
  | m :: k :: r, hold =>
    rw [get?_cons] at hold
    obtain ⟨d, hget, hat⟩ := Option.bind_eq_some_iff.1 hold
    cases d with
    | file c => cases hat
    | link target => cases hat
    | folder sub =>
      rw [Entry.at?_folder] at hat
      rw [set_cons hget (by simp)] at hmem
      rcases hput hget hmem with hthere | ⟨rfl, rfl, hthere⟩
      · exact ⟨e, hthere, .inl rfl⟩
      · exact ⟨_, hthere, .inr (.inr ⟨sub, k :: r, rfl, rfl, hat⟩)⟩

/-- What is met after a file got other content was met before. -/
theorem Met.of_set_file {f : Filter} {content old : List UInt8} {es : Folder} {p names : List String}
    (hold : es.get? p = some (.file old)) (hmet : Met f (es.set p (.file content)) names) : Met f es names := by
  generalize hes' : es.set p (.file content) = es' at hmet
  induction hmet generalizing es p with
  | entry mem kept =>
    obtain ⟨d, hmem, _⟩ := mem_of_mem_set_file hold (hes' ▸ mem)
    exact .entry hmem kept
  | inside mem kept met ih =>
    obtain ⟨d, hmem, hsame | hno | ⟨sub, r, rfl, heq, hinner⟩⟩ := mem_of_mem_set_file hold (hes' ▸ mem)
    · exact .inside (hsame ▸ hmem) kept met
    · exact absurd rfl (hno _)
    · cases heq
      exact .inside hmem kept (ih hinner rfl)

theorem Asked.of_set_file {f : Filter} {content old : List UInt8} {es : Folder} {p names : List String}
    (hold : es.get? p = some (.file old)) (hasked : Asked f (es.set p (.file content)) names) : Asked f es names := by
  cases hasked with
  | entry mem =>
    obtain ⟨d, hmem, _⟩ := mem_of_mem_set_file hold mem
    exact .entry hmem
  | inside mem number positive met =>
    obtain ⟨d, hmem, hsame | hno | ⟨sub, r, rfl, heq, hinner⟩⟩ := mem_of_mem_set_file hold mem
    · exact .inside (hsame ▸ hmem) number positive met
    · exact absurd rfl (hno _)
    · cases heq
      exact .inside hmem number positive (met.of_set_file hinner)

variable [Surrogates]

mutual

theorem script_of_mem_scriptsAt (f : Filter) (name : String) : ∀ {e : Entry}, ∀ names ∈ scriptsAt f name e,
    ∃ rest, names = name :: rest ∧ Script f name e rest
  | .link _, names, h => by simp [scriptsAt] at h
  | .file content, names, h => by
    rw [scriptsAt] at h
    split at h
    · rename_i haccepts
      rw [List.mem_singleton] at h
      exact ⟨[], h, ⟨name, rfl, haccepts⟩, fun _ => ⟨content, rfl⟩⟩
    · cases h
  | .folder es, names, h => by
    simp only [scriptsAt, List.mem_map, List.mem_flatMap] at h
    obtain ⟨rest, ⟨d, hd, hrest⟩, rfl⟩ := h
    obtain ⟨key, e, more, hmem, rfl, hscript⟩ :=
      script_of_mem_scriptsIn f d ((byName_perm _).mem_iff.1 hd) rest hrest
    exact ⟨key :: more, rfl, hscript.outer hmem⟩

theorem script_of_mem_scriptsIn (f : Filter) : ∀ {es : List (String × Entry)}, ∀ d ∈ scriptsIn f es,
    ∀ names ∈ d.2, ∃ key e rest, (key, e) ∈ es ∧ names = key :: rest ∧ Script f key e rest
  | [], d, h => by simp [scriptsIn] at h
  | (key, e) :: es, d, h => by
    intro names hnames
    have hmore : d ∈ scriptsIn f es →
        ∃ key' e' rest, (key', e') ∈ (key, e) :: es ∧ names = key' :: rest ∧ Script f key' e' rest := by
      intro hd
      obtain ⟨key', e', rest, hmem, heq, hscript⟩ := script_of_mem_scriptsIn f d hd names hnames
      exact ⟨key', e', rest, List.mem_cons_of_mem _ hmem, heq, hscript⟩
    rw [scriptsIn] at h
    split at h
    · exact hmore h
    · rcases List.mem_cons.1 h with rfl | h
      · obtain ⟨rest, heq, hscript⟩ := script_of_mem_scriptsAt f key names hnames
        exact ⟨key, e, rest, List.mem_cons_self, heq, hscript⟩
      · exact hmore h

end

/-- **A script is reached from the root by names of which the last has one of the endings**, and where names are
distinct it is a file. -/
theorem script_of_mem_found {root : Path} {f : Filter} {es : Folder} {p : Path} (hp : p ∈ found root f es) :
    ∃ names, p = { root with parts := root.parts ++ names } ∧
      (∃ last, names.getLast? = some last ∧ f.accepts last = true) ∧
      (es.Distinct → ∃ content, es.get? names = some (.file content)) := by
  obtain ⟨key, sub, names, hmem, ⟨d, hd, hnames⟩, rfl⟩ := exists_of_mem_found hp
  obtain ⟨name, e, rest, hin, rfl, hscript⟩ := script_of_mem_scriptsIn f d hd names hnames
  have houter : Script f key (.folder sub) (name :: rest) := hscript.outer hin
  obtain ⟨hlast, hfile⟩ := houter
  refine ⟨key :: name :: rest, rfl, hlast, fun hdistinct => ?_⟩
  obtain ⟨hsub, hget⟩ := hdistinct.get?_of_mem hmem
  rw [hget]
  exact hfile hsub

/-- The last name of a selected script has one of the endings. -/
theorem last_of_mem_selected {w : Workspace} {root : Path} {f : Filter} {files : List Path}
    (hnames : AllNames (· ≠ "..") w.tree) (hs : selected w root f = .ok files) {p : Path} (hp : p ∈ files) :
    ∃ last, p.parts.getLast? = some last ∧ last ≠ ".." ∧ f.accepts last = true := by
  obtain ⟨names, hparts, hdots⟩ := names_of_mem_selected hnames hs hp
  obtain ⟨q, es, _, hfound⟩ := exists_of_mem_selected hs hp
  obtain ⟨names', rfl, ⟨last, hlast, haccepts⟩, _⟩ := script_of_mem_found hfound
  obtain rfl : names' = names := List.append_cancel_left (congrArg Path.parts hparts)
  refine ⟨last, ?_, hdots last (List.mem_of_getLast? hlast), haccepts⟩
  rw [List.getLast?_append, hlast]
  rfl

/-! ## Writing a file -/

/-- Entries that add the same scripts can be exchanged, and one that adds none can be added. -/
theorem scripts_put (f : Filter) {es : Folder} {name : String} {e : Entry}
    (hnew : Value.get? es name = none → share f (name, e) = [])
    (hold : ∀ d, Value.get? es name = some d → share f (name, e) = share f (name, d)) :
    scripts f (Value.put es name e) = scripts f es := by
  rw [← flatMap_scriptsIn, ← flatMap_scriptsIn]
  apply StableSort.flatMap_eq (·.2) (stableSort_byName _) (stableSort_byName _)
  rw [filter_scriptsIn, filter_scriptsIn]
  cases hget : Value.get? es name with
  | none =>
    rw [Value.put_of_notMem _ (Value.get?_eq_none_iff.1 hget)]
    simp [hnew hget]
  | some d =>
    have hshare := hold d hget
    obtain ⟨front, back, rfl, hfront⟩ := Value.exists_of_get? hget
    rw [Value.put_append_cons _ _ back hfront]
    simp [hshare]

/-- The same directly under the root. -/
theorem found_put (root : Path) (f : Filter) {es : Folder} {name : String} {e : Entry}
    (hnew : Value.get? es name = none → part root f (name, e) = [])
    (hold : ∀ d, Value.get? es name = some d → part root f (name, e) = part root f (name, d)) :
    found root f (Value.put es name e) = found root f es := by
  apply found_eq_of_parts
  cases hget : Value.get? es name with
  | none =>
    rw [Value.put_of_notMem _ (Value.get?_eq_none_iff.1 hget)]
    simp [hnew hget]
  | some d =>
    have hpart := hold d hget
    obtain ⟨front, back, rfl, hfront⟩ := Value.exists_of_get? hget
    rw [Value.put_append_cons _ _ back hfront]
    simp [hpart]

/-- What a file holds does not matter to the selection. -/
theorem share_content (f : Filter) (name : String) (content content' : List UInt8) :
    share f (name, .file content) = share f (name, .file content') := by
  simp [share, scriptsAt]

theorem share_other (f : Filter) {name : String} (h : f.accepts name = false) (content : List UInt8) :
    share f (name, .file content) = [] := by
  simp [share, scriptsAt, h]

theorem part_file (root : Path) (f : Filter) (name : String) (content : List UInt8) :
    part root f (name, .file content) = [] := by
  simp [part, numbered]

theorem scripts_set (f : Filter) (content : List UInt8) : ∀ {es : Folder} {p : List String}, Unselected f es p →
    scripts f (es.set p (.file content)) = scripts f es
  | es, [], _ => rfl
  | es, [name], h => by
    rw [set_singleton]
    rcases unselected_singleton h with ⟨hnone, hname⟩ | ⟨old, hold⟩
    · exact scripts_put f (fun _ => share_other f hname content) (by simp [hnone])
    · refine scripts_put f (by simp [hold]) ?_
      intro d hd
      rw [hold] at hd
      cases hd
      exact share_content f name content old
  | es, m :: k :: p, h => by
    by_cases hfolder : ∃ inner, Value.get? es m = some (.folder inner)
    · obtain ⟨inner, hm⟩ := hfolder
      rw [set_cons hm (by simp)]
      have ih := scripts_set f content (h.inner (by simp) hm)
      refine scripts_put f (by simp [hm]) ?_
      intro d hd
      rw [hm] at hd
      cases hd
      exact share_folder f ih m
    · push Not at hfolder
      rw [set_of_no_folder (by simp) _ hfolder]

/-- **Files that are written change neither the selection nor its order, unless a new file is a script.** -/
theorem found_set (root : Path) (f : Filter) (content : List UInt8) {es : Folder} {p : List String}
    (h : Unselected f es p) : found root f (es.set p (.file content)) = found root f es := by
  match p, h with
  | [], _ => rfl
  | [name], h =>
    rw [set_singleton]
    refine found_put root f (fun _ => part_file root f name content) ?_
    intro d hd
    rcases unselected_singleton h with ⟨hnone, _⟩ | ⟨old, hold⟩
    · rw [hnone] at hd
      cases hd
    · rw [hold] at hd
      cases hd
      rw [part_file, part_file]
  | m :: k :: p, h =>
    by_cases hfolder : ∃ inner, Value.get? es m = some (.folder inner)
    · obtain ⟨inner, hm⟩ := hfolder
      rw [set_cons hm (by simp)]
      have hscripts := scripts_set f content (h.inner (by simp) hm)
      refine found_put root f (by simp [hm]) ?_
      intro d hd
      rw [hm] at hd
      cases hd
      exact part_folder root f hscripts m
    · push Not at hfolder
      rw [set_of_no_folder (by simp) _ hfolder]

/-- A root leads to a folder in both of two workspaces or in neither, and the scripts found there are the same. -/
def Alike (root : Path) (f : Filter) (w w' : Workspace) : Prop :=
  (w.folder? root = .ok none → w'.folder? root = .ok none) ∧
    ∀ es, w.folder? root = .ok (some es) → ∃ es', w'.folder? root = .ok (some es') ∧ found root f es' = found root f es

theorem Alike.trans {root : Path} {f : Filter} {u v w : Workspace} (h : Alike root f u v) (h' : Alike root f v w) :
    Alike root f u w := by
  refine ⟨fun hnone => h'.1 (h.1 hnone), fun es hes => ?_⟩
  obtain ⟨es', hes', heq⟩ := h.2 es hes
  obtain ⟨es'', hes'', heq'⟩ := h'.2 es' hes'
  exact ⟨es'', hes'', heq'.trans heq⟩

/-- A file that is put somewhere leaves the scripts as they were, unless it is a new script. -/
theorem alike_filed {w w' : Workspace} {place : List String} {content : List UInt8} (h : w.Filed place content w')
    (root : Path) {f : Filter}
    (hnew : w.tree.get? place = none → ∀ name, place.getLast? = some name → f.accepts name = false) :
    Alike root f w w' := by
  refine ⟨Workspace.folder?_none_keeps h.kept h.cwd.symm, fun es hes => ?_⟩
  obtain ⟨q, hl⟩ := Workspace.folder?_some_iff.1 hes
  have hget := walk_found (Workspace.locate_ok_iff.1 hl).2.2
  have hfolder : ∀ es', w'.tree.get? q = some (.folder es') → w'.folder? root = .ok (some es') := by
    intro es' hes'
    exact Workspace.folder?_some_iff.2 ⟨q, Workspace.locate_keeps h.keeps h.cwd hl hes' (by simp)⟩
  rcases get?_set_folder (.file content) h.not_folder hget with hsame | ⟨r, hr, hplace, hold, hset⟩
  · exact ⟨es, hfolder es (h.tree ▸ hsame), rfl⟩
  · refine ⟨_, hfolder _ (h.tree ▸ hset), found_set root f content ?_⟩
    rw [Unselected, hold]
    rcases h.old with hnone | hfile
    · have hlast := hnew hnone
      rw [hplace, List.getLast?_append_of_ne_nil _ hr] at hlast
      exact .inl ⟨hnone, hlast⟩
    · exact .inr hfile

/-- Where the scripts are the same the selection is, if the system can still be asked about all entries that are met. -/
theorem selected_alike {w w' : Workspace} {root : Path} {f : Filter} {files : List Path} (h : Alike root f w w')
    (hs : selected w root f = .ok files) (hfits : ∀ es, w'.folder? root = .ok (some es) → Fits root f es) :
    selected w' root f = .ok files := by
  rcases selected_ok_iff.1 hs with ⟨hnone, rfl⟩ | ⟨es, hes, _, rfl⟩
  · exact selected_ok_iff.2 (.inl ⟨h.1 hnone, rfl⟩)
  · obtain ⟨es', hes', hfound⟩ := h.2 es hes
    rw [← hfound]
    exact selected_of_fits hes' (hfits es' hes')

/-- What a file holds does not matter to whether all fits. -/
theorem fits_filed {w w' : Workspace} {place : List String} {root : Path} {f : Filter} {content old : List UInt8}
    (h : w.Filed place content w') (hold : w.tree.get? place = some (.file old)) {es : Folder}
    (hes : w.folder? root = .ok (some es)) (hfits : Fits root f es) :
    ∀ es', w'.folder? root = .ok (some es') → Fits root f es' := by
  obtain ⟨q, hl⟩ := Workspace.folder?_some_iff.1 hes
  have hget := walk_found (Workspace.locate_ok_iff.1 hl).2.2
  have hfolder : ∀ fs, w'.tree.get? q = some (.folder fs) → w'.folder? root = .ok (some fs) := by
    intro fs hfs
    exact Workspace.folder?_some_iff.2 ⟨q, Workspace.locate_keeps h.keeps h.cwd hl hfs (by simp)⟩
  intro es' hes'
  rcases get?_set_folder (.file content) h.not_folder hget with hsame | ⟨r, _, hplace, hinner, hset⟩
  · rw [hfolder es (h.tree ▸ hsame)] at hes'
    cases hes'
    exact hfits
  · rw [hfolder _ (h.tree ▸ hset)] at hes'
    cases hes'
    rw [hold] at hinner
    exact fun names hasked => hfits names (hasked.of_set_file hinner)

end Selection

end RequestAtlas
