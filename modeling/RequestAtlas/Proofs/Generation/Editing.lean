import RequestAtlas.Proofs.Extracted
import RequestAtlas.Proofs.Generation.Returning
import RequestAtlas.Proofs.Scripts
/-!
# Editing one script

What a script holds decides about its own requests only.  Whatever bytes a selected script is given, the same scripts
are selected and every other one is read as before (`place_of_selected`), and the stable sort keeps the requests of the
others in their order (`sort_filter`).  So the items of all other scripts stay as they are, one after the other
(`items_of_others`), and a script that cannot be read has none.
-/

namespace RequestAtlas

open Folder Work

/-- A tree as systems have it: the names in a folder are distinct, and every name can be part of a path. -/
structure Folder.Proper [Surrogates] (tree : Folder) : Prop where
  distinct : tree.Distinct
  dots : AllNames (· ≠ "..") tree
  nameable : AllNames Text.Nameable tree
  short : AllNames (fun n => Text.nameSize n ≤ nameLimit) tree

/-- The workspace with other bytes in a file. -/
def Workspace.edited (w : Workspace) (place : List String) (content : List UInt8) : Workspace :=
  { w with tree := w.tree.set place (.file content) }

theorem Workspace.filed_edited {w : Workspace} {place : List String} {old : List UInt8}
    (hdots : AllNames (· ≠ "..") w.tree) (hold : w.tree.get? place = some (.file old)) (content : List UInt8) :
    w.Filed place content (w.edited place content) := by
  refine ⟨rfl, .inr ⟨old, hold⟩, ?_⟩
  rcases List.eq_nil_or_concat place with rfl | ⟨above, name, rfl⟩
  · cases hold
  · rw [List.concat_eq_append] at hold ⊢
    exact ⟨above, name, hdots.last hold, rfl, hasFolder_of_get? hold⟩

section
variable [Surrogates]

/-- What is read at a path depends on where its names lead. -/
theorem Workspace.read_iff_of_walk {w w' : Workspace} {p : Path} (hcwd : w'.cwd = w.cwd)
    (h : w'.tree.walk true linkLimit (w.origin p) p.parts = w.tree.walk true linkLimit (w.origin p) p.parts)
    (c : List UInt8) : w'.read p = .ok c ↔ w.read p = .ok c := by
  have horigin : w'.origin p = w.origin p := by rw [origin, origin, hcwd]
  simp only [read_ok_iff, locate_ok_iff, horigin, h]

namespace Selection

/-- A selected script is a file, and the names that lead to it from the root can be followed. -/
theorem place_of_mem_found {w : Workspace} {root p : Path} {f : Filter} {q : List String} {es : Folder}
    (hproper : w.tree.Proper) (hl : w.locate true root = .ok (.found q (.folder es))) (hp : p ∈ found root f es) :
    ∃ names, p = { root with parts := root.parts ++ names } ∧ ".." ∉ names ∧
      (∀ n ∈ names, Text.nameSize n ≤ nameLimit) ∧ ∃ old, w.tree.get? (q ++ names) = some (.file old) := by
  have hq := walk_found (Workspace.locate_ok_iff.1 hl).2.2
  obtain ⟨names, rfl, _, hfile⟩ := script_of_mem_found hp
  obtain ⟨names', hparts, hdots⟩ := names_of_mem_found (hproper.dots.of_get? hq) hp
  obtain rfl : names = names' := List.append_cancel_left (congrArg Path.parts hparts)
  obtain ⟨names', hparts, hshort⟩ := names_of_mem_found (hproper.short.of_get? hq) hp
  obtain rfl : names = names' := List.append_cancel_left (congrArg Path.parts hparts)
  obtain ⟨old, hold⟩ := hfile (hproper.distinct.of_get? hq)
  refine ⟨names, rfl, fun hmem => hdots ".." hmem rfl, hshort, old, ?_⟩
  rw [get?_append, hq, Option.bind_some, Entry.at?_folder, hold]

end Selection

variable [Syntax.Parser]

namespace Generation

theorem source_of_mem_requestsOf {w : Workspace} {client : String} {p : Path} {r : Request}
    (h : r ∈ requestsOf w client p) : r.source = p := by
  unfold requestsOf at h
  split at h
  · cases h
  · split at h
    · cases h
    · obtain ⟨_, _, hmakes⟩ := Request.makes_of_mem_extract h
      exact hmakes.found

/-- A script whose bytes are no text or no script has no requests. -/
theorem requestsOf_unreadable {w : Workspace} {client : String} {p : Path} {e : Syntax.SourceError}
    {content : List UInt8} (hread : ∀ bytes, w.read p = .ok bytes → bytes = content)
    (h : Syntax.readBytes content = .error e) : requestsOf w client p = [] := by
  cases hp : w.read p with
  | error d => rw [requestsOf, hp]
  | ok bytes =>
    obtain rfl := hread bytes hp
    rw [requestsOf, hp]
    simp only [h]

omit [Syntax.Parser] in
/-- The place of a selected script, and what other bytes at that place change: the script is read as those bytes, if it
can be read, and every other one as before. -/
theorem place_of_selected {w : Workspace} {root f : Path} {flt : Selection.Filter} {files : List Path}
    (hproper : w.tree.Proper) (hsel : Selection.selected w root flt = .ok files) (hf : f ∈ files) :
    ∃ place old, w.tree.walk true linkLimit (w.origin f) f.parts = .ok (.found place (.file old)) ∧
      ∀ c, Selection.selected (w.edited place c) root flt = .ok files ∧
        (∀ bytes, (w.edited place c).read f = .ok bytes → bytes = c) ∧
        ∀ p ∈ files, p ≠ f → ∀ bytes, (w.edited place c).read p = .ok bytes ↔ w.read p = .ok bytes := by
  obtain ⟨q, es, hl, hfound⟩ := Selection.exists_of_mem_selected hsel hf
  obtain ⟨names, rfl, hdots, hshort, old, hold⟩ := Selection.place_of_mem_found hproper hl hfound
  have hroot := (Workspace.locate_ok_iff.1 hl).2.2
  refine ⟨q ++ names, old, walk_below hroot (by simp) hdots hshort hold, fun c => ?_⟩
  have hfiled := Workspace.filed_edited hproper.dots hold c
  -- the root leads to the same place, and so does every path that goes on from there
  obtain ⟨es', hes'⟩ := hfiled.keeps.folders q ⟨es, walk_found hroot⟩
  have hroot' := hfiled.keeps.walk_found hroot hes' (by simp)
  refine ⟨?_, ?_, ?_⟩
  · obtain ⟨_, hfits⟩ := exists_selected_iff.1 ⟨files, hsel⟩
    have hroot? : w.folder? root = .ok (some es) := Workspace.folder?_some_iff.2 ⟨q, hl⟩
    exact Selection.selected_alike (Selection.alike_filed hfiled root (by simp [hold])) hsel
      (Selection.fits_filed hfiled hold hroot? (hfits es hroot?))
  · intro bytes hread
    obtain ⟨place, hl'⟩ := Workspace.read_ok_iff.1 hread
    have hwalk := (Workspace.locate_ok_iff.1 hl').2.2
    have hedited := walk_below hroot' (by simp) hdots hshort hfiled.get?
    cases hwalk.symm.trans hedited
    rfl
  · intro p hp hne bytes
    obtain ⟨q', es'', hl', hfound'⟩ := Selection.exists_of_mem_selected hsel hp
    cases hl.symm.trans hl'
    obtain ⟨names', rfl, hdots', hshort', old', hold'⟩ := Selection.place_of_mem_found hproper hl hfound'
    have hplace : q ++ names' ≠ q ++ names := by
      intro heq
      rw [List.append_cancel_left heq] at hne
      exact hne rfl
    have hkept := ((hfiled.similar hplace).file old').1 hold'
    apply Workspace.read_iff_of_walk hfiled.cwd
    exact (walk_below hroot' (by simp) hdots' hshort' hkept).trans
      (walk_below hroot (by simp) hdots' hshort' hold').symm

end Generation

end

namespace Generation

/-! ## Sorting and listing -/

/-- Requests that are left out are left out of the order. -/
theorem sort_filter (p : Request → Bool) (rs : List Request) :
    (Request.sort rs).filter p = Request.sort (rs.filter p) :=
  ((Request.stableSort_sort rs).filter p).unique (Request.stableSort_sort _)

/-- The requests of other files do not depend on what one file gives. -/
theorem filter_flatMap_eq {f : Path} {files : List Path} {g g' : Path → List Request}
    (hg : ∀ p, ∀ r ∈ g p, r.source = p) (hg' : ∀ p, ∀ r ∈ g' p, r.source = p)
    (h : ∀ p ∈ files, p ≠ f → g p = g' p) :
    (files.flatMap g).filter (·.source ≠ f) = (files.flatMap g').filter (·.source ≠ f) := by
  have hnone : ∀ {k : Path → List Request}, (∀ p, ∀ r ∈ k p, r.source = p) → (k f).filter (·.source ≠ f) = [] := by
    intro k hk
    rw [List.filter_eq_nil_iff]
    intro r hr
    simp [hk f r hr]
  rw [List.filter_flatMap, List.filter_flatMap]
  apply List.flatMap_congr
  intro p hp
  by_cases hpf : p = f
  · subst hpf
    rw [hnone hg, hnone hg']
  · rw [h p hp hpf]

end Generation

/-- `items` are the items of a collection, in their order and each with the request that it was built from. -/
structure Document.Lists (cwd : List String) (base : Path) (name : String) (rs : List Request) (doc : Value)
    (items : List (Request × Value)) : Prop where
  sorted : items.map (·.1) = Request.sort rs
  built : ∀ x ∈ items, item cwd base x.1 = .ok x.2
  document : doc = collectionOf name (items.map (·.2))

theorem Document.lists_of_collection {cwd : List String} {base : Path} {name : String} {rs : List Request} {doc : Value}
    (h : collection cwd base name rs = .ok doc) :
    Lists cwd base name rs doc ((Request.sort rs).map fun r => (r, itemOf cwd base r)) where
  sorted := by
    rw [List.map_map]
    exact List.map_id _
  built := by
    intro x hx
    obtain ⟨r, hr, rfl⟩ := List.mem_map.1 hx
    exact item_eq cwd base (hasLong_of_collection h r (List.mem_mergeSort.1 hr))
  document := by
    rw [collection_eq cwd base name (hasLong_of_collection h)] at h
    cases h
    rw [List.map_map]
    rfl

namespace Generation

/-- **Editing one script affects its own requests only.**  A selected script is a file.  Whatever two contents it is
given, the same scripts are selected, and in the two collections the items of all other scripts are the same, in the
same order; a content that is no text or no script gives the script no request. -/
theorem items_of_others [Surrogates] [Syntax.Parser] (s : Settings) (w : Workspace) (files : List Path) (f : Path)
    (hproper : w.tree.Proper) (hsel : (Selection.select s.rootPath (filterOf s)).Answers w (.ok files))
    (hf : f ∈ files) :
    ∃ place old, w.tree.walk true linkLimit (w.origin f) f.parts = .ok (.found place (.file old)) ∧
      ∀ c c', ∃ rs rs', (collect s).Answers (w.edited place c) (.ok (files, rs)) ∧
        (collect s).Answers (w.edited place c') (.ok (files, rs')) ∧
        ((∃ e, Syntax.readBytes c = .error e) → ∀ r ∈ rs, r.source ≠ f) ∧
        ∀ doc doc', Document.collection w.cwd s.baseDir s.collectionName rs = .ok doc →
          Document.collection w.cwd s.baseDir s.collectionName rs' = .ok doc' →
          ∃ items items', Document.Lists w.cwd s.baseDir s.collectionName rs doc items ∧
            Document.Lists w.cwd s.baseDir s.collectionName rs' doc' items' ∧
            items.filter (·.1.source ≠ f) = items'.filter (·.1.source ≠ f) := by
  have hselected : Selection.selected w s.rootPath (filterOf s) = .ok files :=
    (Selection.select_answers s.rootPath (filterOf s) w).unique hsel
  obtain ⟨place, old, hplace, hedited⟩ := place_of_selected hproper hselected hf
  have hgathered : ∀ c, (collect s).Answers (w.edited place c)
      (.ok (files, files.flatMap (requestsOf (w.edited place c) s.clientName))) := by
    intro c
    have hfault : ∀ p ∈ files, p.fault? = none := fun p hp => fault?_script hproper.nameable hselected hp
    exact gathered_of_selected (hedited c).1 hfault ▸ collect_answers s _
  refine ⟨place, old, hplace, fun c c' => ⟨_, _, hgathered c, hgathered c', ?_, ?_⟩⟩
  · rintro ⟨e, he⟩ r hr rfl
    obtain ⟨p, _, hrp⟩ := List.mem_flatMap.1 hr
    obtain rfl := source_of_mem_requestsOf hrp
    rw [requestsOf_unreadable (hedited c).2.1 he] at hrp
    cases hrp
  · intro doc doc' hdoc hdoc'
    refine ⟨_, _, Document.lists_of_collection hdoc, Document.lists_of_collection hdoc', ?_⟩
    have hsame : ∀ p ∈ files, p ≠ f → requestsOf (w.edited place c) s.clientName p =
        requestsOf (w.edited place c') s.clientName p := by
      intro p hp hne
      have hread : ∀ bytes, (w.edited place c).read p = .ok bytes ↔ (w.edited place c').read p = .ok bytes :=
        fun bytes => ((hedited c).2.2 p hp hne bytes).trans ((hedited c').2.2 p hp hne bytes).symm
      exact requestsOf_congr hread s.clientName
    have hothers := filter_flatMap_eq (fun _ _ => source_of_mem_requestsOf) (fun _ _ => source_of_mem_requestsOf) hsame
    have hsorted := congrArg Request.sort hothers
    rw [← sort_filter, ← sort_filter] at hsorted
    rw [List.filter_map, List.filter_map]
    exact congrArg _ hsorted

section
attribute [local instance] Surrogates.unassigned Syntax.Parser.javascript

theorem proper_twoScriptsMade (a b : List UInt8) : (twoScriptsMade a b).tree.Proper := by
  have hnames : ∀ {P : String → Prop}, (∀ n ∈ ["tools", "1_x", "a.js", "b.js", "out"], P n) →
      AllNames P (twoScriptsMade a b).tree := by
    intro P hP
    simpa [twoScriptsMade, numberedFolder, AllNames, Entry.AllNames] using hP
  exact ⟨distinct_of_everywhere rfl, hnames (by decide), hnames (by decide), hnames (by decide)⟩

/-- What the second script requests, whatever the first one does. -/
theorem others_twoScripts (c : List UInt8) :
    ((Request.sort (requestsOf (twoScriptsMade c getOnly) nested.clientName firstPath ++
      requestsOf (twoScriptsMade c getOnly) nested.clientName secondPath)).filter (·.source ≠ firstPath)).map
        (Document.requestName [] nested.baseDir) = ["GET /a (tools/1_x/b.js)"] := by
  have hsecond : requestsOf (twoScriptsMade c getOnly) nested.clientName secondPath =
      requestsIn nested.clientName secondPath getOnly := requestsOf_of_read (read_twoScriptsMade c getOnly).2 _
  have hnames : (requestsIn nested.clientName secondPath getOnly).map (Document.requestName [] nested.baseDir) =
      ["GET /a (tools/1_x/b.js)"] := by
    decide +kernel
  have hfirst : (requestsOf (twoScriptsMade c getOnly) nested.clientName firstPath).filter (·.source ≠ firstPath) =
      [] := by
    rw [List.filter_eq_nil_iff]
    intro r hr
    simp [source_of_mem_requestsOf hr]
  have hall : (requestsOf (twoScriptsMade c getOnly) nested.clientName secondPath).filter (·.source ≠ firstPath) =
      requestsOf (twoScriptsMade c getOnly) nested.clientName secondPath := by
    rw [List.filter_eq_self]
    intro r hr
    rw [source_of_mem_requestsOf hr]
    decide
  rw [sort_filter, List.filter_append, hfirst, List.nil_append, hall, hsecond]
  obtain ⟨r, hr, hname⟩ := List.map_eq_singleton_iff.1 hnames
  rw [hr, Request.sort, List.mergeSort_singleton, List.map_singleton, hname]

/-- Whatever the first of two scripts holds, the item of the second stays. -/
theorem items_of_others_twoScripts : (twoScriptsMade getAndPost getOnly).tree.Proper ∧
    (Selection.select nested.rootPath (filterOf nested)).Answers (twoScriptsMade getAndPost getOnly)
      (.ok [firstPath, secondPath]) ∧ firstPath ∈ [firstPath, secondPath] ∧
    ∃ place old, (twoScriptsMade getAndPost getOnly).tree.walk true linkLimit
        ((twoScriptsMade getAndPost getOnly).origin firstPath) firstPath.parts = .ok (.found place (.file old)) ∧
      ∀ c c', ∃ rs rs',
        (collect nested).Answers ((twoScriptsMade getAndPost getOnly).edited place c)
          (.ok ([firstPath, secondPath], rs)) ∧
        (collect nested).Answers ((twoScriptsMade getAndPost getOnly).edited place c')
          (.ok ([firstPath, secondPath], rs')) ∧
        ((∃ e, Syntax.readBytes c = .error e) → ∀ r ∈ rs, r.source ≠ firstPath) ∧
        ∀ doc doc', Document.collection [] nested.baseDir nested.collectionName rs = .ok doc →
          Document.collection [] nested.baseDir nested.collectionName rs' = .ok doc' →
          ∃ items items', Document.Lists [] nested.baseDir nested.collectionName rs doc items ∧
            Document.Lists [] nested.baseDir nested.collectionName rs' doc' items' ∧
            items.filter (·.1.source ≠ firstPath) = items'.filter (·.1.source ≠ firstPath) ∧
            (items.filter (·.1.source ≠ firstPath)).map (fun x => Document.requestName [] nested.baseDir x.1) =
              ["GET /a (tools/1_x/b.js)"] := by
  have hproper := proper_twoScriptsMade getAndPost getOnly
  have hsel := Selection.select_answers nested.rootPath (filterOf nested) (twoScriptsMade getAndPost getOnly)
  rw [selected_twoScriptsMade] at hsel
  have hfirst : firstPath ∈ [firstPath, secondPath] := by simp
  obtain ⟨place, old, hplace, hothers⟩ := items_of_others _ _ _ _ hproper hsel hfirst
  refine ⟨hproper, hsel, hfirst, place, old, hplace, fun c c' => ?_⟩
  obtain ⟨rs, rs', hcollect, hcollect', hnone, hitems⟩ := hothers c c'
  refine ⟨rs, rs', hcollect, hcollect', hnone, fun doc doc' hdoc hdoc' => ?_⟩
  obtain ⟨items, items', hlists, hlists', hsame⟩ := hitems doc doc' hdoc hdoc'
  refine ⟨items, items', hlists, hlists', hsame, ?_⟩
  have hspelled : place = ["tools", "1_x", "a.js"] :=
    ((walk_eq_found_iff (linkFree_twoScriptsMade _ _) (by decide)).1 hplace).1
  subst hspelled
  have hrs := hcollect.unique (gathered_twoScriptsMade c getOnly ▸ collect_answers nested (twoScriptsMade c getOnly))
  cases hrs
  rw [← others_twoScripts c, ← hlists.sorted, List.filter_map, List.map_map]
  rfl

end

end Generation

end RequestAtlas
