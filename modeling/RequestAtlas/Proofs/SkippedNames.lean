import RequestAtlas.Proofs.ExactSelection
/-!
# Names that are left out

The names that a filter leaves out are looked for at every entry that the search meets, and the search meets all that is
below a numbered folder.  It does not meet the numbered folder itself, which is chosen by its number alone.  Main
statement `select_skips_iff`: below the numbered folders no name is selected that is to be left out, and no path that is
selected leads through a folder of such a name just if no numbered folder with a script in it has one.
-/

namespace RequestAtlas.Selection

open Folder

/-- The names of the folders that lead from a root to a path below it. -/
def foldersBelow (root p : Path) : List String := (p.parts.drop root.parts.length).dropLast

/-- No path leads through a folder below the root whose name is to be left out. -/
def Skips (f : Filter) (root : Path) (paths : List Path) : Prop :=
  ∀ p ∈ paths, ∀ dir ∈ foldersBelow root p, dir ∉ f.skip

theorem foldersBelow_scriptPath (root : Path) (folder : String) {names : List String} (h : names ≠ []) :
    foldersBelow root (scriptPath root folder names) = folder :: names.dropLast := by
  rw [foldersBelow, scriptPath, List.drop_left, List.dropLast_cons_of_ne_nil h]

/-- A script leads through no folder that is to be left out, just if its numbered folder is none. -/
theorem Selectable.skips_iff {f : Filter} {es : Folder} {folder : String} {names : List String}
    (h : Selectable f es folder names) (root : Path) :
    (∀ dir ∈ foldersBelow root (scriptPath root folder names), dir ∉ f.skip) ↔ folder ∉ f.skip := by
  rw [foldersBelow_scriptPath root folder h.nonempty, List.forall_mem_cons]
  exact and_iff_left fun dir hdir => h.kept dir (List.dropLast_subset names hdir)

section
variable [Surrogates]

/-- The paths that are selected are those of the scripts to be selected. -/
theorem mem_selected_iff {w : Workspace} {root : Path} {f : Filter} {paths : List Path} (hdistinct : w.tree.Distinct)
    (h : selected w root f = .ok paths) {p : Path} :
    p ∈ paths ↔ ∃ es folder names, w.folder? root = .ok (some es) ∧ Selectable f es folder names ∧
      p = scriptPath root folder names := by
  rcases selected_ok_iff.1 h with ⟨hroot, rfl⟩ | ⟨es, hroot, _, rfl⟩
  · simp [hroot]
  · have hd := distinct_of_folder? hroot hdistinct
    rw [found_eq_picks, List.mem_map]
    constructor
    · rintro ⟨⟨folder, names⟩, hpick, rfl⟩
      exact ⟨es, folder, names, hroot, (mem_picks_iff hd).1 hpick, rfl⟩
    · rintro ⟨es', folder, names, hroot', hselectable, rfl⟩
      rw [hroot] at hroot'
      cases hroot'
      exact ⟨(folder, names), (mem_picks_iff hd).2 hselectable, rfl⟩

/-- **Names are left out everywhere below the numbered folders, and nowhere else.**  No name below a numbered folder is
one that is to be left out, neither that of a folder nor that of the script.  A numbered folder is searched whatever its
name: no path leads through a folder that is to be left out just if no numbered folder with a script to be selected has
such a name. -/
theorem select_skips_iff {w : Workspace} {root : Path} {f : Filter} {paths : List Path} (hdistinct : w.tree.Distinct)
    (h : (select root f).Answers w (.ok paths)) :
    (∀ p ∈ paths, ∃ folder names, p = scriptPath root folder names ∧ ∀ name ∈ names, name ∉ f.skip) ∧
    (Skips f root paths ↔ ∀ es folder names, w.folder? root = .ok (some es) → Selectable f es folder names →
      folder ∉ f.skip) := by
  have hselected : selected w root f = .ok paths := (select_answers root f w).unique h
  have hmem : ∀ {p}, p ∈ paths ↔ _ := mem_selected_iff hdistinct hselected
  refine ⟨?_, ?_, ?_⟩
  · intro p hp
    obtain ⟨es, folder, names, _, hselectable, rfl⟩ := hmem.1 hp
    exact ⟨folder, names, rfl, hselectable.kept⟩
  · intro hskips es folder names hroot hselectable
    exact (hselectable.skips_iff root).1 (hskips _ (hmem.2 ⟨es, folder, names, hroot, hselectable, rfl⟩))
  · intro hfolders p hp
    obtain ⟨es, folder, names, hroot, hselectable, rfl⟩ := hmem.1 hp
    exact (hselectable.skips_iff root).2 (hfolders es folder names hroot hselectable)

end

theorem selectable_mixedFolders {f : Filter} (hextension : ".js" ∈ f.extensions) (hsub : "sub" ∉ f.skip)
    (hfile : "y.js" ∉ f.skip) : Selectable f mixedFolders.tree "2_b" ["sub", "y.js"] := by
  have hplace : mixedFolders.tree.get? ["2_b", "sub", "y.js"] = some (.file []) := rfl
  exact ⟨⟨2, by decide, number?_eq_some_iff.1 (by decide)⟩, by decide, fun _ _ => folders_of_file hplace, ⟨[], hplace⟩,
    List.forall_mem_cons.2 ⟨hsub, List.forall_mem_singleton.2 hfile⟩, "y.js", rfl, ".js", hextension, by decide⟩

section
attribute [local instance] Surrogates.unassigned

theorem answers_mixedFolders (f : Filter) : (select ⟨.root, []⟩ f).Answers mixedFolders
    (.ok ((picks f mixedFolders.tree).map fun p => scriptPath ⟨.root, []⟩ p.1 p.2)) := by
  rw [← selected_eq_picks folder?_mixedFolders (fits_mixedFolders f)]
  exact select_answers _ f mixedFolders

/-- A name without a number is left out wherever it stands. -/
theorem select_skips_iff_mixedFolders : mixedFolders.tree.Distinct ∧
    ∃ paths, (select ⟨.root, []⟩ ⟨[".js"], ["old"]⟩).Answers mixedFolders (.ok paths) ∧
      scriptPath ⟨.root, []⟩ "2_b" ["sub", "y.js"] ∈ paths ∧ Skips ⟨[".js"], ["old"]⟩ ⟨.root, []⟩ paths := by
  have hanswers := answers_mixedFolders ⟨[".js"], ["old"]⟩
  have hselected := (select_answers _ _ _).unique hanswers
  refine ⟨distinct_mixedFolders, _, hanswers, ?_, ?_⟩
  · exact (mem_selected_iff distinct_mixedFolders hselected).2
      ⟨_, _, _, folder?_mixedFolders, selectable_mixedFolders (by decide) (by decide) (by decide), rfl⟩
  · refine (select_skips_iff distinct_mixedFolders hanswers).2.2 ?_
    rintro es folder names _ hselectable hskip
    obtain rfl := List.mem_singleton.1 hskip
    obtain ⟨n, _, hnumber⟩ := hselectable.number
    have hnone : number? "old" = none := by decide
    rw [number?_eq_some_iff.2 hnumber] at hnone
    cases hnone

/-- A numbered folder is searched although its name is to be left out. -/
theorem select_searches_mixedFolders : ¬ ∀ (w : Workspace) (root : Path) (f : Filter) (paths : List Path),
    w.tree.Distinct → (select root f).Answers w (.ok paths) → Skips f root paths := by
  intro h
  have hanswers := answers_mixedFolders ⟨[".js"], ["2_b"]⟩
  have hselected := (select_answers _ _ _).unique hanswers
  have hselectable : Selectable ⟨[".js"], ["2_b"]⟩ mixedFolders.tree "2_b" ["sub", "y.js"] :=
    selectable_mixedFolders (by decide) (by decide) (by decide)
  have hmem := (mem_selected_iff distinct_mixedFolders hselected).2 ⟨_, _, _, folder?_mixedFolders, hselectable, rfl⟩
  have hskips := h mixedFolders ⟨.root, []⟩ _ _ distinct_mixedFolders hanswers _ hmem
  exact (hselectable.skips_iff _).1 hskips (by decide)

end

end RequestAtlas.Selection
