import RequestAtlas.Proofs.FileTree.Keeping
import RequestAtlas.Proofs.Workspace.Writing
/-!
# What making folders leaves behind

Making a folder and those above it may stop half-way, and what was made until then stays.  `Dug places` is any number
of new empty folders at some of the given places, each where nothing stood.  Whether `ensureFolders` answers or fails,
it leaves folders dug at the places of beginnings of the path (`made_ensureFolders`), and nothing else.  If it
answers, the path leads to a folder (`locate_ensureFolders`).
-/

namespace RequestAtlas

namespace Folder

/-- New empty folders were put at some of the given places, each where nothing stood. -/
def Dug (places : List String → Prop) : Folder → Folder → Prop :=
  Relation.ReflTransGen fun tree tree' => ∃ above name, name ≠ ".." ∧ places (above ++ [name]) ∧
    tree.get? (above ++ [name]) = none ∧ tree' = tree.set (above ++ [name]) (.folder [])

theorem Dug.mono {places places' : List String → Prop} {tree tree' : Folder} (h : Dug places tree tree')
    (hsub : ∀ q, places q → places' q) : Dug places' tree tree' := by
  refine Relation.ReflTransGen.mono ?_ _ _ h
  rintro a b ⟨above, name, hname, hplace, hnone, heq⟩
  exact ⟨above, name, hname, hsub _ hplace, hnone, heq⟩

/-- What one new folder changes: the place itself, if there is a folder around it, and nothing else. -/
theorem frame_set_folder {tree : Folder} {above : List String} {name : String}
    (hnone : tree.get? (above ++ [name]) = none) (q : List String) :
    Similar (tree.get? q) ((tree.set (above ++ [name]) (.folder [])).get? q) ∨
    (q = above ++ [name] ∧ (tree.set (above ++ [name]) (.folder [])).HasFolder q) := by
  by_cases habove : tree.HasFolder above
  · obtain ⟨sub, habove⟩ := habove
    by_cases hq : q = above ++ [name]
    · exact .inr ⟨hq, [], by rw [hq, get?_set_below [] habove]; rfl⟩
    · have hold : ∀ sub, tree.get? (above ++ [name]) ≠ some (.folder sub) := by simp [hnone]
      exact .inl (similar_set (fun _ _ => rfl) hold hq)
  · rw [set_eq_self _ fun sub hsub => habove ⟨sub, hsub⟩]
    exact .inl (.inl rfl)

section
variable {places : List String → Prop} {tree tree' : Folder} (h : Dug places tree tree')
include h

/-- Every place holds what it held, up to what folders hold, unless it is one of the given ones and was free. -/
theorem Dug.frame (q : List String) : Similar (tree.get? q) (tree'.get? q) ∨
    (tree.get? q = none ∧ tree'.HasFolder q ∧ places q) := by
  induction h with
  | refl => exact .inl (.inl rfl)
  | @tail u v _ hstep ih =>
    obtain ⟨above, name, _, hplace, hnone, rfl⟩ := hstep
    rcases ih with hsame | ⟨hfree, hfolder, hq⟩
    · rcases frame_set_folder hnone q with hset | ⟨rfl, hset⟩
      · exact .inl (hsame.trans hset)
      · exact .inr ⟨hsame.none.2 hnone, hset, hplace⟩
    · rcases frame_set_folder hnone q with hset | ⟨rfl, hset⟩
      · exact .inr ⟨hfree, hset.hasFolder.1 hfolder, hq⟩
      · exact .inr ⟨hfree, hset, hplace⟩

theorem Dug.keeps : tree.Keeps tree' where
  folders q hq := by
    rcases h.frame q with hsame | ⟨_, hfolder, _⟩
    · exact hsame.hasFolder.1 hq
    · exact hfolder
  links q target hq := by
    rcases h.frame q with hsame | ⟨hnone, _⟩
    · exact (hsame.link target).1 hq
    · rw [hnone] at hq
      cases hq

theorem Dug.linkFree (hlinks : tree.LinkFree) : tree'.LinkFree := by
  intro q target hq
  rcases h.frame q with hsame | ⟨_, ⟨es, hfolder⟩, _⟩
  · exact hlinks q target ((hsame.link target).2 hq)
  · rw [hfolder] at hq
    cases hq

/-- Folders that were dug are folders that were added, and none is named by two dots. -/
theorem Dug.growth : ∃ names, ".." ∉ names ∧ Growth names tree tree' := by
  induction h with
  | refl => exact ⟨[], by simp, .refl⟩
  | @tail u v _ hstep ih =>
    obtain ⟨names, hnames, hgrowth⟩ := ih
    obtain ⟨above, name, hname, _, hnone, rfl⟩ := hstep
    refine ⟨name :: names, ?_, ?_⟩
    · simp only [List.mem_cons, not_or]
      exact ⟨hname.symm, hnames⟩
    · have hmore : Growth (name :: names) tree u := by
        refine Relation.ReflTransGen.mono ?_ _ _ hgrowth
        rintro a b ⟨n, hn, hgrown⟩
        exact ⟨n, List.mem_cons_of_mem name hn, hgrown⟩
      rcases grown_set hnone with hsame | hgrown
      · rwa [hsame]
      · exact hmore.tail ⟨name, List.mem_cons_self, hgrown⟩

end

/-- The last name of a free place is no double dot. -/
theorem walk_free_name [Surrogates] {tree : Folder} {follow : Bool} {links : Nat} {place names q : List String}
    (h : tree.walk follow links place names = .ok (.free q)) : q.getLast? ≠ some ".." := by
  fun_induction walk tree follow links place names with
  | case3 links place rest ih => exact ih h
  | case5 links place name rest hname hsize hnone hrest =>
    cases h
    simpa using hname
  | case7 links place name rest hname hsize es hes ih => exact ih h
  | case12 place name rest hname hsize target htarget hrest links p ih => exact ih h
  | _ => cases h

end Folder

/-- A place is that of a beginning of the path. -/
def Path.Begins (cwd : List String) (p : Path) (q : List String) : Prop :=
  ∃ front, front <+: p.parts ∧ q = Path.resolve cwd ⟨p.anchor, front⟩

open Folder

namespace Workspace

/-- Nothing was done but to make folders at places of beginnings of a path. -/
structure Made (p : Path) (w w' : Workspace) : Prop where
  rest : w' = { w with tree := w'.tree }
  dug : Dug (p.Begins w.cwd) w.tree w'.tree

theorem Made.refl (p : Path) (w : Workspace) : w.Made p w := ⟨rfl, .refl⟩

theorem Made.cwd {p : Path} {w w' : Workspace} (h : w.Made p w') : w'.cwd = w.cwd := by
  rw [h.rest]

theorem Made.trans {p : Path} {u v w : Workspace} (h : u.Made p v) (h' : v.Made p w) : u.Made p w where
  rest := by rw [h'.rest, h.rest]
  dug := h.dug.trans (h.cwd ▸ h'.dug)

/-- Beginnings of a beginning are beginnings. -/
theorem Made.longer {anchor : Anchor} {names names' : List String} {w w' : Workspace}
    (h : w.Made ⟨anchor, names⟩ w') (hfront : names <+: names') : w.Made ⟨anchor, names'⟩ w' := by
  refine ⟨h.rest, h.dug.mono ?_⟩
  rintro q ⟨front, hpre, rfl⟩
  exact ⟨front, hpre.trans hfront, rfl⟩

variable [Surrogates]

/-- In a tree without links a path leads to the place that it spells. -/
theorem locate_resolves {w : Workspace} {p : Path} (hlinks : w.tree.LinkFree) {follow : Bool} {t : Target}
    (h : w.locate follow p = .ok t) : t.place = p.resolve w.cwd :=
  walk_resolves hlinks (locate_ok_iff.1 h).2.2

theorem makeFolder_ok_iff {w w' : Workspace} {p : Path} : w.makeFolder p = .ok w' ↔
    ∃ q, w.locate false p = .ok (.free q) ∧ w' = { w with tree := w.tree.set q (.folder []) } := by
  unfold makeFolder
  cases hl : w.locate false p with
  | error e => simp
  | ok t => cases t <;> simp [eq_comm]

theorem made_makeFolder {w w' : Workspace} {p : Path} (hlinks : w.tree.LinkFree) (h : w.makeFolder p = .ok w') :
    w.Made p w' := by
  obtain ⟨q, hfree, rfl⟩ := makeFolder_ok_iff.1 h
  have hwalk := (locate_ok_iff.1 hfree).2.2
  obtain ⟨above, name, rfl, hnone, _⟩ := walk_free hwalk
  have hname : name ≠ ".." := by simpa using walk_free_name hwalk
  have hplace : above ++ [name] = p.resolve w.cwd := locate_resolves hlinks hfree
  exact ⟨rfl, .single ⟨above, name, hname, ⟨p.parts, List.prefix_refl _, hplace⟩, hnone, rfl⟩⟩

end Workspace

namespace Work

open Workspace

variable [Surrogates]

/-- What making sure of a folder can do: make it, or leave everything as it is; then it answers only if there is a
folder. -/
theorem ensureFolder_cases {w w' : Workspace} {p : Path} {r : Except Failure Unit}
    (h : (ensureFolder p).outcome w = (r, w')) :
    (r = .ok () ∧ w.makeFolder p = .ok w') ∨
    (w' = w ∧ ((∃ es, r = .ok () ∧ w.folder? p = .ok (some es)) ∨ ∃ e, r = .error (.file e))) := by
  rw [ensureFolder, outcome_bind, outcome_get] at h
  dsimp only at h
  cases hmake : w.makeFolder p with
  | ok v =>
    rw [hmake] at h
    cases h
    exact .inl ⟨rfl, rfl⟩
  | error e =>
    right
    rw [hmake] at h
    split at h
    · rename_i heq
      cases heq
    · cases h
      exact ⟨rfl, .inr ⟨_, rfl⟩⟩
    · cases h
      exact ⟨rfl, .inr ⟨_, rfl⟩⟩
    · rename_i d _ _ _
      cases hf : w.folder? p with
      | error e' =>
        rw [hf] at h
        cases h
        exact ⟨rfl, .inr ⟨_, rfl⟩⟩
      | ok o =>
        rw [hf] at h
        cases o with
        | none =>
          cases h
          exact ⟨rfl, .inr ⟨_, rfl⟩⟩
        | some es =>
          cases h
          exact ⟨rfl, .inl ⟨es, rfl, rfl⟩⟩

theorem made_ensureFolder {w w' : Workspace} {p : Path} {r : Except Failure Unit} (hlinks : w.tree.LinkFree)
    (h : (ensureFolder p).outcome w = (r, w')) : w.Made p w' := by
  rcases ensureFolder_cases h with ⟨_, hmake⟩ | ⟨rfl, _⟩
  · exact made_makeFolder hlinks hmake
  · exact Made.refl p w'

theorem ensureFolder_error {w w' : Workspace} {p : Path} {e : Failure}
    (h : (ensureFolder p).outcome w = (.error e, w')) : ∃ d, e = .file d := by
  rcases ensureFolder_cases h with ⟨hr, _⟩ | ⟨_, ⟨_, hr, _⟩ | ⟨d, hr⟩⟩
  · cases hr
  · cases hr
  · cases hr
    exact ⟨d, rfl⟩

/-- What making sure of a folder and of those above it can do: make sure of the folder, perhaps after those above. -/
theorem ensureFoldersIn_cases {anchor : Anchor} {name : String} {above : List String} {w w' : Workspace}
    {r : Except Failure Unit} (h : (ensureFoldersIn anchor (name :: above)).outcome w = (r, w')) :
    (ensureFolder ⟨anchor, (name :: above).reverse⟩).outcome w = (r, w') ∨
    (∃ v, (ensureFoldersIn anchor above).outcome w = (.ok (), v) ∧
      (ensureFolder ⟨anchor, (name :: above).reverse⟩).outcome v = (r, w')) ∨
    (∃ e, (ensureFoldersIn anchor above).outcome w = (.error e, w') ∧ r = .error e) := by
  rw [ensureFoldersIn, outcome_bind, outcome_get] at h
  dsimp only at h
  split at h
  · right
    rw [outcome_bind] at h
    cases habove : (ensureFoldersIn anchor above).outcome w with
    | mk r' v =>
      rw [habove] at h
      cases r' with
      | ok u => exact .inl ⟨v, rfl, h⟩
      | error e =>
        cases h
        exact .inr ⟨e, rfl, rfl⟩
  · exact .inl h

/-- Folders that cannot be made are reported as such. -/
theorem ensureFoldersIn_error (anchor : Anchor) : ∀ {names : List String} {w w' : Workspace} {e : Failure},
    (ensureFoldersIn anchor names).outcome w = (.error e, w') → ∃ d, e = .file d
  | [], w, w', e, h => ensureFolder_error h
  | name :: above, w, w', e, h => by
    rcases ensureFoldersIn_cases h with hlast | ⟨v, _, hlast⟩ | ⟨d, habove, heq⟩
    · exact ensureFolder_error hlast
    · exact ensureFolder_error hlast
    · cases heq
      exact ensureFoldersIn_error anchor habove

theorem ensureFolders_error {w w' : Workspace} {p : Path} {e : Failure}
    (h : (ensureFolders p).outcome w = (.error e, w')) : ∃ d, e = .file d :=
  ensureFoldersIn_error p.anchor h

theorem made_ensureFoldersIn (anchor : Anchor) : ∀ {names : List String} {w w' : Workspace}
    {r : Except Failure Unit}, w.tree.LinkFree → (ensureFoldersIn anchor names).outcome w = (r, w') →
      w.Made ⟨anchor, names.reverse⟩ w'
  | [], w, w', r, hlinks, h => made_ensureFolder hlinks h
  | name :: above, w, w', r, hlinks, h => by
    have hfront : above.reverse <+: (name :: above).reverse := by simp
    rcases ensureFoldersIn_cases h with hlast | ⟨v, habove, hlast⟩ | ⟨e, habove, _⟩
    · exact made_ensureFolder hlinks hlast
    · have hmade := (made_ensureFoldersIn anchor hlinks habove).longer hfront
      exact hmade.trans (made_ensureFolder (hmade.dug.linkFree hlinks) hlast)
    · exact (made_ensureFoldersIn anchor hlinks habove).longer hfront

/-- **Whether it answers or fails, making a folder and all that are missing above it makes folders at places of
beginnings of the path and does nothing else.** -/
theorem made_ensureFolders {w w' : Workspace} {p : Path} {r : Except Failure Unit} (hlinks : w.tree.LinkFree)
    (h : (ensureFolders p).outcome w = (r, w')) : w.Made p w' := by
  have hmade := made_ensureFoldersIn p.anchor hlinks h
  rwa [List.reverse_reverse] at hmade

/-! ## The folder that was made -/

theorem locate_ensureFolder {w w' : Workspace} {p : Path} (hlinks : w.tree.LinkFree)
    (horigin : w.tree.HasFolder (w.origin p)) (h : (ensureFolder p).outcome w = (.ok (), w')) :
    ∃ es, w'.locate true p = .ok (.found (p.resolve w.cwd) (.folder es)) := by
  rcases ensureFolder_cases h with ⟨_, hmake⟩ | ⟨rfl, ⟨es, _, hfolder⟩ | ⟨_, hr⟩⟩
  · have hkeeps := (made_makeFolder hlinks hmake).dug.keeps
    have hlinks' := (made_makeFolder hlinks hmake).dug.linkFree hlinks
    obtain ⟨q, hfree, rfl⟩ := makeFolder_ok_iff.1 hmake
    have hplace : q = p.resolve w.cwd := locate_resolves hlinks hfree
    obtain ⟨hfault, hlong, hwalk⟩ := locate_ok_iff.1 hfree
    obtain ⟨above, name, rfl, hnone, _, habove⟩ := walk_free hwalk
    obtain ⟨sub, hsub⟩ := habove horigin
    have hnew : (w.tree.set (above ++ [name]) (.folder [])).get? (above ++ [name]) = some (.folder []) := by
      rw [get?_set_below [] hsub]
      rfl
    have hfound := (hkeeps.walk_free hwalk).2 _ hnew (by simp)
    rw [walk_follow hlinks' false true linkLimit linkLimit] at hfound
    exact ⟨[], locate_ok_iff.2 ⟨hfault, hlong, hplace ▸ hfound⟩⟩
  · obtain ⟨q, hfound⟩ := folder?_some_iff.1 hfolder
    have hplace : q = p.resolve w'.cwd := locate_resolves hlinks hfound
    exact ⟨es, hplace ▸ hfound⟩
  · cases hr

/-- If making folders answers, the path leads to a folder. -/
theorem locate_ensureFolders {w w' : Workspace} {p : Path} (hlinks : w.tree.LinkFree)
    (horigin : w.tree.HasFolder (w.origin p)) (h : (ensureFolders p).outcome w = (.ok (), w')) :
    ∃ es, w'.locate true p = .ok (.found (p.resolve w.cwd) (.folder es)) := by
  obtain ⟨anchor, parts⟩ := p
  rw [ensureFolders] at h
  cases hp : parts.reverse with
  | nil =>
    rw [List.reverse_eq_nil_iff] at hp
    subst hp
    exact locate_ensureFolder hlinks horigin h
  | cons name above =>
    obtain rfl : parts = (name :: above).reverse := by rw [← hp, List.reverse_reverse]
    rw [List.reverse_reverse] at h
    rcases ensureFoldersIn_cases h with hlast | ⟨v, habove, hlast⟩ | ⟨e, _, hr⟩
    · exact locate_ensureFolder hlinks horigin hlast
    · have hmade := made_ensureFoldersIn anchor hlinks habove
      have horigin' : v.tree.HasFolder (v.origin ⟨anchor, (name :: above).reverse⟩) := by
        rw [origin, hmade.cwd]
        exact hmade.dug.keeps.folders _ horigin
      rw [← hmade.cwd]
      exact locate_ensureFolder (hmade.dug.linkFree hlinks) horigin' hlast
    · cases hr

/-- Where there is a folder, nothing is made. -/
theorem outcome_ensureFolders_found {w : Workspace} {p : Path} {q : List String} {es : Folder}
    (hlinks : w.tree.LinkFree) (h : w.locate true p = .ok (.found q (.folder es))) :
    (ensureFolders p).outcome w = (.ok (), w) := by
  have hmake : w.makeFolder p = .error (.fault .occupied p) := by
    obtain ⟨hfault, hlong, hwalk⟩ := locate_ok_iff.1 h
    rw [walk_follow hlinks true false linkLimit linkLimit] at hwalk
    rw [makeFolder, locate_ok_iff.2 ⟨hfault, hlong, hwalk⟩]
  have hensure : (ensureFolder p).outcome w = (.ok (), w) := by
    rw [ensureFolder, outcome_bind, outcome_get]
    simp only [hmake, folder?_some_iff.2 ⟨q, h⟩]
    rfl
  obtain ⟨anchor, parts⟩ := p
  rw [ensureFolders]
  cases hp : parts.reverse with
  | nil =>
    rw [List.reverse_eq_nil_iff] at hp
    subst hp
    exact hensure
  | cons name above =>
    obtain rfl : parts = (name :: above).reverse := by rw [← hp, List.reverse_reverse]
    rw [ensureFoldersIn, outcome_bind, outcome_get]
    simp only [hmake]
    exact hensure

/-- Where nothing stands, the folder is made and nothing else is, if there is a folder around the place. -/
theorem outcome_ensureFolders_new {w : Workspace} {p : Path} {front : List String} {name : String}
    (hlinks : w.tree.LinkFree) (hdots : ".." ∉ p.parts) (hparts : p.parts = front ++ [name]) (husable : p.Usable)
    (hfolder : w.tree.HasFolder (w.origin p ++ front)) (hnone : w.tree.get? (w.placeOf p) = none) :
    (ensureFolders p).outcome w = (.ok (), { w with tree := w.tree.set (w.placeOf p) (.folder []) }) :=
  outcome_ensureFolders_free
    (makeFolder_ok_iff.2 ⟨_, locate_free hlinks hdots hparts husable hfolder hnone false, rfl⟩)

end Work

end RequestAtlas
