import RequestAtlas.Proofs.Workspace.Making
/-!
# Files that are put somewhere

`Filed place` says that a file was put at a place.  No folder and no link is lost or gained by that (`Filed.keeps`,
`Filed.kept`), so every path leads where it led.  In a `Plain` workspace a path leads to the place that it spells,
double dots included; so the place of a file that is written is known beforehand (`filed_write`), and every other file
is read as before (`Filed.read_iff`).
-/

namespace RequestAtlas

open Folder

/-- A workspace as systems have it, without links: the current directory is there, and nothing is named by two dots. -/
structure Workspace.Plain (w : Workspace) : Prop where
  links : w.tree.LinkFree
  names : AllNames (· ≠ "..") w.tree
  cwd : w.tree.HasFolder w.cwd

namespace Path

/-- The place of a path ends with its last name. -/
theorem getLast?_resolve {p : Path} {name : String} (hlast : p.parts.getLast? = some name) (hname : name ≠ "..")
    (cwd : List String) : (p.resolve cwd).getLast? = some name := by
  obtain ⟨above, hparts⟩ := List.getLast?_eq_some_iff.1 hlast
  rw [resolve, hparts, List.foldl_append]
  simp [step, hname]

theorem resolve_child (p : Path) {name : String} (hname : name ≠ "..") (cwd : List String) :
    (p.child name).resolve cwd = p.resolve cwd ++ [name] := by
  rw [resolve, child, List.foldl_append]
  simp [step, hname, resolve, isAbsolute]

theorem getLast?_resolve_child (p : Path) {name : String} (hname : name ≠ "..") (cwd : List String) :
    ((p.child name).resolve cwd).getLast? = some name := by
  rw [resolve_child p hname, List.getLast?_concat]

/-- Two names in one folder are two places, also where the folder is spelled with double dots. -/
theorem resolve_child_ne (p : Path) {a b : String} (h : a ≠ b) (ha : a ≠ "..") (hb : b ≠ "..") (cwd : List String) :
    (p.child a).resolve cwd ≠ (p.child b).resolve cwd := by
  rw [resolve_child p ha, resolve_child p hb]
  intro heq
  exact h (List.singleton_inj.1 (List.append_cancel_left heq))

end Path

namespace Workspace

theorem Plain.origin {w : Workspace} (h : w.Plain) (p : Path) : w.tree.HasFolder (w.origin p) := by
  rw [Workspace.origin]
  split
  · exact hasFolder_nil _
  · exact h.cwd

/-- Folders that were made leave a workspace plain. -/
theorem Plain.made {w w' : Workspace} {p : Path} (h : w.Plain) (hmade : w.Made p w') : w'.Plain where
  links := hmade.dug.linkFree h.links
  names := by
    obtain ⟨names, hdots, hgrowth⟩ := hmade.dug.growth
    exact hgrowth.allNames (fun n hn hn' => hdots (hn' ▸ hn)) h.names
  cwd := by
    rw [hmade.cwd]
    exact hmade.dug.keeps.folders _ h.cwd

/-! ## Writing -/

/-- A file was put at a place where a file or nothing stood, in a folder; nothing else was done. -/
structure Filed (place : List String) (content : List UInt8) (w w' : Workspace) : Prop where
  rest : w' = { w with tree := w.tree.set place (.file content) }
  old : w.tree.get? place = none ∨ ∃ c, w.tree.get? place = some (.file c)
  around : ∃ above name, name ≠ ".." ∧ place = above ++ [name] ∧ w.tree.HasFolder above

theorem filed_write [Surrogates] {w w' : Workspace} {p : Path} {content : List UInt8} (hplain : w.Plain)
    (h : w.write p content = .ok w') : w.Filed (p.resolve w.cwd) content w' := by
  obtain ⟨t, hl, ht, rfl⟩ := write_ok_iff.1 h
  have hplace := locate_resolves hplain.links hl
  obtain ⟨above, name, hname, hold, habove⟩ := walk_writable (locate_ok_iff.1 hl).2.2 ht
  have hdots : name ≠ ".." := by
    cases t with
    | free q =>
      obtain rfl : q = above ++ [name] := hname
      simpa using walk_free_name (locate_ok_iff.1 hl).2.2
    | found q e =>
      obtain rfl : q = above ++ [name] := hname
      exact hplain.names.last (walk_found (locate_ok_iff.1 hl).2.2)
  rw [hplace] at hold hname
  exact ⟨by rw [hplace], hold, above, name, hdots, hname, habove (hplain.origin p)⟩

section
variable {w w' : Workspace} {place : List String} {content : List UInt8} (h : w.Filed place content w')
include h

theorem Filed.cwd : w'.cwd = w.cwd := by
  rw [h.rest]

theorem Filed.tree : w'.tree = w.tree.set place (.file content) := by
  rw [h.rest]

theorem Filed.not_folder (sub : Folder) : w.tree.get? place ≠ some (.folder sub) := by
  rcases h.old with hold | ⟨c, hold⟩ <;> simp [hold]

theorem Filed.get? : w'.tree.get? place = some (.file content) := by
  obtain ⟨above, name, _, rfl, sub, hsub⟩ := h.around
  rw [h.tree, get?_set_below [] hsub]
  rfl

/-- Every other place holds what it held, up to what folders hold. -/
theorem Filed.similar {q : List String} (hq : q ≠ place) : Similar (w.tree.get? q) (w'.tree.get? q) := by
  have hold := h.not_folder
  obtain ⟨above, name, _, rfl, _⟩ := h.around
  rw [h.tree]
  exact similar_set_file content hold hq

theorem Filed.keeps : w.tree.Keeps w'.tree := by
  apply keeps_of_similar (q := place) _ _ fun q hq => h.similar hq
  · rintro ⟨sub, hsub⟩
    exact h.not_folder sub hsub
  · intro target
    rcases h.old with hold | ⟨c, hold⟩ <;> simp [hold]

theorem Filed.kept : w'.tree.Keeps w.tree := by
  apply keeps_of_similar (q := place) _ _ fun q hq => (h.similar hq).symm
  · rintro ⟨sub, hsub⟩
    rw [h.get?] at hsub
    cases hsub
  · simp [h.get?]

theorem Filed.plain (hplain : w.Plain) : w'.Plain where
  links := by
    intro q target hq
    exact hplain.links q target (h.kept.links q target hq)
  names := by
    obtain ⟨above, name, hdots, rfl, _⟩ := h.around
    rw [h.tree]
    refine AllNames.set (by simp [Entry.AllNames]) hplain.names ?_
    simpa using hdots
  cwd := by
    rw [h.cwd]
    exact h.keeps.folders _ hplain.cwd

/-- In a plain workspace a file at another place is read as before. -/
theorem Filed.read_iff [Surrogates] (hplain : w.Plain) {q : Path} (hq : q.resolve w.cwd ≠ place) {c : List UInt8} :
    w'.read q = .ok c ↔ w.read q = .ok c := by
  have hfile := (h.similar hq).file c
  rw [read_ok_iff, read_ok_iff]
  constructor
  · rintro ⟨found, hl⟩
    have hfound : found = q.resolve w.cwd := h.cwd ▸ locate_resolves (h.plain hplain).links hl
    subst hfound
    have hget := walk_found (locate_ok_iff.1 hl).2.2
    exact ⟨_, locate_keeps h.kept h.cwd.symm hl (hfile.2 hget) (by simp)⟩
  · rintro ⟨found, hl⟩
    have hfound : found = q.resolve w.cwd := locate_resolves hplain.links hl
    subst hfound
    have hget := walk_found (locate_ok_iff.1 hl).2.2
    exact ⟨_, locate_keeps h.keeps h.cwd hl (hfile.1 hget) (by simp)⟩

end

variable [Surrogates]

/-- What was written is read back. -/
theorem read_written {w w' : Workspace} {p : Path} {content : List UInt8} (hplain : w.Plain)
    (h : w.write p content = .ok w') : w'.read p = .ok content := by
  have hfiled := filed_write hplain h
  obtain ⟨t, hl, ht, _⟩ := write_ok_iff.1 h
  have hplace := locate_resolves hplain.links hl
  have hget := hfiled.get?
  rw [← hplace] at hget
  refine read_ok_iff.2 ⟨t.place, ?_⟩
  cases t with
  | found q e => exact locate_keeps hfiled.keeps hfiled.cwd hl hget (by simp)
  | free q =>
    obtain ⟨hfault, hlong, hwalk⟩ := locate_ok_iff.1 hl
    refine locate_ok_iff.2 ⟨hfault, hlong, ?_⟩
    rw [origin, hfiled.cwd]
    exact (hfiled.keeps.walk_free hwalk).2 _ hget (by simp)

/-- Writing what a file holds changes nothing. -/
theorem write_same {w : Workspace} {p : Path} {content : List UInt8} (h : w.read p = .ok content) :
    w.write p content = .ok w := by
  obtain ⟨q, hl⟩ := read_ok_iff.1 h
  have hget := walk_found (locate_ok_iff.1 hl).2.2
  have hq : q ≠ [] := by
    rintro rfl
    cases hget
  refine write_ok_iff.2 ⟨_, hl, trivial, ?_⟩
  rw [Target.place, set_of_get? hq hget]

end Workspace

end RequestAtlas
