import RequestAtlas.Proofs.FileTree.Following
/-!
# Paths in a tree that has changed

`Keeps tree tree'` says that the folders and links of `tree` are still there in `tree'`.  That is all a path needs on
its way: it leads to the same place in both (`Keeps.walk_found`, `Keeps.walk_free`), or it meets the same name that is
too long (`Keeps.walk_nameTooLong`).  In a tree without links the place is the one that the path spells, where each
double dot takes back the name before it (`walk_resolves`).
-/

namespace RequestAtlas

namespace Folder

/-- Folders stay folders, and links stay as they are. -/
structure Keeps (tree tree' : Folder) : Prop where
  folders : ∀ p, tree.HasFolder p → tree'.HasFolder p
  links : ∀ p target, tree.get? p = some (.link target) → tree'.get? p = some (.link target)

theorem Keeps.trans {t u v : Folder} (h : t.Keeps u) (h' : u.Keeps v) : t.Keeps v where
  folders p hp := h'.folders p (h.folders p hp)
  links p target hp := h'.links p target (h.links p target hp)

theorem Similar.hasFolder {tree tree' : Folder} {p : List String} (h : Similar (tree.get? p) (tree'.get? p)) :
    tree.HasFolder p ↔ tree'.HasFolder p := by
  rcases h with h | ⟨es, fs, hes, hfs⟩
  · rw [HasFolder, HasFolder, h]
  · exact ⟨fun _ => ⟨fs, hfs⟩, fun _ => ⟨es, hes⟩⟩

/-- One place may change, if neither a folder nor a link stands there. -/
theorem keeps_of_similar {tree tree' : Folder} {q : List String} (hfolder : ¬ tree.HasFolder q)
    (hlink : ∀ target, tree.get? q ≠ some (.link target))
    (h : ∀ p, p ≠ q → Similar (tree.get? p) (tree'.get? p)) : tree.Keeps tree' where
  folders p hp := by
    have hpq : p ≠ q := by rintro rfl; exact hfolder hp
    exact (h p hpq).hasFolder.1 hp
  links p target hp := by
    have hpq : p ≠ q := by rintro rfl; exact hlink target hp
    exact ((h p hpq).link target).1 hp

variable [Surrogates]

section
variable {tree tree' : Folder} (h : tree.Keeps tree') {follow : Bool} {links : Nat} {place names q : List String}
include h

/-- A path that led to a file or a folder leads to what now stands there. -/
theorem Keeps.walk_found {e e' : Entry} (hw : tree.walk follow links place names = .ok (.found q e))
    (hq : tree'.get? q = some e') (hlink : ∀ target, e' ≠ .link target) :
    tree'.walk follow links place names = .ok (.found q e') := by
  fun_induction walk tree follow links place names with
  | case1 links place d hd =>
    cases hw
    exact walk_nil hq
  | case3 links place rest ih => rw [walk_up]; exact ih hw
  | case7 links place name rest hname hsize es hes ih =>
    obtain ⟨es', hes'⟩ := h.folders _ ⟨es, hes⟩
    rw [walk_folder hname hsize hes']
    exact ih hw
  | case8 links place name rest hname hsize content hfile hrest =>
    cases hw
    rw [List.isEmpty_iff] at hrest
    subst hrest
    cases e' with
    | file content' => exact walk_file hname hsize hq
    | folder es => rw [walk_folder hname hsize hq]; exact walk_nil hq
    | link target => exact absurd rfl (hlink target)
  | case10 links place name rest hname hsize target htarget _ =>
    cases hw
    have hkept := h.links _ target htarget
    rw [hq] at hkept
    cases hkept
    exact absurd rfl (hlink target)
  | case12 place name rest hname hsize target htarget hrest links p ih =>
    rw [walk_link hname hsize (h.links _ target htarget) hrest]
    exact ih hw
  | _ => cases hw

/-- A path that led to a free place leads there still, and to what may stand there now. -/
theorem Keeps.walk_free (hw : tree.walk follow links place names = .ok (.free q)) :
    (tree'.get? q = none → tree'.walk follow links place names = .ok (.free q)) ∧
    ∀ e', tree'.get? q = some e' → (∀ target, e' ≠ .link target) →
      tree'.walk follow links place names = .ok (.found q e') := by
  fun_induction walk tree follow links place names with
  | case3 links place rest ih => rw [walk_up]; exact ih hw
  | case5 links place name rest hname hsize hnone hrest =>
    cases hw
    rw [List.isEmpty_iff] at hrest
    subst hrest
    refine ⟨fun hq => walk_none hname hsize hq, fun e' hq hlink => ?_⟩
    cases e' with
    | file content => exact walk_file hname hsize hq
    | folder es => rw [walk_folder hname hsize hq]; exact walk_nil hq
    | link target => exact absurd rfl (hlink target)
  | case7 links place name rest hname hsize es hes ih =>
    obtain ⟨es', hes'⟩ := h.folders _ ⟨es, hes⟩
    rw [walk_folder hname hsize hes']
    exact ih hw
  | case12 place name rest hname hsize target htarget hrest links p ih =>
    rw [walk_link hname hsize (h.links _ target htarget) hrest]
    exact ih hw
  | _ => cases hw

/-- A name that is too long is met again. -/
theorem Keeps.walk_nameTooLong (hw : tree.walk follow links place names = .error .nameTooLong) :
    tree'.walk follow links place names = .error .nameTooLong := by
  fun_induction walk tree follow links place names with
  | case3 links place rest ih => rw [walk_up]; exact ih hw
  | case4 links place name rest hname hsize => exact walk_long hname hsize
  | case7 links place name rest hname hsize es hes ih =>
    obtain ⟨es', hes'⟩ := h.folders _ ⟨es, hes⟩
    rw [walk_folder hname hsize hes']
    exact ih hw
  | case12 place name rest hname hsize target htarget hrest links p ih =>
    rw [walk_link hname hsize (h.links _ target htarget) hrest]
    exact ih hw
  | _ => cases hw

end

/-! ## Longer paths -/

/-- A path that begins with one that leads to a folder goes on from there. -/
theorem walk_append {tree es : Folder} {links : Nat} {place names q : List String} (rest : List String)
    (hw : tree.walk true links place names = .ok (.found q (.folder es))) :
    ∃ links', tree.walk true links place (names ++ rest) = tree.walk true links' q rest := by
  fun_induction walk tree true links place names with
  | case1 links place d hd =>
    cases hw
    exact ⟨links, rfl⟩
  | case3 links place names ih =>
    obtain ⟨links', h⟩ := ih hw
    exact ⟨links', by rw [List.cons_append, walk_up, h]⟩
  | case7 links place name names hname hsize es hes ih =>
    obtain ⟨links', h⟩ := ih hw
    exact ⟨links', by rw [List.cons_append, walk_folder hname hsize hes, h]⟩
  | case8 => cases hw
  | case10 links place name names hname hsize target htarget hrest => simp at hrest
  | case12 place name names hname hsize target htarget hrest links p ih =>
    obtain ⟨links', h⟩ := ih hw
    refine ⟨links', ?_⟩
    rw [List.cons_append, walk_link hname hsize htarget (by simp), ← List.append_assoc]
    exact h
  | _ => cases hw

/-- Going into a folder and back leads nowhere, however often. -/
theorem walk_detours {tree es : Folder} {follow : Bool} {links : Nat} {place : List String} {name : String}
    (hname : ¬ name = "..") (hsize : ¬ nameLimit < Text.nameSize name)
    (h : tree.get? (place ++ [name]) = some (.folder es)) (rest : List String) : ∀ n : Nat,
    tree.walk follow links place ((List.replicate n [name, ".."]).flatten ++ rest) = tree.walk follow links place rest
  | 0 => rfl
  | n + 1 => by
    have hsplit : (List.replicate (n + 1) [name, ".."]).flatten ++ rest =
        name :: ".." :: ((List.replicate n [name, ".."]).flatten ++ rest) := by
      simp [List.replicate_succ]
    rw [hsplit, walk_folder hname hsize h, walk_up, List.dropLast_concat]
    exact walk_detours hname hsize h rest n

/-- Names below a folder that a path leads to lead on to what stands there. -/
theorem walk_below {tree es : Folder} {links : Nat} {place names q rest : List String} {e : Entry}
    (hw : tree.walk true links place names = .ok (.found q (.folder es))) (he : ∀ target, e ≠ .link target)
    (hdots : ".." ∉ rest) (hshort : ∀ n ∈ rest, Text.nameSize n ≤ nameLimit) (hget : tree.get? (q ++ rest) = some e) :
    tree.walk true links place (names ++ rest) = .ok (.found (q ++ rest) e) := by
  obtain ⟨links', h⟩ := walk_append rest hw
  rw [h, walk_of_spelled he hdots hshort hget]

/-! ## Trees without links -/

/-- Where a path leads anywhere, it leads to the place that it spells. -/
theorem walk_resolves {tree : Folder} (hlinks : tree.LinkFree) {follow : Bool} {links : Nat}
    {place names : List String} {t : Target} (hw : tree.walk follow links place names = .ok t) :
    t.place = names.foldl Path.step place := by
  fun_induction walk tree follow links place names with
  | case1 links place e he =>
    cases hw
    rfl
  | case3 links place rest ih => simpa [Path.step] using ih hw
  | case5 links place name rest hname hsize hnone hrest =>
    cases hw
    rw [List.isEmpty_iff] at hrest
    simp [hrest, Path.step, hname, Target.place]
  | case7 links place name rest hname hsize es hes ih => simpa [Path.step, hname] using ih hw
  | case8 links place name rest hname hsize content hfile hrest =>
    cases hw
    rw [List.isEmpty_iff] at hrest
    simp [hrest, Path.step, hname, Target.place]
  | case10 links place name rest hname hsize target htarget _ => exact absurd htarget (hlinks _ target)
  | case12 place name rest hname hsize target htarget _ links p ih => exact absurd htarget (hlinks _ target)
  | _ => cases hw

/-- Without links it does not matter whether and how many would be followed. -/
theorem walk_follow {tree : Folder} (hlinks : tree.LinkFree) (follow follow' : Bool) (links links' : Nat)
    (place names : List String) : tree.walk follow links place names = tree.walk follow' links' place names := by
  fun_induction walk tree follow links place names with
  | case1 links place e he => exact (walk_nil he).symm
  | case2 links place hnone => rw [walk, hnone]
  | case3 links place rest ih => rw [walk_up]; exact ih
  | case4 links place name rest hname hsize => exact (walk_long hname hsize).symm
  | case5 links place name rest hname hsize hnone hrest => rw [walk_none hname hsize hnone, if_pos hrest]
  | case6 links place name rest hname hsize hnone hrest => rw [walk_none hname hsize hnone, if_neg hrest]
  | case7 links place name rest hname hsize es hes ih => rw [walk_folder hname hsize hes]; exact ih
  | case8 links place name rest hname hsize content hfile hrest => rw [walk_file hname hsize hfile, if_pos hrest]
  | case9 links place name rest hname hsize content hfile hrest => rw [walk_file hname hsize hfile, if_neg hrest]
  | case10 links place name rest hname hsize target htarget _ => exact absurd htarget (hlinks _ target)
  | case11 place name rest hname hsize target htarget _ => exact absurd htarget (hlinks _ target)
  | case12 place name rest hname hsize target htarget _ links p ih => exact absurd htarget (hlinks _ target)

end Folder

end RequestAtlas
