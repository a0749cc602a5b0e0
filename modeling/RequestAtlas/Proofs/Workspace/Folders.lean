import RequestAtlas.Proofs.Encoding
import RequestAtlas.Proofs.FileTree.Growth
import RequestAtlas.Proofs.Workspace.Outcome
/-!
# Questions about paths, and making folders

Making folders adds empty folders named by the path and changes nothing else (`grew_ensureFolders`).  In a tree
without links, what a path without double dots leads to is what stands at the place that it spells; so a new empty
folder changes no file (`read_grown`), and a folder only into one that has grown (`folder?_grown`).
-/

namespace RequestAtlas

open Folder

/-- The path can be handed to the system, and it is not too long. -/
def Path.Usable [Surrogates] (p : Path) : Prop :=
  p.fault? = none ∧ Text.nameSize p.text ≤ pathLimit ∧ ∀ n ∈ p.parts, Text.nameSize n ≤ nameLimit

instance [Surrogates] (p : Path) : Decidable p.Usable := inferInstanceAs (Decidable (_ ∧ _ ∧ _))

namespace Workspace

/-- The place from which a path is followed. -/
def origin (w : Workspace) (p : Path) : List String := if p.isAbsolute then [] else w.cwd

/-- The place that a path spells. -/
def placeOf (w : Workspace) (p : Path) : List String := w.origin p ++ p.parts

/-- Nothing but empty folders with some of the given names was added. -/
def Grew (names : List String) (w w' : Workspace) : Prop :=
  w' = { w with tree := w'.tree } ∧ Growth names w.tree w'.tree

theorem Grew.refl (names : List String) (w : Workspace) : w.Grew names w := ⟨rfl, .refl⟩

theorem Grew.trans {names : List String} {u v w : Workspace} (h : u.Grew names v) (h' : v.Grew names w) :
    u.Grew names w := by
  refine ⟨?_, h.2.trans h'.2⟩
  rw [h'.1, h.1]

theorem Grew.mono {names names' : List String} {w w' : Workspace} (h : w.Grew names w') (hsub : names ⊆ names') :
    w.Grew names' w' := by
  refine ⟨h.1, Relation.ReflTransGen.mono ?_ _ _ h.2⟩
  rintro a b ⟨name, hmem, hgrown⟩
  exact ⟨name, hsub hmem, hgrown⟩

/-! ## Where paths lead -/

variable [Surrogates]

theorem locate_invalid {w : Workspace} {p : Path} {f : PathFault} (h : p.fault? = some f) (follow : Bool) :
    w.locate follow p = .error (.invalid f) := by
  simp [locate, Folder.locate, h]

theorem locate_long {w : Workspace} {p : Path} (h : p.fault? = none)
    (hlong : pathLimit < Text.nameSize p.text) (follow : Bool) :
    w.locate follow p = .error (.fault .nameTooLong p) := by
  simp [locate, Folder.locate, h, hlong]

theorem locate_walk {w : Workspace} {p : Path} (h : p.fault? = none)
    (hlong : ¬ pathLimit < Text.nameSize p.text) (follow : Bool) : w.locate follow p =
      (w.tree.walk follow linkLimit (w.origin p) p.parts).mapError fun f => .fault f p := by
  simp only [locate, Folder.locate, h, hlong, if_false, origin]
  cases w.tree.walk follow linkLimit (if p.isAbsolute then [] else w.cwd) p.parts <;> rfl

theorem locate_ok_iff {w : Workspace} {follow : Bool} {p : Path} {t : Target} : w.locate follow p = .ok t ↔
    p.fault? = none ∧ Text.nameSize p.text ≤ pathLimit ∧
      w.tree.walk follow linkLimit (w.origin p) p.parts = .ok t := by
  cases hfault : p.fault? with
  | some f => simp [locate_invalid hfault]
  | none =>
    by_cases hlong : pathLimit < Text.nameSize p.text
    · simp [locate_long hfault hlong, Nat.not_le.2 hlong]
    · rw [locate_walk hfault hlong]
      cases w.tree.walk follow linkLimit (w.origin p) p.parts <;>
        simp [Nat.not_lt.1 hlong, Except.mapError]

/-- A path that cannot be followed has one of these faults. -/
theorem walk_error {tree : Folder} {follow : Bool} {links : Nat} {place names : List String} {f : FileFault}
    (h : tree.walk follow links place names = .error f) :
    f = .nameTooLong ∨ ∀ p, meansAbsent (.fault f p) = true := by
  fun_induction walk tree follow links place names with
  | case3 _ _ _ ih => exact ih h
  | case7 _ _ _ _ _ _ _ _ ih => exact ih h
  | case12 _ _ _ _ _ _ _ _ _ _ ih => exact ih h
  | case4 => cases h; exact .inl rfl
  | case2 => cases h; exact .inr fun _ => rfl
  | case6 => cases h; exact .inr fun _ => rfl
  | case9 => cases h; exact .inr fun _ => rfl
  | case11 => cases h; exact .inr fun _ => rfl
  | _ => cases h

theorem locate_error {w : Workspace} {follow : Bool} {p : Path} {e : FileError}
    (h : w.locate follow p = .error e) : e = .fault .nameTooLong p ∨ meansAbsent e = true := by
  cases hfault : p.fault? with
  | some f =>
    rw [locate_invalid hfault] at h
    cases h
    exact .inr rfl
  | none =>
    by_cases hlong : pathLimit < Text.nameSize p.text
    · rw [locate_long hfault hlong] at h
      cases h
      exact .inl rfl
    · rw [locate_walk hfault hlong] at h
      cases hw : w.tree.walk follow linkLimit (w.origin p) p.parts with
      | ok t => rw [hw] at h; cases h
      | error f =>
        rw [hw] at h
        cases h
        rcases walk_error hw with rfl | habsent
        · exact .inl rfl
        · exact .inr (habsent p)

/-- Whether a path leads to a folder can be told, unless the path or a name in it is too long. -/
theorem folder?_error_iff {w : Workspace} {p : Path} {e : FileError} : w.folder? p = .error e ↔
    e = .fault .nameTooLong p ∧ w.locate true p = .error (.fault .nameTooLong p) := by
  unfold folder?
  constructor
  · intro h
    split at h
    · cases h
    · cases h
    · rename_i d hd
      split at h
      · cases h
      · rename_i habsent
        cases h
        rcases locate_error hd with rfl | hmeans
        · exact ⟨rfl, hd⟩
        · exact absurd hmeans habsent
  · rintro ⟨rfl, h⟩
    rw [h]
    rfl

theorem read_invalid_iff {w : Workspace} {p : Path} {f : PathFault} :
    w.read p = .error (.invalid f) ↔ p.fault? = some f := by
  cases hfault : p.fault? with
  | some g => simp [read, locate_invalid hfault]
  | none =>
    refine iff_of_false (fun h => ?_) nofun
    have hlocate : ∀ e, w.locate true p = .error e → e ≠ .invalid f := by
      rintro e he rfl
      by_cases hlong : pathLimit < Text.nameSize p.text
      · rw [locate_long hfault hlong] at he
        cases he
      · rw [locate_walk hfault hlong] at he
        cases hw : w.tree.walk true linkLimit (w.origin p) p.parts <;> (rw [hw] at he; cases he)
    unfold read at h
    split at h
    · cases h
    · cases h
    · cases h
    · rename_i e he
      cases h
      exact hlocate _ he rfl

/-! ## Making folders -/

/-- A folder that is made is one more empty folder, named by the path. -/
theorem grew_makeFolder {w w' : Workspace} {p : Path} (h : w.makeFolder p = .ok w') : w.Grew p.parts w' := by
  unfold makeFolder at h
  split at h
  · cases h
  · rename_i q hfree
    cases h
    refine ⟨rfl, ?_⟩
    obtain ⟨_, _, hwalk⟩ := locate_ok_iff.1 hfree
    obtain ⟨above, name, rfl, hnone, hlast, _⟩ := walk_free hwalk
    rcases grown_set hnone with hsame | hgrown
    · simp only [hsame]
      exact .refl
    · exact .single ⟨name, List.mem_of_getLast? (hlast rfl), hgrown⟩
  · cases h

end Workspace

namespace Work

open Workspace

variable [Surrogates]

/-- Making sure of a folder adds it or nothing. -/
theorem grew_ensureFolder {w w' : Workspace} {p : Path} (h : (ensureFolder p).outcome w = (.ok (), w')) :
    w.Grew p.parts w' ∧ p.fault? = none := by
  have hfault : p.fault? = none := by
    cases hf : p.fault? with
    | none => rfl
    | some f =>
      have hmake : w.makeFolder p = .error (.invalid f) := by rw [makeFolder, locate_invalid hf]
      rw [ensureFolder, outcome_bind, outcome_get] at h
      simp only [hmake, refuse, outcome_throw] at h
      cases h
  refine ⟨?_, hfault⟩
  obtain ⟨v, u, hget, h⟩ := outcome_bind_ok.1 h
  cases hget
  cases hmake : w.makeFolder p with
  | ok v =>
    simp only [hmake] at h
    cases h
    exact grew_makeFolder hmake
  | error e =>
    have hsame : w' = w := by
      simp only [hmake] at h
      split at h
      · rename_i heq
        cases heq
      · cases h
      · cases h
      · obtain ⟨o, u, hfolder, hlast⟩ := outcome_bind_ok.1 h
        obtain ⟨_, rfl⟩ := outcome_ofFile_ok.1 hfolder
        cases o with
        | some es => cases hlast; rfl
        | none => cases hlast
    rw [hsame]
    exact Grew.refl _ w

theorem outcome_ensureFolder_free {w w' : Workspace} {p : Path} (h : w.makeFolder p = .ok w') :
    (ensureFolder p).outcome w = (.ok (), w') := by
  refine outcome_bind_ok.2 ⟨w, w, outcome_get w, ?_⟩
  rw [h]
  exact outcome_set w' w

/-- At a free place a folder is made, and none above it. -/
theorem outcome_ensureFolders_free {w w' : Workspace} {p : Path} (h : w.makeFolder p = .ok w') :
    (ensureFolders p).outcome w = (.ok (), w') := by
  obtain ⟨anchor, parts⟩ := p
  rw [ensureFolders]
  cases hp : parts.reverse with
  | nil =>
    rw [List.reverse_eq_nil_iff] at hp
    subst hp
    exact outcome_ensureFolder_free h
  | cons name above =>
    obtain rfl : parts = (name :: above).reverse := by rw [← hp, List.reverse_reverse]
    refine outcome_bind_ok.2 ⟨w, w, outcome_get w, ?_⟩
    simp only [h]
    exact outcome_ensureFolder_free h

theorem grew_ensureFoldersIn (anchor : Anchor) : ∀ {names : List String} {w w' : Workspace},
    (ensureFoldersIn anchor names).outcome w = (.ok (), w') →
      w.Grew names w' ∧ (Path.mk anchor names.reverse).fault? = none
  | [], w, w', h => grew_ensureFolder h
  | name :: above, w, w', h => by
    have hlast : ∀ {v : Workspace}, (ensureFolder ⟨anchor, (name :: above).reverse⟩).outcome v = (.ok (), w') →
        v.Grew (name :: above) w' ∧ (Path.mk anchor (name :: above).reverse).fault? = none := by
      intro v hv
      obtain ⟨hgrew, hfault⟩ := grew_ensureFolder hv
      exact ⟨hgrew.mono fun n hn => List.mem_reverse.1 hn, hfault⟩
    rw [ensureFoldersIn] at h
    obtain ⟨v, u, hget, h⟩ := outcome_bind_ok.1 h
    cases hget
    split at h
    · obtain ⟨_, u, habove, h⟩ := outcome_bind_ok.1 h
      obtain ⟨hgrew, hfault⟩ := hlast h
      exact ⟨((grew_ensureFoldersIn anchor habove).1.mono (List.subset_cons_self _ _)).trans hgrew, hfault⟩
    · exact hlast h

/-- Making a folder, and all that are missing above it, adds empty folders named by the path. -/
theorem grew_ensureFolders {w w' : Workspace} {p : Path} (h : (ensureFolders p).outcome w = (.ok (), w')) :
    w.Grew p.parts w' ∧ p.fault? = none := by
  obtain ⟨hgrew, hfault⟩ := grew_ensureFoldersIn p.anchor h
  rw [List.reverse_reverse] at hfault
  exact ⟨hgrew.mono fun n hn => List.mem_reverse.1 hn, hfault⟩

end Work

namespace Workspace

/-! ## What a path leads to -/

variable [Surrogates]

theorem folder?_some_iff {w : Workspace} {p : Path} {es : Folder} :
    w.folder? p = .ok (some es) ↔ ∃ q, w.locate true p = .ok (.found q (.folder es)) := by
  cases hl : w.locate true p with
  | error e => by_cases he : meansAbsent e <;> simp [folder?, hl, he]
  | ok t =>
    cases t with
    | free q => simp [folder?, hl]
    | found q d => cases d <;> simp [folder?, hl]

theorem read_ok_iff {w : Workspace} {p : Path} {content : List UInt8} :
    w.read p = .ok content ↔ ∃ q, w.locate true p = .ok (.found q (.file content)) := by
  cases hl : w.locate true p with
  | error e => simp [read, hl]
  | ok t =>
    cases t with
    | free q => simp [read, hl]
    | found q d => cases d <;> simp [read, hl]

/-! ## A path in two workspaces -/

section
variable {w w' : Workspace} (hkeeps : w.tree.Keeps w'.tree) (hcwd : w'.cwd = w.cwd)
include hkeeps hcwd

/-- A path that led to a file or a folder leads to what now stands there. -/
theorem locate_keeps {p : Path} {q : List String} {e e' : Entry} (h : w.locate true p = .ok (.found q e))
    (hq : w'.tree.get? q = some e') (hlink : ∀ target, e' ≠ .link target) :
    w'.locate true p = .ok (.found q e') := by
  obtain ⟨hfault, hlong, hwalk⟩ := locate_ok_iff.1 h
  refine locate_ok_iff.2 ⟨hfault, hlong, ?_⟩
  rw [origin, hcwd]
  exact hkeeps.walk_found hwalk hq hlink

/-- A path that is too long, or holds a name that is, stays so. -/
theorem folder?_error_keeps {p : Path} {e : FileError} (h : w.folder? p = .error e) : w'.folder? p = .error e := by
  obtain ⟨rfl, hl⟩ := folder?_error_iff.1 h
  refine folder?_error_iff.2 ⟨rfl, ?_⟩
  cases hfault : p.fault? with
  | some f =>
    rw [locate_invalid hfault] at hl
    cases hl
  | none =>
    by_cases hlong : pathLimit < Text.nameSize p.text
    · exact locate_long hfault hlong true
    · rw [locate_walk hfault hlong] at hl ⊢
      cases hw : w.tree.walk true linkLimit (w.origin p) p.parts with
      | ok t => rw [hw] at hl; cases hl
      | error f =>
        rw [hw] at hl
        cases hl
        rw [origin, hcwd]
        exact congrArg (Except.mapError fun f => FileError.fault f p) (hkeeps.walk_nameTooLong hw)

/-- A path that leads to no folder now led to none before. -/
theorem folder?_none_keeps {p : Path} (h : w'.folder? p = .ok none) : w.folder? p = .ok none := by
  cases hf : w.folder? p with
  | error e =>
    rw [folder?_error_keeps hkeeps hcwd hf] at h
    cases h
  | ok o =>
    cases o with
    | none => rfl
    | some es =>
      obtain ⟨q, hl⟩ := folder?_some_iff.1 hf
      obtain ⟨es', hes'⟩ := hkeeps.folders q ⟨es, walk_found (locate_ok_iff.1 hl).2.2⟩
      rw [folder?_some_iff.2 ⟨q, locate_keeps hkeeps hcwd hl hes' (by simp)⟩] at h
      cases h

end

/-! ## Trees without links -/

section
variable {w : Workspace} {p : Path} (hlinks : w.tree.LinkFree) (hdots : ".." ∉ p.parts)
include hlinks hdots

/-- A path leads to what stands at the place that it spells. -/
theorem locate_found_iff {follow : Bool} {q : List String} {e : Entry} :
    w.locate follow p = .ok (.found q e) ↔ p.Usable ∧ q = w.placeOf p ∧ w.tree.get? q = some e := by
  rw [locate_ok_iff, walk_eq_found_iff hlinks hdots, Path.Usable, placeOf]
  constructor
  · rintro ⟨hfault, hlong, hq, he, hshort⟩
    exact ⟨⟨hfault, hlong, hshort⟩, hq, he⟩
  · rintro ⟨⟨hfault, hlong, hshort⟩, hq, he⟩
    exact ⟨hfault, hlong, hq, he, hshort⟩

theorem folder?_eq_some_iff {es : Folder} :
    w.folder? p = .ok (some es) ↔ p.Usable ∧ w.tree.get? (w.placeOf p) = some (.folder es) := by
  simp only [folder?_some_iff, locate_found_iff hlinks hdots]
  constructor
  · rintro ⟨q, husable, rfl, he⟩
    exact ⟨husable, he⟩
  · rintro ⟨husable, he⟩
    exact ⟨_, husable, rfl, he⟩

theorem read_eq_ok_iff {content : List UInt8} :
    w.read p = .ok content ↔ p.Usable ∧ w.tree.get? (w.placeOf p) = some (.file content) := by
  simp only [read_ok_iff, locate_found_iff hlinks hdots]
  constructor
  · rintro ⟨q, husable, rfl, he⟩
    exact ⟨husable, he⟩
  · rintro ⟨husable, he⟩
    exact ⟨_, husable, rfl, he⟩

/-- A path to nothing leads to a free place, if there is a folder around it. -/
theorem locate_free {front : List String} {name : String} (hparts : p.parts = front ++ [name]) (husable : p.Usable)
    (hfolder : w.tree.HasFolder (w.origin p ++ front)) (hnone : w.tree.get? (w.placeOf p) = none) (follow : Bool) :
    w.locate follow p = .ok (.free (w.placeOf p)) := by
  obtain ⟨hfault, hlong, hshort⟩ := husable
  refine locate_ok_iff.2 ⟨hfault, hlong, ?_⟩
  obtain ⟨es, hes⟩ := hfolder
  rw [placeOf, hparts, ← List.append_assoc] at hnone
  rw [hparts] at hdots hshort
  rw [List.mem_append, not_or, List.mem_singleton] at hdots
  rw [List.forall_mem_append, List.forall_mem_singleton] at hshort
  have hfront : w.tree.walk true linkLimit (w.origin p) front = .ok (.found (w.origin p ++ front) (.folder es)) :=
    walk_of_spelled (by simp) hdots.1 hshort.1 hes
  obtain ⟨links, hwalk⟩ := walk_append [name] hfront
  rw [walk_follow hlinks follow true linkLimit linkLimit, placeOf, hparts, hwalk,
    walk_none (Ne.symm hdots.2) (Nat.not_lt.2 hshort.2) hnone, ← List.append_assoc]
  rfl

variable {name : String} {tree' : Folder} (h : Grown name w.tree tree')
include h

/-- A new empty folder changes no file. -/
theorem read_grown {content : List UInt8} :
    ({ w with tree := tree' } : Workspace).read p = .ok content ↔ w.read p = .ok content := by
  rw [read_eq_ok_iff hlinks hdots, read_eq_ok_iff (h.linkFree hlinks) hdots]
  exact and_congr_right fun _ => h.file _ content

/-- A folder that a path leads to was there and may have grown, or it is new and empty. -/
theorem folder?_grown {o : Option Folder} (ho : ({ w with tree := tree' } : Workspace).folder? p = .ok o) :
    (∃ es es', w.folder? p = .ok (some es) ∧ o = some es' ∧ (es' = es ∨ Grown name es es')) ∨
    (w.folder? p = .ok none ∧ (o = none ∨ o = some [])) := by
  have hlinks' := h.linkFree hlinks
  cases hf : w.folder? p with
  | error e =>
    have hcwd : ({ w with tree := tree' } : Workspace).cwd = w.cwd := rfl
    rw [folder?_error_keeps h.keeps hcwd hf] at ho
    cases ho
  | ok old =>
    cases old with
    | some es =>
      left
      obtain ⟨husable, hes⟩ := (folder?_eq_some_iff hlinks hdots).1 hf
      have hnew : ∀ es', tree'.get? (w.placeOf p) = some (.folder es') → o = some es' := by
        intro es' hes'
        have hfolder : ({ w with tree := tree' } : Workspace).folder? p = .ok (some es') :=
          (folder?_eq_some_iff hlinks' hdots).2 ⟨husable, hes'⟩
        rw [hfolder] at ho
        cases ho
        rfl
      rcases h.get?_cases (w.placeOf p) with hsame | ⟨fs, es', hfs, hes', hgrown⟩ | ⟨hnone, _⟩
      · exact ⟨es, es, rfl, hnew es (hsame.trans hes), .inl rfl⟩
      · rw [hes] at hfs
        cases hfs
        exact ⟨es, es', rfl, hnew es' hes', .inr hgrown⟩
      · rw [hes] at hnone
        cases hnone
    | none =>
      refine .inr ⟨rfl, ?_⟩
      cases o with
      | none => exact .inl rfl
      | some es' =>
        obtain ⟨husable, hes'⟩ := (folder?_eq_some_iff hlinks' hdots).1 ho
        have hnot : ∀ es, w.tree.get? (w.placeOf p) ≠ some (.folder es) := by
          intro es hes
          rw [(folder?_eq_some_iff hlinks hdots).2 ⟨husable, hes⟩] at hf
          cases hf
        rcases h.get?_cases (w.placeOf p) with hsame | ⟨fs, _, hfs, _⟩ | ⟨_, hempty⟩
        · exact absurd (hsame.symm.trans hes') (hnot es')
        · exact absurd hfs (hnot fs)
        · have heq : some (Entry.folder es') = some (Entry.folder []) := hes'.symm.trans hempty
          cases heq
          exact .inr rfl

end

end Workspace

end RequestAtlas
