import RequestAtlas.Proofs.FileTree.Shape
import RequestAtlas.Proofs.Workspace.Folders
import RequestAtlas.Selection
/-!
# Long paths

How many bytes the text of a path has (`nameSize_text`).  A folder that is entered and left again makes a path longer
and leads nowhere else (`locate_detour`).  So a folder has paths of every length, and what stands below it may have a
path that is too long although that of the folder is not.
-/

namespace RequestAtlas

namespace Text

variable [Surrogates]

theorem charsSize_append : ∀ cs ds : List Char, charsSize (cs ++ ds) = charsSize cs + charsSize ds
  | [], ds => (Nat.zero_add _).symm
  | c :: cs, ds => by rw [List.cons_append, charsSize, charsSize, charsSize_append cs ds, Nat.add_assoc]

theorem nameSize_append (s t : String) : nameSize (s ++ t) = nameSize s + nameSize t := by
  rw [nameSize, String.toList_append, charsSize_append, nameSize, nameSize]

theorem charSize_of_ascii {c : Char} (h : c.toNat < 0x80) : charSize c = 1 := by
  have hsize : c.utf8Size = 1 := Char.utf8Size_eq_one_iff.2 (Nat.le_of_lt_succ h)
  simp [charSize, hsize]

theorem charsSize_of_ascii : ∀ {cs : List Char}, isAscii cs = true → charsSize cs = cs.length
  | [], _ => rfl
  | c :: cs, h => by
    obtain ⟨hc, hcs⟩ := isAscii_cons.1 h
    rw [charsSize, charSize_of_ascii hc, charsSize_of_ascii hcs, List.length_cons, Nat.add_comm]

theorem nameSize_of_ascii {s : String} (h : isAscii s.toList = true) : nameSize s = s.toList.length :=
  charsSize_of_ascii h

/-- How many bytes names have with a slash behind each. -/
def namesSize : List String → Nat
  | [] => 0
  | name :: names => nameSize name + 1 + namesSize names

theorem namesSize_append : ∀ front back : List String, namesSize (front ++ back) = namesSize front + namesSize back
  | [], back => (Nat.zero_add _).symm
  | name :: front, back => by
    rw [List.cons_append, namesSize, namesSize, namesSize_append front back, Nat.add_assoc (nameSize name + 1)]

end Text

namespace Path

/-- A path that enters a folder and leaves it again, over and over, before it leads on. -/
def detour (name : String) (n : Nat) (rest : List String) : Path :=
  ⟨.relative, (List.replicate n [name, ".."]).flatten ++ rest⟩

theorem below_detour (name : String) (n : Nat) (rest names : List String) :
    Selection.below (detour name n rest) names = detour name n (rest ++ names) := by
  simp [Selection.below, detour]

variable [Surrogates]

/-- Every name but the first has a slash before it. -/
theorem nameSize_intercalate {parts : List String} (hne : parts ≠ []) :
    Text.nameSize ("/".intercalate parts) + 1 = Text.namesSize parts := by
  have hslash : Text.nameSize "/" = 1 := Text.nameSize_of_ascii (by decide)
  induction parts with
  | nil => exact absurd rfl hne
  | cons part parts ih =>
    cases parts with
    | nil => rw [String.intercalate_singleton, Text.namesSize, Text.namesSize, Nat.add_zero]
    | cons next parts =>
      rw [String.intercalate_cons_cons, Text.nameSize_append, Text.nameSize_append, hslash, Text.namesSize,
        ← ih (by simp)]
      omega

theorem nameSize_text {parts : List String} (hne : parts ≠ []) :
    Text.nameSize (text ⟨.relative, parts⟩) + 1 = Text.namesSize parts := by
  have hhere : Path.mk .relative parts ≠ here := by simpa [here] using hne
  have hanchor : Text.nameSize (Anchor.text .relative) = 0 := rfl
  rw [text, if_neg hhere, Text.nameSize_append, ← nameSize_intercalate hne, hanchor, Nat.zero_add]

theorem nameSize_detour (name : String) (n : Nat) {rest : List String} (hne : rest ≠ []) :
    Text.nameSize (detour name n rest).text + 1 = n * (Text.nameSize name + 4) + Text.namesSize rest := by
  have hdots : Text.nameSize ".." = 2 := Text.nameSize_of_ascii (by decide)
  have hdetours : Text.namesSize (List.replicate n [name, ".."]).flatten = n * (Text.nameSize name + 4) := by
    induction n with
    | zero => rw [Nat.zero_mul]; rfl
    | succ n ih =>
      rw [List.replicate_succ, List.flatten_cons, Text.namesSize_append, ih, Nat.succ_mul, Text.namesSize,
        Text.namesSize, Text.namesSize, hdots]
      omega
  rw [detour, nameSize_text (by simp [hne]), Text.namesSize_append, hdetours]

theorem fault?_detour {name : String} (n : Nat) {rest : List String} (hname : Text.Nameable name)
    (hrest : ∀ part ∈ rest, Text.Nameable part) : (detour name n rest).fault? = none := by
  refine fault?_eq_none_iff.2 fun part hpart => ?_
  rcases List.mem_append.1 hpart with h | h
  · obtain ⟨l, hl, hpart⟩ := List.mem_flatten.1 h
    rw [List.eq_of_mem_replicate hl] at hpart
    rcases List.mem_pair.1 hpart with rfl | rfl
    · exact hname
    · exact Text.nameable_of_ascii (by decide) (by decide)
  · exact hrest part h

end Path

open Folder

/-- **Detours through a folder lead to where the path leads without them**, if they do not make it too long. -/
theorem Workspace.locate_detour [Surrogates] {w : Workspace} {follow : Bool} {name : String} {n : Nat}
    {rest : List String} {es : Folder} {t : Target} (hfolder : w.tree.get? (w.cwd ++ [name]) = some (.folder es))
    (hdots : name ≠ "..") (hsize : Text.nameSize name ≤ nameLimit) (hname : Text.Nameable name)
    (hlong : Text.nameSize (Path.detour name n rest).text ≤ pathLimit)
    (h : w.locate follow ⟨.relative, rest⟩ = .ok t) : w.locate follow (Path.detour name n rest) = .ok t := by
  obtain ⟨hfault, _, hwalk⟩ := locate_ok_iff.1 h
  refine locate_ok_iff.2 ⟨Path.fault?_detour n hname (Path.fault?_eq_none_iff.1 hfault), hlong, ?_⟩
  have horigin : w.origin (Path.detour name n rest) = w.cwd := rfl
  rw [horigin, Path.detour, walk_detours hdots (Nat.not_lt.2 hsize) hfolder]
  exact hwalk

/-! ## A folder whose path is almost too long -/

namespace Selection

/-- A name of `n` characters. -/
@[irreducible]
def longName (n : Nat) : String := String.ofList (List.replicate n 'x')

theorem length_longName (n : Nat) : (longName n).toList.length = n := by
  rw [longName, String.toList_ofList, List.length_replicate]

theorem ascii_longName (n : Nat) : Text.isAscii (longName n).toList = true := by
  rw [longName, String.toList_ofList, Text.isAscii_iff]
  intro c hc
  rw [List.eq_of_mem_replicate hc]
  decide

theorem nameable_longName [Surrogates] (n : Nat) : Text.Nameable (longName n) := by
  refine Text.nameable_of_ascii (ascii_longName n) ?_
  rw [longName, String.toList_ofList]
  exact fun h => absurd (List.eq_of_mem_replicate h) (by decide)

theorem longName_ne {n : Nat} {s : String} (h : s.toList.length < n) : longName n ≠ s := by
  rintro rfl
  exact absurd (length_longName n) h.ne

/-- A root behind sixteen detours through a folder with a long name. -/
def detours : Path := Path.detour (longName 250) 16 ["tools"]

/-- A workspace with a folder for the detours, and the root with one numbered folder. -/
def farFolder (files : Folder) : Workspace where
  cwd := []
  tree := [(longName 250, .folder []), ("tools", .folder [("1_x", .folder files)])]

theorem distinct_farFolder {files : Folder} (h : files.Distinct) : (farFolder files).tree.Distinct := by
  have hne : longName 250 ≠ "tools" := longName_ne (by decide)
  have hfolder : ∀ {es : Folder}, es.Distinct → (Entry.folder es).Distinct := by
    rintro es h fs heq
    cases heq
    exact h
  have hnumbered : Folder.Distinct [("1_x", .folder files)] :=
    distinct_of_entries (by simp) (List.forall_mem_singleton.2 (hfolder h))
  refine distinct_of_entries (by simpa [farFolder] using hne) (List.forall_mem_cons.2 ⟨?_, ?_⟩)
  · exact hfolder (distinct_of_entries (by simp) (by simp))
  · exact List.forall_mem_singleton.2 (hfolder hnumbered)

variable [Surrogates]

theorem nameSize_longName (n : Nat) : Text.nameSize (longName n) = n := by
  rw [Text.nameSize_of_ascii (ascii_longName n), length_longName]

/-- Little more fits behind that root: its path has 4069 bytes. -/
theorem nameSize_below_detours (names : List String) :
    Text.nameSize (below detours names).text = 4069 + Text.namesSize names := by
  have htools : Text.nameSize "tools" = 5 := Text.nameSize_of_ascii (by decide)
  have hsize := Path.nameSize_detour (longName 250) 16 (show ["tools"] ++ names ≠ [] by simp)
  rw [← Path.below_detour, nameSize_longName, Text.namesSize_append, ← detours, Text.namesSize, Text.namesSize,
    htools] at hsize
  omega

/-- As long as a path behind the detours is short enough, it leads to where it leads without them. -/
theorem locate_below_detours {files : Folder} {names : List String} {t : Target}
    (hsize : 4069 + Text.namesSize names ≤ pathLimit)
    (h : (farFolder files).locate true ⟨.relative, "tools" :: names⟩ = .ok t) :
    (farFolder files).locate true (below detours names) = .ok t := by
  have hlong : (farFolder files).tree.get? [longName 250] = some (.folder []) := by
    rw [get?_cons, farFolder, Value.get?_cons_self]
    rfl
  rw [← nameSize_below_detours, detours, Path.below_detour] at hsize
  rw [detours, Path.below_detour]
  exact Workspace.locate_detour hlong (longName_ne (by decide)) (by rw [nameSize_longName]; decide)
    (nameable_longName 250) hsize h

theorem folder?_detours (files : Folder) :
    (farFolder files).folder? detours = .ok (some [("1_x", .folder files)]) := by
  have htools : (farFolder files).tree.get? ["tools"] = some (.folder [("1_x", .folder files)]) := by
    rw [get?_cons, farFolder, Value.get?_cons_of_ne (longName_ne (by decide)), Value.get?_cons_self]
    rfl
  have htext : Text.nameSize (Path.mk .relative ["tools"]).text = 5 := Text.nameSize_of_ascii (by decide)
  have hname : Text.nameSize "tools" = 5 := Text.nameSize_of_ascii (by decide)
  have hdirect : (farFolder files).locate true ⟨.relative, ["tools"]⟩ =
      .ok (.found ["tools"] (.folder [("1_x", .folder files)])) := by
    refine Workspace.locate_ok_iff.2 ⟨Path.fault?_eq_none_iff.2 (List.forall_mem_singleton.2 ?_), ?_, ?_⟩
    · exact Text.nameable_of_ascii (by decide) (by decide)
    · rw [htext]
      decide
    · exact walk_of_spelled (by simp) (by decide) (List.forall_mem_singleton.2 (by rw [hname]; decide)) htools
  have hfar := locate_below_detours (by simp [Text.namesSize, pathLimit]) hdirect
  rw [below, List.append_nil] at hfar
  exact Workspace.folder?_some_iff.2 ⟨_, hfar⟩

end Selection

end RequestAtlas
