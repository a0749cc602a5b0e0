import RequestAtlas.Proofs.FileTree.Places
/-!
# Where paths lead

Facts about `Folder.walk` that hold in every tree: a free place stands in a folder under a name that is not taken
(`walk_free`), names without double dots find what stands at the place that they spell (`walk_of_spelled`), and writing
a file keeps places writable (`walk_written`).  In a tree without links they lead nowhere else (`walk_spells`).
-/

namespace RequestAtlas

namespace Folder

/-- There is a folder at the place. -/
def HasFolder (tree : Folder) (place : List String) : Prop := ∃ es, tree.get? place = some (.folder es)

theorem hasFolder_nil (tree : Folder) : tree.HasFolder [] := ⟨tree, rfl⟩

theorem HasFolder.of_append {tree : Folder} {p q : List String} (h : tree.HasFolder (p ++ q)) :
    tree.HasFolder p := by
  obtain ⟨es, h⟩ := h
  rw [get?_append] at h
  obtain ⟨e, he, hat⟩ := Option.bind_eq_some_iff.1 h
  cases e with
  | folder inner => exact ⟨inner, he⟩
  | file content => cases q <;> simp [Entry.at?] at hat
  | link target => cases q <;> simp [Entry.at?] at hat

/-- What stands somewhere stands in a folder. -/
theorem hasFolder_of_get? {tree : Folder} {p : List String} {name : String} {e : Entry}
    (h : tree.get? (p ++ [name]) = some e) : tree.HasFolder p := by
  rw [get?_append] at h
  obtain ⟨d, hd, hat⟩ := Option.bind_eq_some_iff.1 h
  cases d with
  | folder inner => exact ⟨inner, hd⟩
  | file content => cases hat
  | link target => cases hat

theorem HasFolder.dropLast {tree : Folder} {p : List String} (h : tree.HasFolder p) :
    tree.HasFolder p.dropLast := by
  rcases List.eq_nil_or_concat p with rfl | ⟨q, n, rfl⟩
  · exact h
  · rw [List.concat_eq_append] at h ⊢
    rw [List.dropLast_concat]
    exact h.of_append

/-! ## One name further -/

variable [Surrogates]

theorem walk_nil {tree : Folder} {follow : Bool} {links : Nat} {place : List String} {e : Entry}
    (h : tree.get? place = some e) : tree.walk follow links place [] = .ok (.found place e) := by
  rw [walk, h]

theorem walk_up (tree : Folder) (follow : Bool) (links : Nat) (place rest : List String) :
    tree.walk follow links place (".." :: rest) = tree.walk follow links place.dropLast rest := by
  rw [walk, if_pos rfl]

section
variable {tree : Folder} {follow : Bool} {links : Nat} {place : List String} {name : String} {rest : List String}
variable (hname : ¬ name = "..") (hsize : ¬ nameLimit < Text.nameSize name)
include hname hsize

theorem walk_none (h : tree.get? (place ++ [name]) = none) : tree.walk follow links place (name :: rest) =
    if rest.isEmpty then .ok (.free (place ++ [name])) else .error .missing := by
  rw [walk, if_neg hname, if_neg hsize, h]

theorem walk_folder {es : Folder} (h : tree.get? (place ++ [name]) = some (.folder es)) :
    tree.walk follow links place (name :: rest) = tree.walk follow links (place ++ [name]) rest := by
  rw [walk, if_neg hname, if_neg hsize, h]

theorem walk_file {content : List UInt8} (h : tree.get? (place ++ [name]) = some (.file content)) :
    tree.walk follow links place (name :: rest) =
      if rest.isEmpty then .ok (.found (place ++ [name]) (.file content)) else .error .notFolder := by
  rw [walk, if_neg hname, if_neg hsize, h]

theorem walk_link {target : String} (h : tree.get? (place ++ [name]) = some (.link target))
    (hfollow : ¬ (rest.isEmpty && !follow) = true) : tree.walk follow (links + 1) place (name :: rest) =
      tree.walk follow links (if (Path.ofString target).isAbsolute then [] else place)
        ((Path.ofString target).parts ++ rest) := by
  rw [walk, if_neg hname, if_neg hsize, h]
  simp only [if_neg hfollow]

end

theorem walk_long {tree : Folder} {follow : Bool} {links : Nat} {place : List String} {name : String}
    {rest : List String} (hname : ¬ name = "..") (hsize : nameLimit < Text.nameSize name) :
    tree.walk follow links place (name :: rest) = .error .nameTooLong := by
  rw [walk, if_neg hname, if_pos hsize]

/-- A free place is in a folder, under a name that is not taken.  If links at the end are not followed, it is the
last name of the path. -/
theorem walk_free {tree : Folder} {follow : Bool} {links : Nat} {place names q : List String}
    (h : tree.walk follow links place names = .ok (.free q)) :
    ∃ above name, q = above ++ [name] ∧ tree.get? q = none ∧ (follow = false → names.getLast? = some name) ∧
      (tree.HasFolder place → tree.HasFolder above) := by
  fun_induction walk tree follow links place names with
  | case1 => simp at h
  | case2 => simp at h
  | case3 links place rest ih =>
    obtain ⟨above, name, hq, hnone, hlast, hfolder⟩ := ih h
    refine ⟨above, name, hq, hnone, fun hf => ?_, fun hp => hfolder hp.dropLast⟩
    rw [List.getLast?_cons, hlast hf]
    rfl
  | case4 => simp at h
  | case5 links place name rest _ _ hnone hrest =>
    cases h
    rw [List.isEmpty_iff] at hrest
    exact ⟨place, name, rfl, hnone, fun _ => by rw [hrest]; rfl, id⟩
  | case6 => simp at h
  | case7 links place name rest _ _ es hfolder ih =>
    obtain ⟨above, last, hq, hnone, hlast, habove⟩ := ih h
    refine ⟨above, last, hq, hnone, fun hf => ?_, fun _ => habove ⟨es, hfolder⟩⟩
    rw [List.getLast?_cons, hlast hf]
    rfl
  | case8 => simp at h
  | case9 => simp at h
  | case10 => simp at h
  | case11 => simp at h
  | case12 place name rest _ _ target _ hrest links p ih =>
    obtain ⟨above, last, hq, hnone, hlast, habove⟩ := ih h
    refine ⟨above, last, hq, hnone, fun hf => ?_, fun hp => habove ?_⟩
    · -- a link that is not the last name is followed, and names stand behind it
      have hne : rest ≠ [] := by simpa [hf] using hrest
      have hl := hlast hf
      rw [List.getLast?_append_of_ne_nil _ hne] at hl
      rw [List.getLast?_cons, hl]
      rfl
    · split
      · exact hasFolder_nil tree
      · exact hp

/-- Where a path leads to something, that stands there. -/
theorem walk_found {tree : Folder} {follow : Bool} {links : Nat} {place names q : List String} {e : Entry}
    (h : tree.walk follow links place names = .ok (.found q e)) : tree.get? q = some e := by
  fun_induction walk tree follow links place names with
  | case1 _ _ d hd => cases h; exact hd
  | case3 _ _ _ ih => exact ih h
  | case5 => cases h
  | case7 _ _ _ _ _ _ _ _ ih => exact ih h
  | case8 _ _ _ _ _ _ _ hd _ => cases h; exact hd
  | case10 _ _ _ _ _ _ _ hd _ => cases h; exact hd
  | case12 _ _ _ _ _ _ _ _ _ _ ih => exact ih h
  | _ => cases h

/-- What stands at a place and is no link is found by the names that lead there. -/
theorem walk_of_spelled {tree : Folder} {follow : Bool} {links : Nat} {e : Entry} (he : ∀ target, e ≠ .link target) :
    ∀ {names place : List String}, ".." ∉ names → (∀ n ∈ names, Text.nameSize n ≤ nameLimit) →
      tree.get? (place ++ names) = some e → tree.walk follow links place names = .ok (.found (place ++ names) e)
  | [], place, _, _, h => by
    rw [List.append_nil] at h ⊢
    exact walk_nil h
  | name :: rest, place, hdots, hshort, h => by
    simp only [List.mem_cons, not_or] at hdots
    rw [List.forall_mem_cons] at hshort
    have hname : ¬ name = ".." := Ne.symm hdots.1
    have hsize : ¬ nameLimit < Text.nameSize name := Nat.not_lt.2 hshort.1
    rw [List.append_cons] at h ⊢
    cases rest with
    | nil =>
      rw [List.append_nil] at h ⊢
      cases e with
      | file content => exact walk_file hname hsize h
      | folder es => rw [walk_folder hname hsize h]; exact walk_nil h
      | link target => exact absurd rfl (he target)
    | cons m rest =>
      -- On the way there are folders only.
      obtain ⟨es, hes⟩ : tree.HasFolder (place ++ [name]) := by
        obtain ⟨d, hd, hat⟩ := Option.bind_eq_some_iff.1 ((get?_append ..).symm.trans h)
        cases d with
        | folder inner => exact ⟨inner, hd⟩
        | file content => cases hat
        | link target => cases hat
      rw [walk_folder hname hsize hes]
      exact walk_of_spelled he hdots.2 hshort.2 h

/-! ## Writing files -/

end Folder

/-- The place of a target. -/
def Target.place : Target → List String
  | .found place _ => place
  | .free place => place

/-- Text can be written there. -/
def Target.Writable : Target → Prop
  | .found _ (.file _) => True
  | .free _ => True
  | _ => False

namespace Folder

/-- What stands at a place before and after a file is written, there or elsewhere. -/
def Written (content : List UInt8) (a b : Option Entry) : Prop :=
  Similar a b ∨ b = some (.file content) ∧ (a = none ∨ ∃ old, a = some (.file old))

theorem written_set {tree : Folder} {q : List String} (content : List UInt8) {above : List String} {name : String}
    (hq : q = above ++ [name]) (hold : tree.get? q = none ∨ ∃ old, tree.get? q = some (.file old))
    (p : List String) : Written content (tree.get? p) ((tree.set q (.file content)).get? p) := by
  subst hq
  have hfolder : ∀ sub, tree.get? (above ++ [name]) ≠ some (.folder sub) := by
    intro sub hsub
    rcases hold with hnone | ⟨old, hfile⟩
    · rw [hnone] at hsub; cases hsub
    · rw [hfile] at hsub; cases hsub
  by_cases hp : p = above ++ [name]
  · by_cases habove : tree.HasFolder above
    · obtain ⟨sub, habove⟩ := habove
      right
      rw [hp, get?_set_below [] habove]
      exact ⟨rfl, hold⟩
    · rw [set_eq_self _ fun sub hsub => habove ⟨sub, hsub⟩]
      exact .inl (.inl rfl)
  · exact .inl (similar_set_file content hfolder hp)

theorem Written.file {content old : List UInt8} {b : Option Entry} (h : Written content (some (.file old)) b) :
    ∃ new, b = some (.file new) := by
  rcases h with h | ⟨hb, _⟩
  · exact ⟨old, (h.file old).1 rfl⟩
  · exact ⟨content, hb⟩

theorem Written.folder {content : List UInt8} {es : Folder} {b : Option Entry}
    (h : Written content (some (.folder es)) b) : ∃ fs, b = some (.folder fs) := by
  rcases h with (h | ⟨_, fs, _, h⟩) | ⟨_, h | ⟨_, h⟩⟩
  · exact ⟨es, h.symm⟩
  · exact ⟨fs, h⟩
  · cases h
  · cases h

theorem Written.link {content : List UInt8} {target : String} {b : Option Entry}
    (h : Written content (some (.link target)) b) : b = some (.link target) := by
  rcases h with h | ⟨_, h | ⟨_, h⟩⟩
  · exact (h.link target).1 rfl
  · cases h
  · cases h

theorem Written.none {content : List UInt8} {b : Option Entry} (h : Written content none b) :
    b = none ∨ b = some (.file content) := by
  rcases h with h | ⟨hb, _⟩
  · exact .inl (h.none.1 rfl)
  · exact .inr hb

/-- Where a file can be written, one can still be written after another was. -/
theorem walk_written [Surrogates] {tree tree' : Folder} {content : List UInt8}
    (hw : ∀ p, Written content (tree.get? p) (tree'.get? p)) {links : Nat} {place names : List String} {t : Target}
    (h : tree.walk true links place names = .ok t) (ht : t.Writable) :
    ∃ t', tree'.walk true links place names = .ok t' ∧ t'.Writable := by
  fun_induction walk tree true links place names with
  | case1 links place e he =>
    cases h
    cases e with
    | file old =>
      obtain ⟨new, hnew⟩ := Written.file (he ▸ hw place)
      exact ⟨_, walk_nil hnew, trivial⟩
    | folder es => exact ht.elim
    | link target => exact ht.elim
  | case2 => cases h
  | case3 links place rest ih =>
    obtain ⟨t', h', ht'⟩ := ih h
    exact ⟨t', by rw [walk_up]; exact h', ht'⟩
  | case4 => cases h
  | case5 links place name rest hname hsize hnone hrest =>
    rcases Written.none (hnone ▸ hw (place ++ [name])) with hnew | hnew
    · exact ⟨_, (walk_none hname hsize hnew).trans (if_pos hrest), trivial⟩
    · exact ⟨_, (walk_file hname hsize hnew).trans (if_pos hrest), trivial⟩
  | case6 => cases h
  | case7 links place name rest hname hsize es hfolder ih =>
    obtain ⟨fs, hnew⟩ := Written.folder (hfolder ▸ hw (place ++ [name]))
    obtain ⟨t', h', ht'⟩ := ih h
    exact ⟨t', by rw [walk_folder hname hsize hnew]; exact h', ht'⟩
  | case8 links place name rest hname hsize old hfile hrest =>
    obtain ⟨new, hnew⟩ := Written.file (hfile ▸ hw (place ++ [name]))
    exact ⟨_, (walk_file hname hsize hnew).trans (if_pos hrest), trivial⟩
  | case9 => cases h
  | case10 links place name rest hname hsize target hlink hrest => simp at hrest
  | case11 => cases h
  | case12 place name rest hname hsize target hlink hrest links p ih =>
    have hnew := Written.link (hlink ▸ hw (place ++ [name]))
    obtain ⟨t', h', ht'⟩ := ih h
    exact ⟨t', by rw [walk_link hname hsize hnew hrest]; exact h', ht'⟩

/-! ## Trees without links -/

/-- There is no link anywhere. -/
def LinkFree (tree : Folder) : Prop := ∀ p target, tree.get? p ≠ some (.link target)

variable [Surrogates]

/-- Names lead to the place that they spell, if anywhere. -/
theorem walk_spells {tree : Folder} (hlinks : tree.LinkFree) {follow : Bool} {links : Nat} {t : Target} :
    ∀ {names place : List String}, ".." ∉ names → tree.walk follow links place names = .ok t →
      t.place = place ++ names ∧ ∀ n ∈ names, Text.nameSize n ≤ nameLimit
  | [], place, _, h => by
    rw [walk] at h
    split at h <;> cases h
    exact ⟨(List.append_nil place).symm, by simp⟩
  | name :: rest, place, hdots, h => by
    simp only [List.mem_cons, not_or] at hdots
    have hname : ¬ name = ".." := Ne.symm hdots.1
    by_cases hsize : nameLimit < Text.nameSize name
    · rw [walk_long hname hsize] at h
      cases h
    · have hend : rest.isEmpty = true →
          place ++ [name] = place ++ name :: rest ∧ ∀ n ∈ name :: rest, Text.nameSize n ≤ nameLimit := by
        intro hrest
        rw [List.isEmpty_iff] at hrest
        subst hrest
        exact ⟨rfl, by simpa using hsize⟩
      cases hp : tree.get? (place ++ [name]) with
      | none =>
        rw [walk_none hname hsize hp] at h
        split at h <;> cases h
        exact hend ‹_›
      | some d =>
        cases d with
        | folder es =>
          rw [walk_folder hname hsize hp] at h
          obtain ⟨hplace, hshort⟩ := walk_spells hlinks hdots.2 h
          refine ⟨by rw [hplace, List.append_assoc, List.singleton_append], ?_⟩
          rw [List.forall_mem_cons]
          exact ⟨Nat.not_lt.1 hsize, hshort⟩
        | file content =>
          rw [walk_file hname hsize hp] at h
          split at h <;> cases h
          exact hend ‹_›
        | link target => exact absurd hp (hlinks _ target)

/-- Names lead to the entry at the place that they spell, if none of them is too long. -/
theorem walk_eq_found_iff {tree : Folder} (hlinks : tree.LinkFree) {follow : Bool} {links : Nat}
    {names place q : List String} {e : Entry} (hdots : ".." ∉ names) :
    tree.walk follow links place names = .ok (.found q e) ↔
      q = place ++ names ∧ tree.get? q = some e ∧ ∀ n ∈ names, Text.nameSize n ≤ nameLimit := by
  constructor
  · intro h
    obtain ⟨hplace, hshort⟩ := walk_spells hlinks hdots h
    exact ⟨hplace, walk_found h, hshort⟩
  · rintro ⟨rfl, hget, hshort⟩
    exact walk_of_spelled (fun target he => hlinks _ target (he ▸ hget)) hdots hshort hget

end Folder

end RequestAtlas
