import RequestAtlas.Proofs.Workspace.Folders
/-!
# Writing files

A file can be written where a path leads to a file or to a free place (`writable_iff`), whatever is to be written;
writing one file does not take that away from another (`writable_write`).  In a tree without links, what was written
is read back (`read_write`), also after another file was written elsewhere (`read_write_of_ne`).
-/

namespace RequestAtlas

open Folder

variable [Surrogates]

namespace Folder

/-- Where text can be written there is a file or nothing, in a folder. -/
theorem walk_writable {tree : Folder} {follow : Bool} {links : Nat} {place names : List String} {t : Target}
    (h : tree.walk follow links place names = .ok t) (ht : t.Writable) :
    ∃ above name, t.place = above ++ [name] ∧
      (tree.get? t.place = none ∨ ∃ old, tree.get? t.place = some (.file old)) ∧
      (tree.HasFolder place → tree.HasFolder above) := by
  cases t with
  | free q =>
    obtain ⟨above, name, hq, hnone, _, habove⟩ := walk_free h
    exact ⟨above, name, hq, .inl hnone, habove⟩
  | found q e =>
    cases e with
    | folder es => exact ht.elim
    | link target => exact ht.elim
    | file old =>
      have hfile := walk_found h
      rcases List.eq_nil_or_concat q with rfl | ⟨above, name, rfl⟩
      · rw [get?_nil] at hfile
        cases hfile
      · rw [List.concat_eq_append] at hfile
        exact ⟨above, name, List.concat_eq_append, .inr ⟨old, List.concat_eq_append ▸ hfile⟩,
          fun _ => hasFolder_of_get? hfile⟩

end Folder

namespace Workspace

/-- A file can be written there, whatever it is to hold. -/
def Writable (w : Workspace) (p : Path) : Prop := ∀ content, ∃ w', w.write p content = .ok w'

/-- Writing puts a file where the path leads to. -/
theorem write_ok_iff {w w' : Workspace} {p : Path} {content : List UInt8} : w.write p content = .ok w' ↔
    ∃ t, w.locate true p = .ok t ∧ t.Writable ∧ w' = { w with tree := w.tree.set t.place (.file content) } := by
  unfold write
  cases hl : w.locate true p with
  | error e => simp
  | ok t =>
    cases t with
    | free q => simp [Target.Writable, Target.place, eq_comm]
    | found q e => cases e <;> simp [Target.Writable, Target.place, eq_comm]

theorem writable_iff {w : Workspace} {p : Path} :
    w.Writable p ↔ ∃ t, w.locate true p = .ok t ∧ t.Writable := by
  constructor
  · intro h
    obtain ⟨w', hw⟩ := h []
    obtain ⟨t, hl, ht, _⟩ := write_ok_iff.1 hw
    exact ⟨t, hl, ht⟩
  · rintro ⟨t, hl, ht⟩ content
    exact ⟨_, write_ok_iff.2 ⟨t, hl, ht, rfl⟩⟩

/-- The log does not matter to writing. -/
theorem write_withLog {w v : Workspace} {p : Path} {content : List UInt8} {log : List LogEntry} :
    (w.withLog log).write p content = .ok v ↔ ∃ u, w.write p content = .ok u ∧ v = u.withLog log := by
  rw [write_ok_iff]
  constructor
  · rintro ⟨t, hl, ht, rfl⟩
    exact ⟨_, write_ok_iff.2 ⟨t, hl, ht, rfl⟩, rfl⟩
  · rintro ⟨u, hu, rfl⟩
    obtain ⟨t, hl, ht, rfl⟩ := write_ok_iff.1 hu
    exact ⟨t, hl, ht, rfl⟩

/-- Every place holds what it held, up to the file that was written. -/
theorem written_write {w w' : Workspace} {p : Path} {content : List UInt8} (h : w.write p content = .ok w')
    (q : List String) : Written content (w.tree.get? q) (w'.tree.get? q) := by
  obtain ⟨t, hl, ht, rfl⟩ := write_ok_iff.1 h
  obtain ⟨_, _, hwalk⟩ := locate_ok_iff.1 hl
  obtain ⟨above, name, hplace, hold, _⟩ := walk_writable hwalk ht
  exact written_set content hplace hold q

theorem write_cwd {w w' : Workspace} {p : Path} {content : List UInt8} (h : w.write p content = .ok w') :
    w'.cwd = w.cwd := by
  obtain ⟨t, _, _, rfl⟩ := write_ok_iff.1 h
  rfl

/-- What could be written can be written still. -/
theorem writable_write {w w' : Workspace} {p q : Path} {content : List UInt8} (h : w.write p content = .ok w')
    (hq : w.Writable q) : w'.Writable q := by
  obtain ⟨t, hl, ht⟩ := writable_iff.1 hq
  obtain ⟨hfault, hlong, hwalk⟩ := locate_ok_iff.1 hl
  obtain ⟨t', hwalk', ht'⟩ := walk_written (written_write h) hwalk ht
  refine writable_iff.2 ⟨t', locate_ok_iff.2 ⟨hfault, hlong, ?_⟩, ht'⟩
  rw [origin, write_cwd h]
  exact hwalk'

/-! ## Reading what was written -/

/-- A path that can be followed leads to the place that it spells. -/
theorem place_of_locate {w : Workspace} {p : Path} (hlinks : w.tree.LinkFree) (hdots : ".." ∉ p.parts)
    {follow : Bool} {t : Target} (h : w.locate follow p = .ok t) : t.place = w.placeOf p :=
  (walk_spells hlinks hdots (locate_ok_iff.1 h).2.2).1

section
variable {w w' : Workspace} {p : Path} {content : List UInt8} (h : w.write p content = .ok w')
include h

theorem linkFree_write (hlinks : w.tree.LinkFree) : w'.tree.LinkFree := by
  intro q target hq
  rcases written_write h q with hs | ⟨hfile, _⟩
  · exact hlinks q target ((hs.link target).2 hq)
  · rw [hfile] at hq
    cases hq

/-- A path that was written to can be used, and what was written stands at its place. -/
theorem get?_write (hlinks : w.tree.LinkFree) (hdots : ".." ∉ p.parts) (hcwd : w.tree.HasFolder w.cwd) :
    p.Usable ∧ w'.tree.get? (w.placeOf p) = some (.file content) := by
  obtain ⟨t, hl, ht, rfl⟩ := write_ok_iff.1 h
  have horigin : w.tree.HasFolder (w.origin p) := by
    rw [origin]
    split
    · exact hasFolder_nil _
    · exact hcwd
  obtain ⟨hfault, hlong, hwalk⟩ := locate_ok_iff.1 hl
  obtain ⟨hplace, hshort⟩ := walk_spells hlinks hdots hwalk
  obtain ⟨above, name, hname, _, habove⟩ := walk_writable hwalk ht
  obtain ⟨sub, hsub⟩ := habove horigin
  refine ⟨⟨hfault, hlong, hshort⟩, ?_⟩
  rw [placeOf, ← hplace, hname, get?_set_below [] hsub]
  rfl

/-- What was written is read back. -/
theorem read_write (hlinks : w.tree.LinkFree) (hdots : ".." ∉ p.parts) (hcwd : w.tree.HasFolder w.cwd) :
    w'.read p = .ok content := by
  obtain ⟨husable, hget⟩ := get?_write h hlinks hdots hcwd
  refine (read_eq_ok_iff (linkFree_write h hlinks) hdots).2 ⟨husable, ?_⟩
  rw [placeOf, origin, write_cwd h]
  exact hget

end

/-- A file written elsewhere changes nothing that is read. -/
theorem read_write_of_ne {w w' : Workspace} {p q : Path} {content old : List UInt8} (h : w.write q content = .ok w')
    (hlinks : w.tree.LinkFree) (hp : ".." ∉ p.parts) (hq : ".." ∉ q.parts) (hne : w.placeOf p ≠ w.placeOf q)
    (hread : w.read p = .ok old) : w'.read p = .ok old := by
  obtain ⟨husable, hget⟩ := (read_eq_ok_iff hlinks hp).1 hread
  refine (read_eq_ok_iff (linkFree_write h hlinks) hp).2 ⟨husable, ?_⟩
  obtain ⟨t, hl, ht, rfl⟩ := write_ok_iff.1 h
  obtain ⟨_, _, hwalk⟩ := locate_ok_iff.1 hl
  obtain ⟨above, name, hplace, hold, _⟩ := walk_writable hwalk ht
  have hfolder : ∀ sub, w.tree.get? (above ++ [name]) ≠ some (.folder sub) := by
    intro sub hsub
    rw [hplace, hsub] at hold
    rcases hold with hold | ⟨_, hold⟩ <;> cases hold
  have hne' : w.placeOf p ≠ above ++ [name] := by
    rw [← hplace, place_of_locate hlinks hq hl]
    exact hne
  have hsimilar := similar_set_file content hfolder hne'
  rw [← hplace] at hsimilar
  exact (hsimilar.file old).1 hget

/-- Where nothing stands, a file can be written, if there is a folder around the place. -/
theorem writable_of_free {w : Workspace} {p : Path} {front : List String} {name : String} (hlinks : w.tree.LinkFree)
    (hdots : ".." ∉ p.parts) (hparts : p.parts = front ++ [name]) (husable : p.Usable)
    (hfolder : w.tree.HasFolder (w.origin p ++ front)) (hnone : w.tree.get? (w.placeOf p) = none) : w.Writable p :=
  writable_iff.2 ⟨_, locate_free hlinks hdots hparts husable hfolder hnone true, trivial⟩

end Workspace

/-! ## Writing texts -/

namespace Work

theorem outcome_writeBytes {p : Path} {content : List UInt8} {w v : Workspace} {log : List LogEntry} :
    (writeBytes p content).outcome (w.withLog log) = (.ok (), v) ↔
      ∃ u, w.write p content = .ok u ∧ v = u.withLog log := by
  rw [writeBytes, outcome_bind_ok]
  constructor
  · rintro ⟨a, u, hget, h⟩
    cases hget
    obtain ⟨b, u, hfile, hset⟩ := outcome_bind_ok.1 h
    obtain ⟨hwrite, rfl⟩ := outcome_ofFile_ok.1 hfile
    obtain ⟨u, hu, rfl⟩ := Workspace.write_withLog.1 hwrite
    cases hset
    exact ⟨u, hu, rfl⟩
  · rintro ⟨u, hu, rfl⟩
    have hwrite : (w.withLog log).write p content = .ok (u.withLog log) := Workspace.write_withLog.2 ⟨u, hu, rfl⟩
    refine ⟨_, _, outcome_get _, outcome_bind_ok.2 ⟨u.withLog log, w.withLog log, ?_, outcome_set _ _⟩⟩
    exact outcome_ofFile_ok.2 ⟨hwrite, rfl⟩

/-- Where a file cannot be written, all stays as it was. -/
theorem outcome_writeBytes_error {p : Path} {content : List UInt8} {w v : Workspace} {e : Failure}
    (h : (writeBytes p content).outcome w = (.error e, v)) : (∃ d, e = .file d) ∧ v = w := by
  rcases outcome_bind_cases h with ⟨_, _, hget, h⟩ | ⟨_, hget, _⟩
  · cases hget
    rcases outcome_bind_cases h with ⟨_, _, _, hset⟩ | ⟨_, hfile, heq⟩
    · cases hset
    · cases heq
      exact outcome_ofFile_error hfile
  · cases hget

/-- A text is written if it can be encoded and the file can be written. -/
theorem outcome_writeText {p : Path} {text : String} {w v : Workspace} {log : List LogEntry} :
    (writeText p text).outcome (w.withLog log) = (.ok (), v) ↔
      Text.Writable text ∧ ∃ u, w.write p text.toUTF8.toList = .ok u ∧ v = u.withLog log := by
  rw [writeText]
  cases hencode : Text.encode text with
  | ok bytes =>
    obtain ⟨htext, rfl⟩ := Text.encode_eq_ok_iff.1 hencode
    simp only [outcome_writeBytes, htext, true_and]
  | error e =>
    refine iff_of_false (fun h => ?_) fun ⟨htext, _⟩ => ?_
    · obtain ⟨_, _, _, h⟩ := outcome_bind_ok.1 h
      cases h
    · rw [Text.encode_of_writable htext] at hencode
      cases hencode

/-- A text that is not written leaves all as it was, or cannot be encoded and leaves the file empty. -/
theorem outcome_writeText_error {p : Path} {text : String} {w v : Workspace} {log : List LogEntry} {e : Failure}
    (h : (writeText p text).outcome (w.withLog log) = (.error e, v)) :
    ((∃ d, e = .file d) ∧ v = w.withLog log) ∨
      (¬ Text.Writable text ∧ ∃ d u, e = .encoding d ∧ w.write p [] = .ok u ∧ v = u.withLog log) := by
  rw [writeText] at h
  cases hencode : Text.encode text with
  | ok bytes =>
    rw [hencode] at h
    exact .inl (outcome_writeBytes_error h)
  | error d =>
    rw [hencode] at h
    rcases outcome_bind_cases h with ⟨_, u, hfile, hthrow⟩ | ⟨_, hfile, heq⟩
    · obtain ⟨u, hu, rfl⟩ := outcome_writeBytes.1 hfile
      cases hthrow
      refine .inr ⟨fun htext => ?_, d, u, rfl, hu, rfl⟩
      rw [Text.encode_of_writable htext] at hencode
      cases hencode
    · cases heq
      exact .inl (outcome_writeBytes_error hfile)

end Work

end RequestAtlas
