import RequestAtlas.Proofs.Generation.Returning
/-!
# What a run may touch

A run ends in one of a few ways (`Ending`): it stops while the output folder is made, or before a document is written,
or after the first of them, or it writes both; or it stops at a text that cannot be encoded, whose file it has opened by
then.  From that follows what it leaves behind in a tree without links, whether it returns or fails (`run_effects`):
nothing changes but that folders are made for the output path and the two documents are written.  After a failure the
environment is as it was, and the collection is as it was or complete, unless a text could not be encoded: then the file
that was to hold it is empty.
-/

namespace RequestAtlas.Generation

open Folder Work

/-! ## What stands at a place -/

/-- At a place stands what stood there, up to what folders hold, or a folder that was made for a path.  So a file that
stood there is the same, and there is no new one. -/
def Kept (p : Path) (w w' : Workspace) (q : List String) : Prop :=
  Similar (w.tree.get? q) (w'.tree.get? q) ∨ (w.tree.get? q = none ∧ w'.tree.HasFolder q ∧ p.Begins w.cwd q)

/-- At a place where a file or nothing stood, a file stands. -/
def Refilled (w w' : Workspace) (q : List String) : Prop :=
  (w.tree.get? q = none ∨ ∃ old, w.tree.get? q = some (.file old)) ∧ ∃ new, w'.tree.get? q = some (.file new)

section
variable {p : Path} {w v v' : Workspace} {q place : List String} {content : List UInt8} (h : Kept p w v q)
include h

/-- A file that is written elsewhere leaves a place as it is. -/
theorem Kept.filed (hfiled : v.Filed place content v') (hq : q ≠ place) : Kept p w v' q := by
  have hsimilar := hfiled.similar hq
  rcases h with hkept | ⟨hnone, hfolder, hbegins⟩
  · exact .inl (hkept.trans hsimilar)
  · exact .inr ⟨hnone, hsimilar.hasFolder.1 hfolder, hbegins⟩

/-- Where a file is written there was no folder before either. -/
theorem Kept.refilled (hfiled : v.Filed q content v') : Refilled w v' q := by
  refine ⟨?_, content, hfiled.get?⟩
  rcases h with hkept | ⟨hnone, _⟩
  · rcases hfiled.old with hold | ⟨c, hold⟩
    · exact .inl (hkept.none.2 hold)
    · exact .inr ⟨c, (hkept.file c).2 hold⟩
  · exact .inl hnone

end

theorem Refilled.filed {w v v' : Workspace} {q place : List String} {content : List UInt8} (h : Refilled w v q)
    (hfiled : v.Filed place content v') (hq : q ≠ place) : Refilled w v' q := by
  obtain ⟨hold, new, hnew⟩ := h
  exact ⟨hold, new, ((hfiled.similar hq).file new).1 hnew⟩

/-- A file that holds what it held is as it was. -/
theorem kept_file_iff {p : Path} {w w' : Workspace} {q : List String} {content : List UInt8}
    (h : w'.tree.get? q = some (.file content)) : Kept p w w' q ↔ w.tree.get? q = some (.file content) := by
  constructor
  · rintro (hsame | ⟨_, ⟨es, hes⟩, _⟩)
    · exact (hsame.file content).2 h
    · rw [h] at hes
      cases hes
  · intro hold
    exact .inl (.inl (hold.trans h.symm))

/-! ## The ways to end -/

/-- An environment that was built can be written as a text. -/
theorem environment_render {name : String} {m : Moment} {doc : Value} (h : Document.environment name m = .ok doc) :
    ∃ template, doc.render = .ok template := by
  obtain ⟨stamp, hstamp, _⟩ := Results.bind_eq_ok_iff.1 h
  cases hutc : m.utc with
  | error e =>
    rw [Moment.stamp, hutc] at hstamp
    cases hstamp
  | ok u =>
    obtain ⟨doc', template, hdoc, hrender⟩ := Document.environment_of_utc name hutc
    rw [h] at hdoc
    cases hdoc
    exact ⟨template, hrender⟩

/-- A rendered text is not empty. -/
theorem toUTF8_ne_nil_of_render {v : Value} {text : String} (h : v.render = .ok text) : text.toUTF8.toList ≠ [] := by
  rw [Value.render] at h
  split at h
  · cases h
  · cases h
    rw [← List.length_pos_iff, Text.length_toUTF8, String.utf8ByteSize_append]
    exact Nat.lt_of_lt_of_le (by decide : 0 < "\n".utf8ByteSize) (Nat.le_add_left _ _)

section
variable [Surrogates] [Syntax.Parser]

/-- How a run from `w` can end, with its answer and the workspace that it leaves. -/
inductive Ending (s : Settings) (exportedAt : Moment) (w : Workspace) : Except Failure Report → Workspace → Prop
  /-- The output folder cannot be made. -/
  | unmade {e : FileError} {v : Workspace}
      (folders : (ensureFolders s.outPath).outcome w = (.error (.file e), v)) :
      Ending s exportedAt w (.error (.file e)) v
  /-- No document was written, because requests cannot be gathered, a document cannot be built, or the collection
  cannot be written. -/
  | unwritten {made : Workspace} {e : Failure} (log : List LogEntry) (reason : ∀ d, e ≠ .encoding d)
      (folders : (ensureFolders s.outPath).outcome w = (.ok (), made)) :
      Ending s exportedAt w (.error e) (made.withLog log)
  /-- The text of the collection cannot be encoded. -/
  | emptied {made first : Workspace} {files : List Path} {rs : List Request} {text : String} (d : Text.EncodingError)
      (log : List LogEntry) (folders : (ensureFolders s.outPath).outcome w = (.ok (), made))
      (requests : gathered made s = .ok (files, rs))
      (collection : Document.collectionText made.cwd s.baseDir s.collectionName rs = .ok text)
      (encodable : ¬ Text.Writable text) (collectionFile : made.write s.collectionPath [] = .ok first) :
      Ending s exportedAt w (.error (.encoding d)) (first.withLog log)
  /-- The environment cannot be written, but the collection was. -/
  | half {made first : Workspace} {files : List Path} {rs : List Request} {text : String} (e : FileError)
      (log : List LogEntry) (folders : (ensureFolders s.outPath).outcome w = (.ok (), made))
      (requests : gathered made s = .ok (files, rs))
      (collection : Document.collectionText made.cwd s.baseDir s.collectionName rs = .ok text)
      (collectionFile : made.write s.collectionPath text.toUTF8.toList = .ok first) :
      Ending s exportedAt w (.error (.file e)) (first.withLog log)
  /-- The text of the environment cannot be encoded, and the collection was written. -/
  | halfEmptied {made first last : Workspace} {files : List Path} {rs : List Request} {text : String}
      (d : Text.EncodingError) (log : List LogEntry) (folders : (ensureFolders s.outPath).outcome w = (.ok (), made))
      (requests : gathered made s = .ok (files, rs))
      (collection : Document.collectionText made.cwd s.baseDir s.collectionName rs = .ok text)
      (encodable : ¬ Text.Writable s.environmentName)
      (collectionFile : made.write s.collectionPath text.toUTF8.toList = .ok first)
      (environmentFile : first.write s.environmentPath [] = .ok last) :
      Ending s exportedAt w (.error (.encoding d)) (last.withLog log)
  /-- Both documents are written. -/
  | done {made first last : Workspace} {files : List Path} {rs : List Request} {text template : String}
      (log : List LogEntry) (course : Course s exportedAt w made files rs text template first last) :
      Ending s exportedAt w (.ok (reportOf s files rs)) (last.withLog log)

/-- Requests that cannot be gathered are those of files that cannot be asked about. -/
theorem gathered_error {w : Workspace} {s : Settings} {e : Failure} (h : gathered w s = .error e) :
    ∃ d, e = .file d := by
  rcases Results.bind_eq_error_iff.1 h with h | ⟨files, _, h⟩
  · rcases Selection.selected_error h with ⟨d, _, rfl⟩ | ⟨p, rfl, _⟩
    · exact ⟨d, rfl⟩
    · exact ⟨_, rfl⟩
  · rcases Results.bind_eq_error_iff.1 h with h | ⟨_, _, h⟩
    · obtain ⟨p, _, hp⟩ := Results.exists_of_mapM_eq_error h
      rw [requestsFrom] at hp
      split at hp
      · cases hp
        exact ⟨_, rfl⟩
      · cases hp
    · cases h

/-- The end of a run, once the text of its collection is known. -/
def writing (s : Settings) (files : List Path) (rs : List Request) (text : String) (environment : Value) :
    Work Report := do
  Work.writeText s.collectionPath text
  Work.writeText s.environmentPath (← Work.ofRender environment.render)
  Work.note Log.info runLogger
    ("Wrote " ++ toString rs.length ++ " requests to " ++ s.collectionPath.text)
  return reportOf s files rs

/-- If a run fails once the text of its collection is known, one of the two documents could not be written. -/
theorem ending_of_writing {s : Settings} {m : Moment} {w w' made : Workspace} {files : List Path} {rs : List Request}
    {text : String} {env : Value} {e : Failure} {log : List LogEntry}
    (hfolders : (ensureFolders s.outPath).outcome w = (.ok (), made)) (hrequests : gathered made s = .ok (files, rs))
    (hcollection : Document.collectionText made.cwd s.baseDir s.collectionName rs = .ok text)
    (henvironment : Document.environment s.environmentName m = .ok env)
    (h : (writing s files rs text env).outcome (made.withLog log) = (.error e, w')) : Ending s m w (.error e) w' := by
  rcases outcome_bind_cases h with ⟨_, _, hfile, h⟩ | ⟨_, hfile, heq⟩
  swap
  · cases heq
    rcases outcome_writeText_error hfile with ⟨⟨d, rfl⟩, rfl⟩ | ⟨htext, d, first, rfl, hfirst, rfl⟩
    · exact .unwritten log nofun hfolders
    · exact .emptied d log hfolders hrequests hcollection htext hfirst
  obtain ⟨_, first, hfirst, rfl⟩ := outcome_writeText.1 hfile
  obtain ⟨template, htemplate⟩ := environment_render henvironment
  rcases outcome_bind_cases h with ⟨_, _, hok, h⟩ | ⟨_, herror, _⟩
  swap
  · obtain ⟨⟨_, hnot, _⟩, _⟩ := outcome_ofRender_error herror
    rw [htemplate] at hnot
    cases hnot
  obtain ⟨hrendered, rfl⟩ := outcome_ofRender_ok.1 hok
  rcases outcome_bind_cases h with ⟨_, _, _, h⟩ | ⟨_, hfile, heq⟩
  swap
  · cases heq
    rcases outcome_writeText_error hfile with ⟨⟨d, rfl⟩, rfl⟩ | ⟨hname, d, last, rfl, hlast, rfl⟩
    · exact .half d log hfolders hrequests hcollection hfirst
    · rw [Document.writable_environment henvironment hrendered] at hname
      exact .halfEmptied d log hfolders hrequests hcollection hname hfirst hlast
  rcases outcome_bind_cases h with ⟨_, _, _, h⟩ | ⟨_, hnote, _⟩
  · cases h
  · cases hnote

/-- **Every run ends in one of these ways.** -/
theorem ending_of_run {s : Settings} {m : Moment} {w w' : Workspace} {r : Except Failure Report}
    (h : (run s m).outcome w = (r, w')) : Ending s m w r w' := by
  cases r with
  | ok report =>
    obtain ⟨made, files, rs, text, template, first, last, log, c, rfl, rfl⟩ := course_of_run h
    exact .done log c
  | error e =>
    rcases outcome_bind_cases h with ⟨_, made, hfolders, h⟩ | ⟨_, hfolders, heq⟩
    swap
    · cases heq
      obtain ⟨d, rfl⟩ := ensureFolders_error hfolders
      exact .unmade hfolders
    -- until the collection is opened the workspace stays as it was made, up to the log
    obtain ⟨log, hlog⟩ := collect_answers s made made.log
    rcases outcome_bind_cases h with ⟨⟨files, rs⟩, _, hcollect, h⟩ | ⟨_, hcollect, heq⟩
    swap
    · obtain ⟨hgathered, rfl⟩ := Prod.mk.inj (hcollect.symm.trans hlog)
      cases heq
      obtain ⟨d, rfl⟩ := gathered_error hgathered.symm
      exact .unwritten log nofun hfolders
    obtain ⟨hrequests, rfl⟩ := Prod.mk.inj (hcollect.symm.trans hlog)
    rcases outcome_bind_cases h with ⟨_, _, hget, h⟩ | ⟨_, hget, _⟩
    swap
    · cases hget
    cases hget
    rcases outcome_bind_cases h with ⟨doc, _, hdoc, h⟩ | ⟨_, hdoc, heq⟩
    swap
    · cases heq
      obtain ⟨⟨d, _, rfl⟩, rfl⟩ := outcome_ofRender_error hdoc
      exact .unwritten log nofun hfolders
    obtain ⟨hcollection, rfl⟩ := outcome_ofRender_ok.1 hdoc
    rcases outcome_bind_cases h with ⟨env, _, henv, h⟩ | ⟨_, henv, heq⟩
    swap
    · cases heq
      obtain ⟨⟨d, _, rfl⟩, rfl⟩ := outcome_ofMoment_error henv
      exact .unwritten log nofun hfolders
    obtain ⟨henvironment, rfl⟩ := outcome_ofMoment_ok.1 henv
    rcases outcome_bind_cases h with ⟨text, _, htext, h⟩ | ⟨_, htext, heq⟩
    swap
    · cases heq
      obtain ⟨⟨d, _, rfl⟩, rfl⟩ := outcome_ofRender_error htext
      exact .unwritten log nofun hfolders
    obtain ⟨hrender, rfl⟩ := outcome_ofRender_ok.1 htext
    have hcollectionText : Document.collectionText made.cwd s.baseDir s.collectionName rs = .ok text :=
      Results.bind_eq_ok_iff.2 ⟨doc, hcollection, hrender⟩
    exact ending_of_writing hfolders hrequests.symm hcollectionText henvironment h

/-! ## Effects -/

/-- These are the selected scripts and their requests once the output folder is made; if the root is spelled without
double dots, then also before. -/
def Collected (s : Settings) (w : Workspace) (files : List Path) (rs : List Request) : Prop :=
  (∃ made, (ensureFolders s.outPath).outcome w = (.ok (), made) ∧ (collect s).Answers made (.ok (files, rs))) ∧
    (".." ∉ s.rootPath.parts → (collect s).Answers w (.ok (files, rs)))

theorem collected_of_gathered {s : Settings} {w made : Workspace} {files : List Path} {rs : List Request}
    (hplain : w.Plain) (hfolders : (ensureFolders s.outPath).outcome w = (.ok (), made))
    (hrequests : gathered made s = .ok (files, rs)) : Collected s w files rs := by
  have hmade := made_ensureFolders hplain.links hfolders
  obtain ⟨names, hdots, hgrowth⟩ := hmade.dug.growth
  refine ⟨⟨made, hfolders, hrequests ▸ collect_answers s made⟩, fun hroot => ?_⟩
  have hbefore := gathered_growth ⟨hmade.rest, hgrowth⟩ hplain.links hroot hplain.names hdots hrequests
  exact hbefore ▸ collect_answers s w

/-- The collection at its place is complete: its text is that of what is collected. -/
def Complete (s : Settings) (w w' : Workspace) : Prop :=
  ∃ files rs collection text, Collected s w files rs ∧
    Document.collection w.cwd s.baseDir s.collectionName rs = .ok collection ∧ collection.render = .ok text ∧
    w'.tree.get? (s.collectionPath.resolve w.cwd) = some (.file text.toUTF8.toList)

/-- The environment is as it was, and the collection is as it was or complete. -/
def Spared (s : Settings) (w w' : Workspace) : Prop :=
  Kept s.outPath w w' (s.environmentPath.resolve w.cwd) ∧
    (Kept s.outPath w w' (s.collectionPath.resolve w.cwd) ∨ Complete s w w')

/-- What a run from `w` with the answer `r` leaves behind in `w'`. -/
structure Effects (s : Settings) (exportedAt : Moment) (w : Workspace) (r : Except Failure Report) (w' : Workspace) :
    Prop where
  /-- The current directory and the level of the log stay. -/
  surroundings : w'.cwd = w.cwd ∧ w'.level = w.level
  /-- Folders are made for the output path, and the two documents are written. -/
  frame : ∀ q, Kept s.outPath w w' q ∨
    ((q = s.collectionPath.resolve w.cwd ∨ q = s.environmentPath.resolve w.cwd) ∧ Refilled w w' q)
  /-- A run that returns has written both documents. -/
  returned : ∀ report, r = .ok report → ∃ files rs collection text environment template, Collected s w files rs ∧
    Document.collection w.cwd s.baseDir s.collectionName rs = .ok collection ∧ collection.render = .ok text ∧
    Document.environment s.environmentName exportedAt = .ok environment ∧ environment.render = .ok template ∧
    w'.tree.get? (s.collectionPath.resolve w.cwd) = some (.file text.toUTF8.toList) ∧
    w'.tree.get? (s.environmentPath.resolve w.cwd) = some (.file template.toUTF8.toList)
  /-- A run that fails leaves the environment alone, and has written the whole collection or nothing of it, unless it
  fails because a text cannot be encoded. -/
  failed : ∀ e, r = .error e → (∀ d, e ≠ .encoding d) → Spared s w w'
  /-- A text that cannot be encoded leaves its file empty: that of the collection, before the environment is touched, or
  that of the environment, after the collection is complete. -/
  emptied : ∀ d, r = .error (.encoding d) →
    ((∃ files rs text, Collected s w files rs ∧
        Document.collectionText w.cwd s.baseDir s.collectionName rs = .ok text ∧ ¬ Text.Writable text) ∧
      w'.tree.get? (s.collectionPath.resolve w.cwd) = some (.file []) ∧
      Kept s.outPath w w' (s.environmentPath.resolve w.cwd) ∧
      (Spared s w w' ↔ w.tree.get? (s.collectionPath.resolve w.cwd) = some (.file []))) ∨
    (¬ Text.Writable s.environmentName ∧ Complete s w w' ∧
      w'.tree.get? (s.environmentPath.resolve w.cwd) = some (.file []) ∧
      (Spared s w w' ↔ w.tree.get? (s.environmentPath.resolve w.cwd) = some (.file [])))
  /-- If the folder cannot be made, the moment has no universal time or the collection cannot be rendered, neither is
  touched. -/
  early : (∃ e v, (ensureFolders s.outPath).outcome w = (.error e, v)) ∨ (∃ e, r = .error (.moment e)) ∨
    (∃ e, r = .error (.render e)) → Kept s.outPath w w' (s.collectionPath.resolve w.cwd) ∧
      Kept s.outPath w w' (s.environmentPath.resolve w.cwd)

/-- Where folders were made and nothing else was done, no document was touched. -/
theorem effects_of_made {s : Settings} {m : Moment} {w made : Workspace} {e : Failure} (he : ∀ d, e ≠ .encoding d)
    (hmade : w.Made s.outPath made) (log : List LogEntry) : Effects s m w (.error e) (made.withLog log) where
  surroundings := by
    rw [hmade.rest]
    exact ⟨rfl, rfl⟩
  frame q := .inl (hmade.dug.frame q)
  returned _ hr := by cases hr
  failed _ _ _ := ⟨hmade.dug.frame _, .inl (hmade.dug.frame _)⟩
  emptied d hr := by
    cases hr
    exact absurd rfl (he d)
  early _ := ⟨hmade.dug.frame _, hmade.dug.frame _⟩

omit [Syntax.Parser] in
/-- Once the folder is made, only an error of the moment or of rendering is early. -/
theorem not_early {s : Settings} {w made : Workspace} {r : Except Failure Report}
    (hfolders : (ensureFolders s.outPath).outcome w = (.ok (), made)) (hmoment : ∀ e, r ≠ .error (.moment e))
    (hrender : ∀ e, r ≠ .error (.render e)) :
    ¬ ((∃ e v, (ensureFolders s.outPath).outcome w = (.error e, v)) ∨ (∃ e, r = .error (.moment e)) ∨
      ∃ e, r = .error (.render e)) := by
  rintro (⟨e, v, herror⟩ | ⟨e, hr⟩ | ⟨e, hr⟩)
  · rw [hfolders] at herror
    cases herror
  · exact hmoment e hr
  · exact hrender e hr

section
variable {s : Settings} {m : Moment} {w made first last : Workspace} {files : List Path} {rs : List Request}
  {text template : String} {content : List UInt8} (hplain : w.Plain)
include hplain

omit [Syntax.Parser] in
/-- What stands where once the collection is opened: a file at its place, and everything else as it was made. -/
theorem places_first (hmade : w.Made s.outPath made) (hfile : made.write s.collectionPath content = .ok first) :
    (first.Plain ∧ first.cwd = w.cwd ∧ first.level = w.level) ∧
    (first.tree.get? (s.collectionPath.resolve w.cwd) = some (.file content) ∧
      Refilled w first (s.collectionPath.resolve w.cwd)) ∧
    ∀ q, q ≠ s.collectionPath.resolve w.cwd → Kept s.outPath w first q := by
  have hplain' := hplain.made hmade
  have hfiled := Workspace.filed_write hplain' hfile
  rw [hmade.cwd] at hfiled
  have hlevel : first.level = w.level := by rw [hfiled.rest, hmade.rest]
  have hkept : ∀ q, Kept s.outPath w made q := fun q => hmade.dug.frame q
  refine ⟨⟨hfiled.plain hplain', hfiled.cwd.trans hmade.cwd, hlevel⟩, ⟨hfiled.get?, (hkept _).refilled hfiled⟩, ?_⟩
  intro q hq
  exact (hkept q).filed hfiled hq

omit [Syntax.Parser] in
/-- What stands where once the environment is opened as well. -/
theorem places_last (hmade : w.Made s.outPath made)
    (hfile : made.write s.collectionPath text.toUTF8.toList = .ok first)
    (hfile' : first.write s.environmentPath content = .ok last) :
    (last.cwd = w.cwd ∧ last.level = w.level) ∧
    last.tree.get? (s.collectionPath.resolve w.cwd) = some (.file text.toUTF8.toList) ∧
    last.tree.get? (s.environmentPath.resolve w.cwd) = some (.file content) ∧
    ∀ q, Kept s.outPath w last q ∨
      ((q = s.collectionPath.resolve w.cwd ∨ q = s.environmentPath.resolve w.cwd) ∧ Refilled w last q) := by
  obtain ⟨⟨hfirst, hcwd, hlevel⟩, ⟨htext, hrefilled⟩, hkept⟩ := places_first hplain hmade hfile
  have hfiled := Workspace.filed_write hfirst hfile'
  rw [hcwd] at hfiled
  have hlevel' : last.level = first.level := by rw [hfiled.rest]
  have hne := s.places_ne w.cwd
  refine ⟨⟨hfiled.cwd.trans hcwd, hlevel'.trans hlevel⟩, ((hfiled.similar hne).file _).1 htext, hfiled.get?, ?_⟩
  intro q
  by_cases hq : q = s.environmentPath.resolve w.cwd
  · subst hq
    exact .inr ⟨.inr rfl, (hkept _ hne.symm).refilled hfiled⟩
  · by_cases hq' : q = s.collectionPath.resolve w.cwd
    · subst hq'
      exact .inr ⟨.inl rfl, hrefilled.filed hfiled hne⟩
    · exact .inl ((hkept q hq').filed hfiled hq)

/-- The collection is complete once its text is written. -/
theorem complete_of_text {w' : Workspace} (hfolders : (ensureFolders s.outPath).outcome w = (.ok (), made))
    (hrequests : gathered made s = .ok (files, rs))
    (hcollection : Document.collectionText made.cwd s.baseDir s.collectionName rs = .ok text)
    (htext : w'.tree.get? (s.collectionPath.resolve w.cwd) = some (.file text.toUTF8.toList)) : Complete s w w' := by
  rw [(made_ensureFolders hplain.links hfolders).cwd] at hcollection
  obtain ⟨doc, hdoc, hrender⟩ := Results.bind_eq_ok_iff.1 hcollection
  exact ⟨files, rs, doc, text, collected_of_gathered hplain hfolders hrequests, hdoc, hrender, htext⟩

/-- A run that could not write the environment has written the whole collection. -/
theorem effects_of_half (e : FileError) (hfolders : (ensureFolders s.outPath).outcome w = (.ok (), made))
    (hrequests : gathered made s = .ok (files, rs))
    (hcollection : Document.collectionText made.cwd s.baseDir s.collectionName rs = .ok text)
    (hfile : made.write s.collectionPath text.toUTF8.toList = .ok first) (log : List LogEntry) :
    Effects s m w (.error (.file e)) (first.withLog log) := by
  obtain ⟨⟨_, hcwd, hlevel⟩, ⟨htext, hrefilled⟩, hkept⟩ :=
    places_first hplain (made_ensureFolders hplain.links hfolders) hfile
  exact {
    surroundings := ⟨hcwd, hlevel⟩
    frame := by
      intro q
      by_cases hq : q = s.collectionPath.resolve w.cwd
      · exact .inr ⟨.inl hq, hq ▸ hrefilled⟩
      · exact .inl (hkept q hq)
    returned := by
      intro report hr
      cases hr
    failed := fun _ _ _ => ⟨hkept _ (s.places_ne w.cwd).symm,
      .inr (complete_of_text hplain hfolders hrequests hcollection htext)⟩
    emptied := by
      intro d hr
      cases hr
    early := fun h => absurd h (not_early hfolders nofun nofun) }

/-- A run whose collection cannot be encoded leaves it empty. -/
theorem effects_of_emptied (d : Text.EncodingError)
    (hfolders : (ensureFolders s.outPath).outcome w = (.ok (), made)) (hrequests : gathered made s = .ok (files, rs))
    (hcollection : Document.collectionText made.cwd s.baseDir s.collectionName rs = .ok text)
    (htext : ¬ Text.Writable text) (hfile : made.write s.collectionPath [] = .ok first) (log : List LogEntry) :
    Effects s m w (.error (.encoding d)) (first.withLog log) := by
  have hmade := made_ensureFolders hplain.links hfolders
  obtain ⟨⟨_, hcwd, hlevel⟩, ⟨hempty, hrefilled⟩, hkept⟩ := places_first hplain hmade hfile
  have henvironment := hkept _ (s.places_ne w.cwd).symm
  have hspared : Spared s w (first.withLog log) ↔
      w.tree.get? (s.collectionPath.resolve w.cwd) = some (.file []) := by
    rw [← kept_file_iff (p := s.outPath) hempty]
    constructor
    · rintro ⟨_, hsame | ⟨_, _, doc, text', _, _, hrender, htext'⟩⟩
      · exact hsame
      · -- a complete text is not empty
        have heq := htext'.symm.trans hempty
        rw [Option.some.injEq, Entry.file.injEq] at heq
        exact absurd heq (toUTF8_ne_nil_of_render hrender)
    · exact fun hsame => ⟨henvironment, .inl hsame⟩
  exact {
    surroundings := ⟨hcwd, hlevel⟩
    frame := by
      intro q
      by_cases hq : q = s.collectionPath.resolve w.cwd
      · exact .inr ⟨.inl hq, hq ▸ hrefilled⟩
      · exact .inl (hkept q hq)
    returned := by
      intro report hr
      cases hr
    failed := by
      intro e hr he
      cases hr
      exact absurd rfl (he d)
    emptied := fun _ _ => .inl ⟨⟨files, rs, text, collected_of_gathered hplain hfolders hrequests,
      hmade.cwd ▸ hcollection, htext⟩, hempty, henvironment, hspared⟩
    early := fun h => absurd h (not_early hfolders nofun nofun) }

/-- A run whose environment cannot be encoded leaves it empty, and the collection complete. -/
theorem effects_of_halfEmptied (d : Text.EncodingError)
    (hfolders : (ensureFolders s.outPath).outcome w = (.ok (), made)) (hrequests : gathered made s = .ok (files, rs))
    (hcollection : Document.collectionText made.cwd s.baseDir s.collectionName rs = .ok text)
    (hname : ¬ Text.Writable s.environmentName)
    (hfile : made.write s.collectionPath text.toUTF8.toList = .ok first)
    (hfile' : first.write s.environmentPath [] = .ok last) (log : List LogEntry) :
    Effects s m w (.error (.encoding d)) (last.withLog log) := by
  obtain ⟨⟨hcwd, hlevel⟩, htext, hempty, hframe⟩ :=
    places_last hplain (made_ensureFolders hplain.links hfolders) hfile hfile'
  have hcomplete : Complete s w (last.withLog log) := complete_of_text hplain hfolders hrequests hcollection htext
  have hspared : Spared s w (last.withLog log) ↔
      w.tree.get? (s.environmentPath.resolve w.cwd) = some (.file []) := by
    rw [← kept_file_iff (p := s.outPath) hempty]
    exact ⟨fun h => h.1, fun h => ⟨h, .inr hcomplete⟩⟩
  exact {
    surroundings := ⟨hcwd, hlevel⟩
    frame := hframe
    returned := by
      intro report hr
      cases hr
    failed := by
      intro e hr he
      cases hr
      exact absurd rfl (he d)
    emptied := fun _ _ => .inr ⟨hname, hcomplete, hempty, hspared⟩
    early := fun h => absurd h (not_early hfolders nofun nofun) }

/-- A run that returns has written both documents. -/
theorem effects_of_course (c : Course s m w made files rs text template first last) (log : List LogEntry) :
    Effects s m w (.ok (reportOf s files rs)) (last.withLog log) := by
  have hmade := made_ensureFolders hplain.links c.folders
  obtain ⟨⟨hcwd, hlevel⟩, htext, htemplate, hframe⟩ := places_last hplain hmade c.collectionFile c.environmentFile
  have hcollection := c.collection
  rw [hmade.cwd] at hcollection
  obtain ⟨doc, hdoc, hrender⟩ := Results.bind_eq_ok_iff.1 hcollection
  obtain ⟨env, henv, hrender'⟩ := c.environment
  exact {
    surroundings := ⟨hcwd, hlevel⟩
    frame := hframe
    returned := fun _ _ => ⟨files, rs, doc, text, env, template,
      collected_of_gathered hplain c.folders c.requests, hdoc, hrender, henv, hrender', htext, htemplate⟩
    failed := by
      intro e hr
      cases hr
    emptied := by
      intro d hr
      cases hr
    early := fun h => absurd h (not_early c.folders nofun nofun) }

end

/-- **What a run may touch**, whether it returns or fails, in a tree without links. -/
theorem run_effects (s : Settings) (m : Moment) (w w' : Workspace) (r : Except Failure Report) (hplain : w.Plain)
    (h : (run s m).outcome w = (r, w')) : Effects s m w r w' := by
  cases ending_of_run h with
  | unmade hfolders => exact effects_of_made (fun _ h => by cases h) (made_ensureFolders hplain.links hfolders) _
  | unwritten log reason hfolders => exact effects_of_made reason (made_ensureFolders hplain.links hfolders) log
  | emptied d log hfolders hrequests hcollection htext hfile =>
    exact effects_of_emptied hplain d hfolders hrequests hcollection htext hfile log
  | half e log hfolders hrequests hcollection hfile =>
    exact effects_of_half hplain e hfolders hrequests hcollection hfile log
  | halfEmptied d log hfolders hrequests hcollection hname hfile hfile' =>
    exact effects_of_halfEmptied hplain d hfolders hrequests hcollection hname hfile hfile' log
  | done log c => exact effects_of_course hplain c log

/-! ## Runs that fail -/

/-- Where a folder stands in the place of the environment, no run returns. -/
theorem not_returns_of_folder {s : Settings} {w : Workspace} {q : List String} {es : Folder} (hplain : w.Plain)
    (h : w.locate true s.environmentPath = .ok (.found q (.folder es))) (m : Moment) :
    ¬ ∃ report w', (run s m).outcome w = (.ok report, w') := by
  rintro ⟨report, w', hrun⟩
  obtain ⟨made, files, rs, text, template, first, last, log, c, _⟩ := course_of_run hrun
  have hmade := made_ensureFolders hplain.links c.folders
  have hfiled := Workspace.filed_write (hplain.made hmade) c.collectionFile
  -- the folder is still there when the environment is to be written
  have hkeeps := hmade.dug.keeps.trans hfiled.keeps
  obtain ⟨es', hes'⟩ := hkeeps.folders q ⟨es, walk_found (Workspace.locate_ok_iff.1 h).2.2⟩
  have hfound := Workspace.locate_keeps hkeeps (hfiled.cwd.trans hmade.cwd) h hes' (by simp)
  obtain ⟨t, hl, ht, _⟩ := Workspace.write_ok_iff.1 c.environmentFile
  rw [hfound] at hl
  cases hl
  exact ht

/-- A run whose collection cannot be encoded fails, and leaves its file empty. -/
theorem run_emptied {s : Settings} {m : Moment} {w made first : Workspace} {files : List Path} {rs : List Request}
    {text : String} {env : Value} (hfolders : (ensureFolders s.outPath).outcome w = (.ok (), made))
    (hrequests : gathered made s = .ok (files, rs))
    (hcollection : Document.collectionText made.cwd s.baseDir s.collectionName rs = .ok text)
    (henvironment : Document.environment s.environmentName m = .ok env) (htext : ¬ Text.Writable text)
    (hfile : made.write s.collectionPath [] = .ok first) :
    ∃ d log, (run s m).outcome w = (.error (.encoding d), first.withLog log) := by
  obtain ⟨log, hcollect⟩ := collect_answers s made made.log
  rw [hrequests] at hcollect
  obtain ⟨doc, hdoc, hrender⟩ := Results.bind_eq_ok_iff.1 hcollection
  obtain ⟨d, hencode⟩ := Text.exists_encode_error htext
  refine ⟨d, log, ?_⟩
  refine (outcome_bind_of_ok hfolders).trans ?_
  refine (outcome_bind_of_ok hcollect).trans ?_
  refine (outcome_bind_of_ok (outcome_get _)).trans ?_
  refine (outcome_bind_of_ok (outcome_ofRender_ok.2 ⟨hdoc, rfl⟩)).trans ?_
  refine (outcome_bind_of_ok (outcome_ofMoment_ok.2 ⟨henvironment, rfl⟩)).trans ?_
  refine (outcome_bind_of_ok (outcome_ofRender_ok.2 ⟨hrender, rfl⟩)).trans ?_
  refine outcome_bind_of_error ?_
  rw [writeText, hencode]
  exact outcome_bind_of_ok (outcome_writeBytes.2 ⟨first, hfile, rfl⟩)

end

section
attribute [local instance] Surrogates.unassigned Syntax.Parser.javascript

/-- The workspace with two scripts in which a folder has the place of the environment. -/
def occupied : Workspace := numberedFolder [("a.js", .file getAndPost), ("b.js", .file getOnly),
  ("out", .folder [("postman_environment.template.json", .folder [])])]

theorem plain_occupied : occupied.Plain where
  links := linkFree_of_everywhere rfl
  names := allNames_of_everywhere (by decide)
  cwd := hasFolder_nil _

/-- A run among two scripts returns; where a folder stands in the place of the environment it fails. -/
theorem run_effects_twoScripts : (twoScripts getAndPost getOnly).Plain ∧ occupied.Plain ∧
    (∃ report w', (run nested newYear).outcome (twoScripts getAndPost getOnly) = (.ok report, w') ∧
      Effects nested newYear (twoScripts getAndPost getOnly) (.ok report) w') ∧
    ∃ e w', (run nested newYear).outcome occupied = (.error e, w') ∧
      Effects nested newYear occupied (.error e) w' := by
  have hplain := plain_twoScripts getAndPost getOnly
  obtain ⟨files, rs, text, template, first, last, hcourse⟩ := course_twoScripts sendable_requestsIn
  obtain ⟨log, hrun⟩ := hcourse.run
  refine ⟨hplain, plain_occupied, ⟨_, _, hrun, run_effects _ _ _ _ _ hplain hrun⟩, ?_⟩
  have hfolder : occupied.locate true nested.environmentPath =
      .ok (.found ["tools", "1_x", "out", "postman_environment.template.json"] (.folder [])) :=
    (Workspace.locate_found_iff plain_occupied.links (by decide)).2 ⟨by decide, rfl, rfl⟩
  have hfails := not_returns_of_folder plain_occupied hfolder newYear
  rcases hout : (run nested newYear).outcome occupied with ⟨e | report, w'⟩
  · exact ⟨e, w', rfl, run_effects _ _ _ _ _ plain_occupied hout⟩
  · exact absurd ⟨report, w', hout⟩ hfails

/-! ## A name that cannot be encoded -/

/-- A workspace without scripts in which a collection stands already. -/
def earlier : Workspace where
  cwd := []
  tree := [("out", .folder [("postman_collection.json", .file [0x7b, 0x7d])])]

/-- Settings by which the collection has the name of a surrogate. -/
def surrogateName : Settings :=
  { Settings.default ⟨.root, []⟩ with
    outDir := ⟨.relative, ["out"]⟩
    collectionName := String.singleton (Surrogates.stand 0xd800) }

theorem plain_earlier : earlier.Plain where
  links := linkFree_of_everywhere rfl
  names := allNames_of_everywhere (by decide)
  cwd := hasFolder_nil _

/-- Whether a run returns or fails, an earlier collection is lost if the new one cannot be encoded. -/
theorem run_empties_earlier : ¬ ∀ (s : Settings) (m : Moment) (w w' : Workspace) (e : Failure), w.Plain →
    (run s m).outcome w = (.error e, w') → Spared s w w' := by
  intro h
  have hout : earlier.locate true surrogateName.outPath = .ok (.found ["out"] (.folder _)) :=
    (Workspace.locate_found_iff plain_earlier.links (by decide)).2 ⟨by decide, rfl, rfl⟩
  have hfolders := outcome_ensureFolders_found plain_earlier.links hout
  have hgathered : gathered earlier surrogateName = .ok ([], []) := by
    have hnone : earlier.folder? surrogateName.rootPath = .ok none := by
      rw [Workspace.folder?, Workspace.locate_free (p := surrogateName.rootPath) plain_earlier.links (by decide) rfl
        (by decide) (hasFolder_nil _) rfl]
    exact gathered_of_selected (Selection.selected_ok_iff.2 (.inl ⟨hnone, rfl⟩)) (by simp)
  have hnone : ∀ r ∈ ([] : List Request), r.body.hasLong = false := by simp
  have hcollection := Document.collectionText_eq earlier.cwd surrogateName.baseDir surrogateName.collectionName hnone
  obtain ⟨env, _, henvironment, _⟩ := Document.environment_of_utc surrogateName.environmentName dated_newYear.utc_eq
  have hname : ¬ Text.Writable surrogateName.collectionName := by decide
  have htext := mt (fun hwritable => ((Document.writable_collectionText hcollection).1 hwritable).1) hname
  have hfile : earlier.locate true surrogateName.collectionPath =
      .ok (.found ["out", "postman_collection.json"] (.file [0x7b, 0x7d])) :=
    (Workspace.locate_found_iff plain_earlier.links (by decide)).2 ⟨by decide, rfl, rfl⟩
  obtain ⟨d, log, hrun⟩ := run_emptied hfolders hgathered hcollection henvironment htext
    (Workspace.write_ok_iff.2 ⟨_, hfile, trivial, rfl⟩)
  have hspared := h _ _ _ _ _ plain_earlier hrun
  rcases (run_effects _ _ _ _ _ plain_earlier hrun).emptied d rfl with ⟨_, _, _, hiff⟩ | ⟨henv, _⟩
  · have hold := hiff.1 hspared
    cases hold
  · exact henv (by decide)

end

end RequestAtlas.Generation
