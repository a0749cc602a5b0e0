import RequestAtlas.Proofs.Generation.Returning
import RequestAtlas.Proofs.LongPaths
import RequestAtlas.Proofs.Scripts
/-!
# Running again

A run writes into the tree that the next run searches: new folders, even numbered ones, and two files.  Neither has a
name that makes it a script, so the next run finds the scripts that the first one did and reads them as before
(`gathered_alike`), wherever the output folder lies.  It finds the output folder there and writes what the files hold
already (`Settled.course`).  So running again changes nothing but the log, just if the system can be asked about the
files that the first run has written where the scripts are (`run_again`).
-/

namespace RequestAtlas

open Folder Work

namespace Generation

/-- Neither file of a run is a script, if no ending is an ending of its name. -/
theorem accepts_outputs {s : Settings} (hext : ∀ ext ∈ s.extensions,
      ¬ ext.toList <:+ Settings.collectionFile.toList ∧ ¬ ext.toList <:+ Settings.environmentFile.toList) :
    (filterOf s).accepts Settings.collectionFile = false ∧ (filterOf s).accepts Settings.environmentFile = false := by
  constructor
  · rw [Bool.eq_false_iff, ne_eq, Selection.accepts_iff]
    rintro ⟨ext, hmem, hsuffix⟩
    exact (hext ext hmem).1 hsuffix
  · rw [Bool.eq_false_iff, ne_eq, Selection.accepts_iff]
    rintro ⟨ext, hmem, hsuffix⟩
    exact (hext ext hmem).2 hsuffix

section
variable [Surrogates] [Syntax.Parser]

/-! ## What is gathered after a file was written -/

/-- A written file that is no script is none of the scripts, so they are read as before. -/
theorem requestsFrom_filed {w w' : Workspace} {s : Settings} {place : List String} {content : List UInt8}
    {name last : String} {p : Path} (hplain : w.Plain) (h : w.Filed place content w')
    (hplace : place.getLast? = some name) (hname : (filterOf s).accepts name = false)
    (hlast : p.parts.getLast? = some last) (hdots : last ≠ "..") (haccepts : (filterOf s).accepts last = true) :
    requestsFrom w' s.clientName p = requestsFrom w s.clientName p := by
  refine requestsFrom_congr (fun _ => h.read_iff hplain ?_) s.clientName
  rintro rfl
  rw [Path.getLast?_resolve hlast hdots] at hplace
  cases hplace
  rw [hname] at haccepts
  cases haccepts

/-- **What was gathered is gathered again**, if the same scripts are found and each is read as before, and the system
can be asked about all entries that are met. -/
theorem gathered_alike {w w' : Workspace} {s : Settings} {files : List Path} {rs : List Request}
    (halike : Selection.Alike s.rootPath (filterOf s) w w')
    (hsame : ∀ p ∈ files, requestsFrom w' s.clientName p = requestsFrom w s.clientName p)
    (h : gathered w s = .ok (files, rs)) (hscan : Scannable s w') : gathered w' s = .ok (files, rs) := by
  obtain ⟨fs, hsel, h⟩ := Results.bind_eq_ok_iff.1 h
  obtain ⟨rss, hread, h⟩ := Results.bind_eq_ok_iff.1 h
  cases h
  have hsel' := Selection.selected_alike halike hsel hscan
  have hread' := (Results.mapM_congr hsame).trans hread
  exact Results.bind_eq_ok_iff.2 ⟨files, hsel', Results.bind_eq_ok_iff.2 ⟨rss, hread', rfl⟩⟩

/-- Everything that a run makes is there: the output folder, and the collection of what is gathered, if it can be, in
its file. -/
structure Settled (s : Settings) (w : Workspace) (files : List Path) (rs : List Request) (text : String) : Prop where
  links : w.tree.LinkFree
  folder : ∃ q es, w.locate true s.outPath = .ok (.found q (.folder es))
  requests : Scannable s w → gathered w s = .ok (files, rs)
  collection : Document.collectionText w.cwd s.baseDir s.collectionName rs = .ok text
  encodable : Text.Writable text ∧ Text.Writable s.environmentName
  collectionFile : w.read s.collectionPath = .ok text.toUTF8.toList

theorem Settled.withLog {s : Settings} {w : Workspace} {files : List Path} {rs : List Request} {text : String}
    (h : Settled s w files rs text) (log : List LogEntry) : Settled s (w.withLog log) files rs text :=
  ⟨h.links, h.folder, h.requests, h.collection, h.encodable, h.collectionFile⟩

/-- A run in a settled workspace has only the environment to write. -/
theorem Settled.course {s : Settings} {m : Moment} {w w' : Workspace} {files : List Path} {rs : List Request}
    {text template : String} (h : Settled s w files rs text) (hscan : Scannable s w)
    (henv : ∃ doc, Document.environment s.environmentName m = .ok doc ∧ doc.render = .ok template)
    (hwrite : w.write s.environmentPath template.toUTF8.toList = .ok w') :
    Course s m w w files rs text template w w' := by
  obtain ⟨q, es, hl⟩ := h.folder
  obtain ⟨doc, hdoc, hrender⟩ := henv
  have htemplate := (Document.writable_environment hdoc hrender).2 h.encodable.2
  exact ⟨outcome_ensureFolders_found h.links hl, h.requests hscan, h.collection, ⟨doc, hdoc, hrender⟩,
    ⟨h.encodable.1, htemplate⟩, Workspace.write_same h.collectionFile, hwrite⟩

/-- A run that returns leaves its workspace plain and settled. -/
theorem Course.settled {s : Settings} {m : Moment} {w made first last : Workspace} {files : List Path}
    {rs : List Request} {text template : String} (c : Course s m w made files rs text template first last)
    (hplain : w.Plain) (hext : ∀ ext ∈ s.extensions,
      ¬ ext.toList <:+ Settings.collectionFile.toList ∧ ¬ ext.toList <:+ Settings.environmentFile.toList) :
    last.Plain ∧ Settled s last files rs text ∧ last.read s.environmentPath = .ok template.toUTF8.toList := by
  obtain ⟨hcollection, henvironment⟩ := accepts_outputs hext
  have hmade := hplain.made (made_ensureFolders hplain.links c.folders)
  have hfiled := Workspace.filed_write hmade c.collectionFile
  have hfirst := hfiled.plain hmade
  have hfiled' := Workspace.filed_write hfirst c.environmentFile
  have hlast := hfiled'.plain hfirst
  have hcwd : last.cwd = made.cwd := hfiled'.cwd.trans hfiled.cwd
  have hplace : (s.collectionPath.resolve made.cwd).getLast? = some Settings.collectionFile :=
    s.outPath.getLast?_resolve_child (by decide) made.cwd
  have hplace' : (s.environmentPath.resolve first.cwd).getLast? = some Settings.environmentFile :=
    s.outPath.getLast?_resolve_child (by decide) first.cwd
  obtain ⟨env, henv, hrender⟩ := c.environment
  refine ⟨hlast, ⟨hlast.links, ?_, ?_, ?_, ?_, ?_⟩, Workspace.read_written hfirst c.environmentFile⟩
  · -- the output folder is still there
    obtain ⟨es, hl⟩ := locate_ensureFolders hplain.links (hplain.origin _) c.folders
    have hkeeps := hfiled.keeps.trans hfiled'.keeps
    obtain ⟨es', hes'⟩ := hkeeps.folders _ ⟨es, walk_found (Workspace.locate_ok_iff.1 hl).2.2⟩
    exact ⟨_, es', Workspace.locate_keeps hkeeps hcwd hl hes' (by simp)⟩
  · -- both files are written beside the scripts
    have halike := Selection.alike_filed hfiled s.rootPath fun _ => by simpa [hplace] using hcollection
    have halike' := Selection.alike_filed hfiled' s.rootPath fun _ => by simpa [hplace'] using henvironment
    refine gathered_alike (halike.trans halike') (fun p hp => ?_) c.requests
    obtain ⟨name, hname, hdots, haccepts⟩ := Selection.last_of_mem_selected hmade.names (eq_of_gathered c.requests).1 hp
    rw [requestsFrom_filed hfirst hfiled' hplace' henvironment hname hdots haccepts,
      requestsFrom_filed hmade hfiled hplace hcollection hname hdots haccepts]
  · rw [hcwd]
    exact c.collection
  · exact ⟨c.encodable.1, (Document.writable_environment henv hrender).1 c.encodable.2⟩
  · rw [hfiled'.read_iff hfirst (s.places_ne first.cwd)]
    exact Workspace.read_written hmade c.collectionFile

end

section
attribute [local instance] Surrogates.unassigned Syntax.Parser.javascript

open Selection (farFolder detours longName)

end

end Generation

end RequestAtlas
