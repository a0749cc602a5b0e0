import RequestAtlas.Generation
import RequestAtlas.Proofs.Document.Items
import RequestAtlas.Proofs.Selected
import RequestAtlas.Proofs.Workspace.Writing
/-!
# What a run gathers and writes

`Generation.gathered` is what collecting requests answers, without the log (`collect_answers`).  Empty folders that
are added do not change it (`gathered_growth`).  A run answers exactly if it can take its `Course`: the output folder
is made, requests are gathered, both documents are written as texts, and both files are written.
-/

namespace RequestAtlas.Generation

open Folder Work

variable [Surrogates] [Syntax.Parser]

/-- The requests of a script; one that cannot be read has none. -/
def requestsOf (w : Workspace) (client : String) (path : Path) : List Request :=
  match w.read path with
  | .error _ => []
  | .ok bytes =>
    match Syntax.readBytes bytes with
    | .error _ => []
    | .ok program => Request.extract client path program

/-- What a script with these bytes requests. -/
def requestsIn (client : String) (p : Path) (bytes : List UInt8) : List Request :=
  (Syntax.readBytes bytes).toOption.elim [] (Request.extract client p)

theorem requestsOf_of_read {w : Workspace} {p : Path} {bytes : List UInt8} (h : w.read p = .ok bytes)
    (client : String) : requestsOf w client p = requestsIn client p bytes := by
  rw [requestsOf, h, requestsIn]
  dsimp only
  cases Syntax.readBytes bytes <;> rfl

/-- What extracting the requests of a script answers. -/
def requestsFrom (w : Workspace) (client : String) (path : Path) : Except Failure (List Request) :=
  match w.read path with
  | .error (.invalid f) => .error (.file (.invalid f))
  | _ => .ok (requestsOf w client path)

/-- Which names scripts have and which are left out, by the settings. -/
def filterOf (s : Settings) : Selection.Filter := ⟨s.extensions, s.skipDirs⟩

/-- The system can be asked about every entry that is met in search of scripts. -/
def Scannable (s : Settings) (w : Workspace) : Prop :=
  ∀ es, w.folder? s.rootPath = .ok (some es) → Selection.Fits s.rootPath (filterOf s) es

/-- What collecting requests answers. -/
def gathered (w : Workspace) (s : Settings) : Except Failure (List Path × List Request) := do
  let files ← Selection.selected w s.rootPath (filterOf s)
  let requests ← files.mapM (requestsFrom w s.clientName)
  return (files, requests.flatten)

theorem extractFile_answers (client : String) (path : Path) (w : Workspace) :
    (extractFile client path).Answers w (requestsFrom w client path) := by
  refine answers_get_bind fun log => ?_
  have hread : (w.withLog log).read path = w.read path := rfl
  rw [hread, requestsFrom, requestsOf]
  cases w.read path with
  | error e =>
    cases e with
    | invalid f => exact answers_refuse _ w
    | fault f p => exact answers_note_bind (answers_pure [] w)
  | ok bytes =>
    cases hsource : Syntax.readBytes bytes with
    | error e =>
      simp only [hsource]
      exact answers_note_bind (answers_pure [] w)
    | ok program =>
      simp only [hsource]
      exact answers_note_bind (answers_pure _ w)

/-- Collecting answers what is gathered and changes nothing but the log. -/
theorem collect_answers (s : Settings) (w : Workspace) : (collect s).Answers w (gathered w s) := by
  refine (Selection.select_answers s.rootPath (filterOf s) w).bind_any fun files => ?_
  refine answers_note_bind ?_
  refine (answers_mapM (fun p => extractFile_answers s.clientName p w) files).bind_any fun requests => ?_
  exact answers_pure (files, requests.flatten) w

/-! ## When requests can be gathered -/

theorem requestsFrom_eq {w : Workspace} {client : String} {p : Path} (h : p.fault? = none) :
    requestsFrom w client p = .ok (requestsOf w client p) := by
  unfold requestsFrom
  split
  · rename_i hread
    rw [Workspace.read_invalid_iff, h] at hread
    cases hread
  · rfl

theorem requestsFrom_invalid {w : Workspace} {client : String} {p : Path} {f : PathFault} (h : p.fault? = some f) :
    requestsFrom w client p = .error (.file (.invalid f)) := by
  rw [requestsFrom, Workspace.read_invalid_iff.2 h]

theorem eq_requestsOf {w : Workspace} {client : String} {p : Path} {rs : List Request}
    (h : requestsFrom w client p = .ok rs) : requestsOf w client p = rs := by
  unfold requestsFrom at h
  split at h
  · cases h
  · cases h
    rfl

/-- Where a script is read as in another workspace, it has the same requests. -/
theorem requestsOf_congr {w w' : Workspace} {p : Path} (h : ∀ c, w'.read p = .ok c ↔ w.read p = .ok c)
    (client : String) : requestsOf w' client p = requestsOf w client p := by
  cases hread : w.read p with
  | ok content => rw [requestsOf, requestsOf, hread, (h content).2 hread]
  | error e =>
    cases hread' : w'.read p with
    | ok content =>
      rw [(h content).1 hread'] at hread
      cases hread
    | error e' => rw [requestsOf, requestsOf, hread, hread']

theorem requestsFrom_congr {w w' : Workspace} {p : Path} (h : ∀ c, w'.read p = .ok c ↔ w.read p = .ok c)
    (client : String) : requestsFrom w' client p = requestsFrom w client p := by
  cases hfault : p.fault? with
  | some f => rw [requestsFrom_invalid hfault, requestsFrom_invalid hfault]
  | none => rw [requestsFrom_eq hfault, requestsFrom_eq hfault, requestsOf_congr h]

/-- What is gathered: the selected scripts, and their requests one after the other. -/
theorem eq_of_gathered {w : Workspace} {s : Settings} {files : List Path} {rs : List Request}
    (h : gathered w s = .ok (files, rs)) : Selection.selected w s.rootPath (filterOf s) = .ok files ∧
      rs = files.flatMap (requestsOf w s.clientName) := by
  obtain ⟨fs, hsel, h⟩ := Results.bind_eq_ok_iff.1 h
  obtain ⟨rss, hreq, h⟩ := Results.bind_eq_ok_iff.1 h
  cases h
  refine ⟨hsel, ?_⟩
  have hall := (Results.mapM_eq_ok_iff.1 hreq).imp fun _ _ hp => eq_requestsOf hp
  rw [← List.forall₂_map_left_iff, List.forall₂_eq_eq_eq] at hall
  rw [List.flatMap_def, hall]

theorem gathered_of_selected {w : Workspace} {s : Settings} {files : List Path}
    (h : Selection.selected w s.rootPath (filterOf s) = .ok files) (hfault : ∀ p ∈ files, p.fault? = none) :
    gathered w s = .ok (files, files.flatMap (requestsOf w s.clientName)) := by
  have hreq : files.mapM (requestsFrom w s.clientName) = .ok (files.map (requestsOf w s.clientName)) :=
    Results.mapM_eq_ok_map fun p hp => requestsFrom_eq (hfault p hp)
  exact Results.bind_eq_ok_iff.2 ⟨files, h, Results.bind_eq_ok_iff.2 ⟨_, hreq, by rw [List.flatMap_def]; rfl⟩⟩

/-! ## Folders that are added -/

section
variable {w : Workspace} {s : Settings} (hlinks : w.tree.LinkFree) (hroot : ".." ∉ s.rootPath.parts)
  (hnames : AllNames (· ≠ "..") w.tree)
include hlinks

theorem requestsFrom_grown {name : String} {tree' : Folder} (h : Grown name w.tree tree') {p : Path}
    (hp : ".." ∉ p.parts) (client : String) :
    requestsFrom { w with tree := tree' } client p = requestsFrom w client p :=
  requestsFrom_congr (fun _ => Workspace.read_grown hlinks hp h) client

include hroot hnames

/-- What is gathered after a folder was added was there to be gathered before. -/
theorem gathered_grown {name : String} {tree' : Folder} (h : Grown name w.tree tree')
    {x : List Path × List Request} (hx : gathered { w with tree := tree' } s = .ok x) : gathered w s = .ok x := by
  obtain ⟨files, hsel, hrest⟩ := Results.bind_eq_ok_iff.1 hx
  obtain ⟨rss, hreq, heq⟩ := Results.bind_eq_ok_iff.1 hrest
  have hsel' := Selection.selected_grown hlinks hroot h hsel
  refine Results.bind_eq_ok_iff.2 ⟨files, hsel', Results.bind_eq_ok_iff.2 ⟨rss, ?_, heq⟩⟩
  have hsame : ∀ p ∈ files, requestsFrom { w with tree := tree' } s.clientName p = requestsFrom w s.clientName p := by
    intro p hp
    obtain ⟨names, rfl, hdots⟩ := Selection.names_of_mem_selected hnames hsel' hp
    apply requestsFrom_grown hlinks h
    rw [List.mem_append, not_or]
    exact ⟨hroot, fun hmem => hdots ".." hmem rfl⟩
  rw [← hreq]
  exact Results.mapM_congr fun p hp => (hsame p hp).symm

end

/-- **Folders that are added do not change what is gathered.** -/
theorem gathered_growth {w w' : Workspace} {s : Settings} {names : List String} (h : w.Grew names w')
    (hlinks : w.tree.LinkFree) (hroot : ".." ∉ s.rootPath.parts) (hnames : AllNames (· ≠ "..") w.tree)
    (hnew : ".." ∉ names) {x : List Path × List Request} (hx : gathered w' s = .ok x) : gathered w s = .ok x := by
  obtain ⟨heq, hgrowth⟩ := h
  rw [heq] at hx
  generalize w'.tree = tree' at hgrowth hx
  clear heq
  induction hgrowth with
  | refl => exact hx
  | @tail tree₁ tree₂ hsteps hstep ih =>
    obtain ⟨name, _, hgrown⟩ := hstep
    have hall := Growth.allNames hsteps (P := (· ≠ "..")) (fun n hn hdots => hnew (hdots ▸ hn)) hnames
    exact ih (gathered_grown (w := { w with tree := tree₁ }) (Growth.linkFree hsteps hlinks) hroot hall hgrown hx)

/-! ## The course of a run -/

/-- What a run of this many files and requests reports. -/
def reportOf (s : Settings) (files : List Path) (rs : List Request) : Report where
  rootDir := s.rootPath
  fileCount := files.length
  requestCount := rs.length
  collectionPath := s.collectionPath
  environmentPath := s.environmentPath

/-- The steps of a run that answers: `made` is the workspace with the output folder, `first` with the collection in
it and `last` with the environment too. -/
structure Course (s : Settings) (exportedAt : Moment) (w made : Workspace) (files : List Path) (rs : List Request)
    (text template : String) (first last : Workspace) : Prop where
  folders : (ensureFolders s.outPath).outcome w = (.ok (), made)
  requests : gathered made s = .ok (files, rs)
  collection : Document.collectionText made.cwd s.baseDir s.collectionName rs = .ok text
  environment : ∃ doc, Document.environment s.environmentName exportedAt = .ok doc ∧ doc.render = .ok template
  encodable : Text.Writable text ∧ Text.Writable template
  collectionFile : made.write s.collectionPath text.toUTF8.toList = .ok first
  environmentFile : first.write s.environmentPath template.toUTF8.toList = .ok last

/-- A run that answers takes this course. -/
theorem course_of_run {s : Settings} {exportedAt : Moment} {w w' : Workspace} {report : Report}
    (h : (run s exportedAt).outcome w = (.ok report, w')) :
    ∃ made files rs text template first last log, Course s exportedAt w made files rs text template first last ∧
      report = reportOf s files rs ∧ w' = last.withLog log := by
  obtain ⟨_, made, hfolders, h⟩ := outcome_bind_ok.1 h
  obtain ⟨⟨files, rs⟩, _, hcollect, h⟩ := outcome_bind_ok.1 h
  obtain ⟨log, hlog⟩ := collect_answers s made made.log
  obtain ⟨hrequests, rfl⟩ := Prod.mk.inj (hcollect.symm.trans hlog)
  obtain ⟨_, _, hget, h⟩ := outcome_bind_ok.1 h
  cases hget
  obtain ⟨doc, _, hdoc, h⟩ := outcome_bind_ok.1 h
  obtain ⟨hcollection, rfl⟩ := outcome_ofRender_ok.1 hdoc
  obtain ⟨env, _, henv, h⟩ := outcome_bind_ok.1 h
  obtain ⟨henvironment, rfl⟩ := outcome_ofMoment_ok.1 henv
  obtain ⟨text, _, htext, h⟩ := outcome_bind_ok.1 h
  obtain ⟨hrender, rfl⟩ := outcome_ofRender_ok.1 htext
  obtain ⟨_, _, hfile, h⟩ := outcome_bind_ok.1 h
  obtain ⟨hwritable, first, hfirst, rfl⟩ := outcome_writeText.1 hfile
  obtain ⟨template, _, htemplate, h⟩ := outcome_bind_ok.1 h
  obtain ⟨hrender', rfl⟩ := outcome_ofRender_ok.1 htemplate
  obtain ⟨_, _, hfile', h⟩ := outcome_bind_ok.1 h
  obtain ⟨hwritable', last, hlast, rfl⟩ := outcome_writeText.1 hfile'
  obtain ⟨_, _, hnote, h⟩ := outcome_bind_ok.1 h
  obtain ⟨log', hlog'⟩ := answers_note Log.info runLogger
    ("Wrote " ++ toString rs.length ++ " requests to " ++ s.collectionPath.text) last log
  obtain ⟨_, rfl⟩ := Prod.mk.inj (hnote.symm.trans hlog')
  cases h
  refine ⟨made, files, rs, text, template, first, last, log', ?_, rfl, rfl⟩
  exact {
    folders := hfolders
    requests := hrequests.symm
    collection := Results.bind_eq_ok_iff.2 ⟨doc, hcollection, hrender⟩
    environment := ⟨env, henvironment, hrender'⟩
    encodable := ⟨hwritable, hwritable'⟩
    collectionFile := hfirst
    environmentFile := hlast }

/-- A run that can take this course answers. -/
theorem Course.run {s : Settings} {exportedAt : Moment} {w made first last : Workspace} {files : List Path}
    {rs : List Request} {text template : String}
    (c : Course s exportedAt w made files rs text template first last) :
    ∃ log, (Generation.run s exportedAt).outcome w = (.ok (reportOf s files rs), last.withLog log) := by
  obtain ⟨log, hcollect⟩ := collect_answers s made made.log
  rw [c.requests] at hcollect
  obtain ⟨doc, hcollection, hrender⟩ := Results.bind_eq_ok_iff.1 c.collection
  obtain ⟨env, henvironment, hrender'⟩ := c.environment
  obtain ⟨log', hnote⟩ := answers_note Log.info runLogger
    ("Wrote " ++ toString rs.length ++ " requests to " ++ s.collectionPath.text) last log
  refine ⟨log', ?_⟩
  refine outcome_bind_ok.2 ⟨_, made, c.folders, ?_⟩
  refine outcome_bind_ok.2 ⟨_, _, hcollect, ?_⟩
  refine outcome_bind_ok.2 ⟨_, _, outcome_get _, ?_⟩
  refine outcome_bind_ok.2 ⟨doc, _, outcome_ofRender_ok.2 ⟨hcollection, rfl⟩, ?_⟩
  refine outcome_bind_ok.2 ⟨env, _, outcome_ofMoment_ok.2 ⟨henvironment, rfl⟩, ?_⟩
  refine outcome_bind_ok.2 ⟨text, _, outcome_ofRender_ok.2 ⟨hrender, rfl⟩, ?_⟩
  refine outcome_bind_ok.2 ⟨_, _, outcome_writeText.2 ⟨c.encodable.1, first, c.collectionFile, rfl⟩, ?_⟩
  refine outcome_bind_ok.2 ⟨template, _, outcome_ofRender_ok.2 ⟨hrender', rfl⟩, ?_⟩
  refine outcome_bind_ok.2 ⟨_, _, outcome_writeText.2 ⟨c.encodable.2, last, c.environmentFile, rfl⟩, ?_⟩
  exact outcome_bind_ok.2 ⟨_, _, hnote, rfl⟩

end RequestAtlas.Generation
