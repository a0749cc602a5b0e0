import RequestAtlas.Proofs.Document.Encodable
import RequestAtlas.Proofs.FileTree.Shape
import RequestAtlas.Proofs.Generation.Gathering
import RequestAtlas.Proofs.Workspace.Filing
/-!
# Two scripts

A folder of files has the scripts that its names say, whatever the files hold (`scripts_files`).  So the workspaces with
two scripts in one numbered folder are alike (`twoScripts`): under settings by which the documents are written into that
very folder (`nested`), both scripts are selected in all of them, before the output folder is made and afterwards.
-/

namespace RequestAtlas

open Folder Work

namespace Selection

variable [Surrogates]

theorem listing_of_sorted {es : Folder} (h : es.Pairwise fun a b => Text.nameLe a.1 b.1 = true) : es.listing = es :=
  List.mergeSort_of_pairwise h

/-- In a folder of files whose names ascend, all are scripts that are neither left out nor have another ending. -/
theorem scripts_files {f : Filter} {es : Folder} (h : es.Pairwise fun a b => Text.nameLe a.1 b.1 = true)
    (hfile : ∀ e ∈ es, (∃ content, e.2 = .file content) ∧ e.1 ∉ f.skip ∧ f.accepts e.1 = true) :
    scripts f es = es.map fun e => [e.1] := by
  have hshare : ∀ e ∈ es, share f e = [[e.1]] := by
    rintro ⟨name, e⟩ he
    obtain ⟨⟨content, heq⟩, hskip, haccepts⟩ := hfile _ he
    obtain rfl : e = .file content := heq
    rw [share_file f hskip, if_pos haccepts]
  rw [scripts, listing_of_sorted h, List.flatMap_congr hshare, List.map_eq_flatMap]

/-- Under a root with one entry, a folder with a number, the scripts of that folder are found. -/
theorem found_singleton (root : Path) (f : Filter) {name : String} {n : Nat} (hnumber : number? name = some n)
    (hpos : 1 ≤ n) (es : Folder) : found root f [(name, .folder es)] = (scripts f es).map (scriptPath root name) := by
  have hchosen : chosen (numbered (Folder.listing [(name, .folder es)])) = [⟨n, name, es⟩] := by
    rw [listing_of_sorted (List.pairwise_singleton _ _)]
    simp [chosen, numbered, hnumber, hpos]
  rw [found, hchosen, List.flatMap_singleton]
  rfl

end Selection

namespace Generation

/-- The settings by which the documents are written into a folder among the scripts. -/
def nested : Settings := { Settings.default ⟨.root, []⟩ with outDir := ⟨.relative, ["tools", "1_x", "out"]⟩ }

/-- A workspace with a numbered folder under the root. -/
def numberedFolder (es : Folder) : Workspace where
  cwd := []
  tree := [("tools", .folder [("1_x", .folder es)])]

/-- A workspace with two scripts. -/
def twoScripts (a b : List UInt8) : Workspace := numberedFolder [("a.js", .file a), ("b.js", .file b)]

/-- The same workspace with the output folder. -/
def twoScriptsMade (a b : List UInt8) : Workspace :=
  numberedFolder [("a.js", .file a), ("b.js", .file b), ("out", .folder [])]

/-- The path of the first script. -/
def firstPath : Path := ⟨.root, ["tools", "1_x", "a.js"]⟩

/-- The path of the second script. -/
def secondPath : Path := ⟨.root, ["tools", "1_x", "b.js"]⟩

theorem nested_paths : nested.rootPath = ⟨.root, ["tools"]⟩ ∧ nested.outPath = ⟨.root, ["tools", "1_x", "out"]⟩ := by
  decide

theorem allNames_twoScripts {P : String → Prop} (h : ∀ n ∈ ["tools", "1_x", "a.js", "b.js"], P n) (a b : List UInt8) :
    AllNames P (twoScripts a b).tree := by
  simpa [twoScripts, numberedFolder, AllNames, Entry.AllNames] using h

theorem plain_twoScripts (a b : List UInt8) : (twoScripts a b).Plain where
  links := linkFree_of_everywhere rfl
  names := allNames_twoScripts (by decide) a b
  cwd := hasFolder_nil _

theorem linkFree_twoScriptsMade (a b : List UInt8) : (twoScriptsMade a b).tree.LinkFree := linkFree_of_everywhere rfl

section
attribute [local instance] Surrogates.unassigned Syntax.Parser.javascript

theorem ensureFolders_twoScripts (a b : List UInt8) :
    (ensureFolders nested.outPath).outcome (twoScripts a b) = (.ok (), twoScriptsMade a b) := by
  have hparts : nested.outPath.parts = ["tools", "1_x"] ++ ["out"] := by decide
  rw [nested_paths.2] at hparts ⊢
  exact outcome_ensureFolders_new (plain_twoScripts a b).links (by decide) hparts (by decide) ⟨_, rfl⟩ rfl

theorem writable_twoScripts (a b : List UInt8) : (twoScriptsMade a b).Writable nested.collectionPath ∧
    (twoScriptsMade a b).Writable nested.environmentPath := by
  have hcollection : nested.collectionPath.parts = ["tools", "1_x", "out"] ++ [Settings.collectionFile] := rfl
  have henvironment : nested.environmentPath.parts = ["tools", "1_x", "out"] ++ [Settings.environmentFile] := rfl
  have hlinks := linkFree_twoScriptsMade a b
  exact ⟨Workspace.writable_of_free hlinks (by decide) hcollection (by decide) ⟨_, rfl⟩ rfl,
    Workspace.writable_of_free hlinks (by decide) henvironment (by decide) ⟨_, rfl⟩ rfl⟩

theorem folder?_twoScriptsMade (a b : List UInt8) : (twoScriptsMade a b).folder? nested.rootPath =
    .ok (some [("1_x", .folder [("a.js", .file a), ("b.js", .file b), ("out", .folder [])])]) :=
  (Workspace.folder?_eq_some_iff (linkFree_twoScriptsMade a b) (by decide)).2 ⟨by decide, rfl⟩

theorem read_twoScriptsMade (a b : List UInt8) : (twoScriptsMade a b).read firstPath = .ok a ∧
    (twoScriptsMade a b).read secondPath = .ok b :=
  ⟨(Workspace.read_eq_ok_iff (linkFree_twoScriptsMade a b) (by decide)).2 ⟨by decide, rfl⟩,
    (Workspace.read_eq_ok_iff (linkFree_twoScriptsMade a b) (by decide)).2 ⟨by decide, rfl⟩⟩

/-- Both scripts are selected, in their order. -/
theorem selected_twoScriptsMade (a b : List UInt8) :
    Selection.selected (twoScriptsMade a b) nested.rootPath (filterOf nested) = .ok [firstPath, secondPath] := by
  have hfits : Selection.Fits nested.rootPath (filterOf nested)
      [("1_x", .folder [("a.js", .file a), ("b.js", .file b), ("out", .folder [])])] :=
    Selection.fits_of_shortIn _ rfl
  have hgrown : Grown "out" [("a.js", .file a), ("b.js", .file b)]
      [("a.js", .file a), ("b.js", .file b), ("out", .folder [])] := .here (by simp)
  have hscripts : Selection.scripts (filterOf nested) [("a.js", .file a), ("b.js", .file b), ("out", .folder [])] =
      [["a.js"], ["b.js"]] := by
    rw [Selection.scripts_grown _ hgrown]
    refine Selection.scripts_files (List.pairwise_pair.2 (show Text.nameLe "a.js" "b.js" = true by decide)) ?_
    simp only [List.forall_mem_cons]
    exact ⟨⟨⟨a, rfl⟩, by decide, by decide⟩, ⟨⟨b, rfl⟩, by decide, by decide⟩, by simp⟩
  have hnumber : Selection.number? "1_x" = some 1 := by decide
  rw [Selection.selected_of_fits (folder?_twoScriptsMade a b) hfits,
    Selection.found_singleton _ _ hnumber (by decide), hscripts]
  rfl

theorem gathered_twoScriptsMade (a b : List UInt8) : gathered (twoScriptsMade a b) nested =
    .ok ([firstPath, secondPath], requestsOf (twoScriptsMade a b) nested.clientName firstPath ++
      requestsOf (twoScriptsMade a b) nested.clientName secondPath) := by
  rw [gathered_of_selected (selected_twoScriptsMade a b) (by decide)]
  simp

/-- The script `axios.get('/b')` with the line `axios.post('/a', [1])` below. -/
def getAndPost : List UInt8 := "axios.get('/b')\naxios.post('/a', [1])".toList.map fun c => c.toNat.toUInt8

/-- The script `axios.get('/a')`. -/
def getOnly : List UInt8 := "axios.get('/a')".toList.map fun c => c.toNat.toUInt8

theorem sendable_requestsIn : ∀ r ∈ requestsIn nested.clientName firstPath getAndPost ++
    requestsIn nested.clientName secondPath getOnly,
      r.body.hasLong = false ∧ Document.Encodable [] nested.baseDir r := by
  decide +kernel

end

end Generation

end RequestAtlas
