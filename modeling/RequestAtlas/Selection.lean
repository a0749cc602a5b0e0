import RequestAtlas.Text.Affix
import RequestAtlas.Workspace.Files
/-!
# Selecting scripts

Scripts are looked for in the numbered folders directly under a root, such as `1_cards`, `2-users` or `10`,
by ascending number.  Each is searched to any depth with a stack of entries, names in order.  Links are never
followed, and entries with certain names are left out.
-/

namespace RequestAtlas.Selection

/-- The number that decimal digits spell. -/
def numberOf (digits : List Char) : Nat := digits.foldl (fun n c => 10 * n + (c.toNat - 48)) 0

/-- The number of a numbered folder: digits, alone or with a line or a dash and more on the same line behind
them. -/
def number? (name : String) : Option Nat :=
  let digits := name.toList.takeWhile Char.isDigit
  if digits.isEmpty then none
  else
    match name.toList.dropWhile Char.isDigit with
    | [] => some (numberOf digits)
    | c :: rest =>
      if (c = '_' ∨ c = '-') ∧ !rest.contains '\n' then some (numberOf digits) else none

/-- A numbered folder. -/
structure Numbered where
  number : Nat
  name : String
  entries : Folder
deriving Repr, Inhabited

/-- The numbered folders among entries, in the order of the entries. -/
def numbered (es : Folder) : List Numbered :=
  es.filterMap fun (name, e) =>
    match e with
    | .folder sub => (number? name).map fun n => ⟨n, name, sub⟩
    | _ => none

/-- The numbered folders that are searched: from number one on, by number and else in their order. -/
def chosen (ns : List Numbered) : List Numbered := (ns.filter (1 ≤ ·.number)).mergeSort fun a b => a.number ≤ b.number

/-- Which files are scripts, and which names are left out. -/
structure Filter where
  extensions : List String
  skip : List String
deriving Repr, Inhabited

/-- Whether a file of this name is a script. -/
def Filter.accepts (f : Filter) (name : String) : Bool := f.extensions.any (Text.endsWith name)

/-! ## Searching a folder -/

mutual

/-- How many entries there are at and below an entry. -/
def size : Entry → Nat
  | .folder es => sizes es + 1
  | _ => 1

/-- How many entries there are at and below the entries of a folder. -/
def sizes : List (String × Entry) → Nat
  | [] => 0
  | (_, e) :: es => size e + sizes es

end

theorem sizes_perm {es fs : List (String × Entry)} (h : es.Perm fs) : sizes es = sizes fs := by
  induction h with
  | nil => rfl
  | cons e _ ih => rw [sizes, sizes, ih]
  | swap d e es => rw [sizes, sizes, sizes, sizes, Nat.add_left_comm]
  | trans _ _ ih jh => exact ih.trans jh

/-- An entry that is still to be looked at, with the names of the folders that lead to it. -/
structure Visit where
  above : List String
  name : String
  entry : Entry
deriving Repr, Inhabited

/-- How many entries a stack leads to. -/
def load : List Visit → Nat
  | [] => 0
  | v :: stack => size v.entry + load stack

theorem load_append : ∀ stack more : List Visit, load (stack ++ more) = load stack + load more
  | [], more => (Nat.zero_add _).symm
  | v :: stack, more => by rw [List.cons_append, load, load, load_append stack more, Nat.add_assoc]

theorem load_map (above : List String) : ∀ es : Folder, load (es.map fun e => ⟨above, e.1, e.2⟩) = sizes es
  | [] => rfl
  | e :: es => by rw [List.map_cons, load, sizes, load_map above es]

variable [Surrogates]

/-- The entries of a folder as they are looked at, names in order (`_list_dir`).  A folder is listed by the path by
which it was asked about just before, so listing it does not fail. -/
def visits (above : List String) (es : Folder) : List Visit :=
  es.listing.map fun e => ⟨above, e.1, e.2⟩

theorem load_visits (above : List String) (es : Folder) : load (visits above es) = sizes es :=
  (load_map above es.listing).trans (sizes_perm (List.mergeSort_perm es _))

/-- Ask what an entry is (`is_symlink`, `is_dir`, `is_file`): the system refuses paths that are too long. -/
def ask (p : Path) : Except FileError Unit :=
  if Folder.pathLimit < Text.nameSize p.text then .error (.fault .nameTooLong p) else .ok ()

/-- The path of what stands below a folder. -/
def below (base : Path) (names : List String) : Path := { base with parts := base.parts ++ names }

/-- Whether an entry below `base` is looked at.  One whose name is left out is not asked about. -/
def looksAt (base : Path) (f : Filter) (above : List String) (name : String) : Except FileError Bool :=
  if f.skip.contains name then .ok false
  else do
    ask (below base (above ++ [name]))
    return true

/-- Search below `base` with a stack of entries, the next one first (`_walk_source_files`).  What a folder holds goes on
top of all that is left. -/
def scriptsFrom (base : Path) (f : Filter) : List Visit → Except FileError (List (List String))
  | [] => .ok []
  | ⟨above, name, .link _⟩ :: stack => do
    let _ ← looksAt base f above name
    scriptsFrom base f stack
  | ⟨above, name, .folder es⟩ :: stack => do
    if ← looksAt base f above name then scriptsFrom base f (visits (above ++ [name]) es ++ stack)
    else scriptsFrom base f stack
  | ⟨above, name, .file _⟩ :: stack => do
    if (← looksAt base f above name) && f.accepts name then
      return (above ++ [name]) :: (← scriptsFrom base f stack)
    else scriptsFrom base f stack
termination_by stack => load stack
decreasing_by
  -- an entry is taken off, and a folder leads to one entry more than what it holds
  all_goals
    simp only [load, load_append, load_visits, size]
    omega

/-! ## Selecting -/

/-- The numbered folders among the entries of a root (`_numbered_dirs`).  Every entry is asked about, whatever its
name. -/
def numberedUnder (root : Path) (es : Folder) : Except FileError (List Numbered) := do
  es.listing.forM fun e => ask (below root [e.1])
  return numbered es.listing

/-- The path of a script below a numbered folder. -/
def scriptPath (root : Path) (folder : String) (names : List String) : Path :=
  { root with parts := root.parts ++ folder :: names }

def logger : String := "postman_collection_gen.scanner.selector"

/-- Search one numbered folder, as `select_source_files` does in turn. -/
def search (root : Path) (f : Filter) (n : Numbered) : Work (List Path) := do
  let names ← Work.ofFile (scriptsFrom (below root [n.name]) f (visits [] n.entries))
  let found := names.map (scriptPath root n.name)
  Work.note Log.debug logger
    ("Directory " ++ n.name ++ " (#" ++ toString n.number ++ "): " ++ toString found.length ++
      " source files")
  return found

/-- Select the scripts under a root (`select_source_files`). -/
def select (root : Path) (f : Filter) : Work (List Path) := do
  match ← Work.ofFile ((← get).folder? root) with
  | none =>
    Work.note Log.warning logger ("Source root " ++ root.text ++ " is not a directory, nothing to scan")
    return []
  | some es =>
    let ns ← Work.ofFile (numberedUnder root es)
    if ns.isEmpty then
      Work.note Log.info logger ("No numbered directories found in " ++ root.text)
      return []
    else return (← (chosen ns).mapM (search root f)).flatten

end RequestAtlas.Selection
