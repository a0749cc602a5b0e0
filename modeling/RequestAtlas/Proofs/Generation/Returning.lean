import RequestAtlas.Proofs.Document.Encodable
import RequestAtlas.Proofs.Generation.TwoScripts
import RequestAtlas.Proofs.Literal.Atoms
/-!
# When a run returns

What stands in a script cannot keep a run from returning, with one exception: an integer that is too long to be
written passes every step until the collection is rendered.  Apart from the scripts, the system can refuse a path that
is too long while scripts are selected, and a name with a surrogate cannot be encoded once it is to be written.
`run_returns_iff` says that where both documents can be written, a run returns exactly if none of this happens
(`Renderable`).
-/

namespace RequestAtlas

/-- The moment has an offset, and in universal time it lies in the years 1000 to 9999. -/
def Moment.Dated (m : Moment) : Prop :=
  m.offset.isSome ∧ ((⟨1000, 1, 1⟩ : Date).number * daySeconds : Nat) ≤ m.utcSeconds ∧
    m.utcSeconds < (((⟨9999, 12, 31⟩ : Date).number + 1) * daySeconds : Nat)

instance (m : Moment) : Decidable m.Dated := inferInstanceAs (Decidable (_ ∧ _ ∧ _))

theorem Moment.Dated.utc_eq {m : Moment} (h : m.Dated) :
    m.utc = .ok (ofSeconds m.utcSeconds.toNat m.microsecond) := by
  obtain ⟨hoffset, hfirst, hlast⟩ := h
  have hnumbers : (⟨1000, 1, 1⟩ : Date).number = 364878 ∧ (⟨9999, 12, 31⟩ : Date).number = Date.lastNumber := by decide
  rw [hnumbers.1] at hfirst
  rw [hnumbers.2] at hlast
  have hlow : ¬ m.utcSeconds < daySeconds := by
    simp only [daySeconds] at hfirst ⊢
    omega
  rw [utc, Option.isNone_eq_false_iff.2 hoffset, Bool.false_and, if_neg Bool.false_ne_true]
  rw [if_neg (by simp only [Bool.or_eq_true, decide_eq_true_eq, not_or]; exact ⟨hlow, by omega⟩)]

/-- The environment of a moment that has a universal time can be written. -/
theorem Document.environment_of_utc (name : String) {m u : Moment} (h : m.utc = .ok u) :
    ∃ doc template, environment name m = .ok doc ∧ doc.render = .ok template := by
  have hstamp : m.stamp = .ok u.text := by
    rw [Moment.stamp, h]
    rfl
  rw [environment, hstamp]
  exact ⟨_, _, rfl, Value.render_of_short rfl⟩

/-- The collection and the environment have two places. -/
theorem Settings.places_ne (s : Settings) (cwd : List String) :
    s.collectionPath.resolve cwd ≠ s.environmentPath.resolve cwd :=
  s.outPath.resolve_child_ne (by decide) (by decide) (by decide) cwd

namespace Generation

open Folder Work

section
variable [Surrogates]

/-! ## Scripts whose paths can be handed to the system -/

/-- A script is found only under a root that can be followed. -/
theorem fault?_root {w : Workspace} {root p : Path} {f : Selection.Filter} {files : List Path}
    (h : Selection.selected w root f = .ok files) (hp : p ∈ files) : root.fault? = none := by
  obtain ⟨q, es, hl, _⟩ := Selection.exists_of_mem_selected h hp
  exact (Workspace.locate_ok_iff.1 hl).1

/-- Names of the tree lead from the root to paths that can be used as well. -/
theorem fault?_script {w : Workspace} {root p : Path} {f : Selection.Filter} {files : List Path}
    (hnames : AllNames Text.Nameable w.tree) (h : Selection.selected w root f = .ok files) (hp : p ∈ files) :
    p.fault? = none := by
  have hroot := fault?_root h hp
  obtain ⟨names, rfl, hnameable⟩ := Selection.names_of_mem_selected hnames h hp
  rw [Path.fault?_eq_none_iff] at hroot ⊢
  exact List.forall_mem_append.2 ⟨hroot, hnameable⟩

/-- Folders are made with names that can be used. -/
theorem allNames_ensureFolders {p : Path} {w made : Workspace} (hnames : AllNames Text.Nameable w.tree)
    (h : (ensureFolders p).outcome w = (.ok (), made)) : AllNames Text.Nameable made.tree := by
  obtain ⟨⟨_, hgrowth⟩, hfault⟩ := grew_ensureFolders h
  exact hgrowth.allNames (Path.fault?_eq_none_iff.1 hfault) hnames

/-- Scripts are selected just if the system can be asked about the root and all entries under it that are met. -/
theorem exists_selected_iff {w : Workspace} {root : Path} {f : Selection.Filter} :
    (∃ files, Selection.selected w root f = .ok files) ↔ w.locate true root ≠ .error (.fault .nameTooLong root) ∧
      ∀ es, w.folder? root = .ok (some es) → Selection.Fits root f es := by
  have hlong : w.locate true root = .error (.fault .nameTooLong root) ↔ ∃ e, w.folder? root = .error e := by
    constructor
    · intro h
      exact ⟨_, Workspace.folder?_error_iff.2 ⟨rfl, h⟩⟩
    · rintro ⟨e, he⟩
      exact (Workspace.folder?_error_iff.1 he).2
  simp only [Selection.selected_ok_iff, ne_eq, hlong]
  cases hroot : w.folder? root with
  | error e => simp
  | ok o => cases o <;> simp

/-! ## Returning -/

variable [Syntax.Parser]

/-- Nothing that is selected stops a run: the system can be asked about the root and about all entries on the way to the
scripts, no selected script sends an integer that is too long to be written, and no surrogate stands in what is
written. -/
structure Renderable (made : Workspace) (s : Settings) : Prop where
  root : made.locate true s.rootPath ≠ .error (.fault .nameTooLong s.rootPath)
  entries : Scannable s made
  names : Text.Writable s.collectionName ∧ Text.Writable s.environmentName
  requests : ∀ files, Selection.selected made s.rootPath (filterOf s) = .ok files →
    ∀ p ∈ files, ∀ r ∈ requestsOf made s.clientName p,
      r.body.hasLong = false ∧ Document.Encodable made.cwd s.baseDir r

/-- A run that returned was renderable. -/
theorem renderable_of_course {s : Settings} {m : Moment} {w made first last : Workspace} {files : List Path}
    {rs : List Request} {text template : String} (c : Course s m w made files rs text template first last) :
    Renderable made s := by
  obtain ⟨hsel, hrs⟩ := eq_of_gathered c.requests
  obtain ⟨hroot, hfits⟩ := exists_selected_iff.1 ⟨files, hsel⟩
  obtain ⟨hcollection, hrequests⟩ := (Document.writable_collectionText c.collection).1 c.encodable.1
  obtain ⟨env, henv, hrender⟩ := c.environment
  refine ⟨hroot, hfits, ⟨hcollection, (Document.writable_environment henv hrender).1 c.encodable.2⟩, ?_⟩
  intro files' hsel' p hp r hr
  rw [hsel] at hsel'
  cases hsel'
  have hmem : r ∈ rs := hrs ▸ List.mem_flatMap.2 ⟨p, hp, hr⟩
  obtain ⟨doc, hdoc, _⟩ := Results.bind_eq_ok_iff.1 c.collection
  exact ⟨Document.hasLong_of_collection hdoc r hmem, hrequests r hmem⟩

/-- A renderable run whose documents can be written takes its course. -/
theorem course_of_renderable {s : Settings} {m : Moment} {w made : Workspace}
    (hnames : AllNames Text.Nameable w.tree) (hm : m.Dated)
    (hmade : (ensureFolders s.outPath).outcome w = (.ok (), made)) (hcollection : made.Writable s.collectionPath)
    (henvironment : made.Writable s.environmentPath) (h : Renderable made s) :
    ∃ files rs text template first last, Course s m w made files rs text template first last := by
  obtain ⟨files, hsel⟩ := exists_selected_iff.2 ⟨h.root, h.entries⟩
  have hgathered := gathered_of_selected hsel fun p hp => fault?_script (allNames_ensureFolders hnames hmade) hsel hp
  have hrequests : ∀ r ∈ files.flatMap (requestsOf made s.clientName),
      r.body.hasLong = false ∧ Document.Encodable made.cwd s.baseDir r := by
    intro r hr
    obtain ⟨p, hp, hr⟩ := List.mem_flatMap.1 hr
    exact h.requests files hsel p hp r hr
  have htext := Document.collectionText_eq made.cwd s.baseDir s.collectionName fun r hr => (hrequests r hr).1
  obtain ⟨doc, template, hdoc, htemplate⟩ := Document.environment_of_utc s.environmentName hm.utc_eq
  have hencodable := (Document.writable_collectionText htext).2 ⟨h.names.1, fun r hr => (hrequests r hr).2⟩
  have hencodable' := (Document.writable_environment hdoc htemplate).2 h.names.2
  obtain ⟨first, hfirst⟩ := hcollection _
  -- The first file does not stand in the way of the second.
  obtain ⟨last, hlast⟩ := Workspace.writable_write hfirst henvironment template.toUTF8.toList
  exact ⟨files, _, _, template, first, last, hmade, hgathered, htext, ⟨doc, hdoc, htemplate⟩,
    ⟨hencodable, hencodable'⟩, hfirst, hlast⟩

/-- **Where both documents can be written, a run returns exactly if the paths of the root and of all entries that are
met are short enough, no selected script sends an integer that is too long, and no surrogate stands in what is
written.**  That every name can be handed to the system holds in every tree that the system has. -/
theorem run_returns_iff (s : Settings) (m : Moment) (w made : Workspace)
    (hnames : AllNames Text.Nameable w.tree) (hm : m.Dated)
    (hmade : (ensureFolders s.outPath).outcome w = (.ok (), made)) (hcollection : made.Writable s.collectionPath)
    (henvironment : made.Writable s.environmentPath) :
    (∃ report w', (run s m).outcome w = (.ok report, w')) ↔ Renderable made s := by
  constructor
  · rintro ⟨report, w', hrun⟩
    obtain ⟨made', files, rs, text, template, first, last, log, hcourse, _⟩ := course_of_run hrun
    obtain rfl : made = made' := (Prod.mk.inj (hmade.symm.trans hcourse.folders)).2
    exact renderable_of_course hcourse
  · intro h
    obtain ⟨files, rs, text, template, first, last, hcourse⟩ :=
      course_of_renderable hnames hm hmade hcollection henvironment h
    obtain ⟨log, hrun⟩ := hcourse.run
    exact ⟨_, _, hrun⟩

end

/-- The first moment of the year 2024. -/
def newYear : Moment := ⟨⟨2024, 1, 1⟩, 0, 0, 0, 0, some 0⟩

theorem dated_newYear : newYear.Dated := by decide

section
attribute [local instance] Surrogates.unassigned Syntax.Parser.javascript

/-- Where both scripts can be asked about, what they request decides. -/
theorem renderable_twoScripts {a b : List UInt8} (h : ∀ r ∈ requestsIn nested.clientName firstPath a ++
    requestsIn nested.clientName secondPath b, r.body.hasLong = false ∧ Document.Encodable [] nested.baseDir r) :
    Renderable (twoScriptsMade a b) nested := by
  have hsel := selected_twoScriptsMade a b
  obtain ⟨hroot, hfits⟩ := exists_selected_iff.1 ⟨_, hsel⟩
  obtain ⟨hfirst, hsecond⟩ := read_twoScriptsMade a b
  refine ⟨hroot, hfits, by decide, ?_⟩
  intro files hsel' p hp r hr
  rw [hsel] at hsel'
  cases hsel'
  apply h
  rcases List.mem_pair.1 hp with rfl | rfl
  · exact List.mem_append_left _ (requestsOf_of_read hfirst _ ▸ hr)
  · exact List.mem_append_right _ (requestsOf_of_read hsecond _ ▸ hr)

/-- A run with two scripts takes its course, if what they request can be written. -/
theorem course_twoScripts {a b : List UInt8} (h : ∀ r ∈ requestsIn nested.clientName firstPath a ++
    requestsIn nested.clientName secondPath b, r.body.hasLong = false ∧ Document.Encodable [] nested.baseDir r) :
    ∃ files rs text template first last,
      Course nested newYear (twoScripts a b) (twoScriptsMade a b) files rs text template first last := by
  obtain ⟨hcollection, henvironment⟩ := writable_twoScripts a b
  exact course_of_renderable (allNames_twoScripts (by decide) a b) dated_newYear (ensureFolders_twoScripts a b)
    hcollection henvironment (renderable_twoScripts h)

theorem run_returns_iff_twoScripts : AllNames Text.Nameable (twoScripts getAndPost getOnly).tree ∧ newYear.Dated ∧
    (ensureFolders nested.outPath).outcome (twoScripts getAndPost getOnly) =
      (.ok (), twoScriptsMade getAndPost getOnly) ∧
    (twoScriptsMade getAndPost getOnly).Writable nested.collectionPath ∧
    (twoScriptsMade getAndPost getOnly).Writable nested.environmentPath ∧
    ∃ report w', (run nested newYear).outcome (twoScripts getAndPost getOnly) = (.ok report, w') := by
  have hnames : AllNames Text.Nameable (twoScripts getAndPost getOnly).tree := allNames_twoScripts (by decide) _ _
  have hmade := ensureFolders_twoScripts getAndPost getOnly
  obtain ⟨hcollection, henvironment⟩ := writable_twoScripts getAndPost getOnly
  refine ⟨hnames, dated_newYear, hmade, hcollection, henvironment, ?_⟩
  exact (run_returns_iff _ _ _ _ hnames dated_newYear hmade hcollection henvironment).2
    (renderable_twoScripts sendable_requestsIn)

end

end Generation

/-! ## A number of too many digits -/

namespace Literal

theorem digitsIn?_replicate (n : Nat) : ∀ v : Nat,
    digitsIn? 16 (List.replicate n 'f') v = some (16 ^ n * (v + 1) - 1) := by
  induction n with
  | zero =>
    intro v
    simp [digitsIn?]
  | succ n ih =>
    intro v
    have hf : digitIn? 16 'f' = some 15 := by decide
    have hnext : 16 * v + 15 + 1 = 16 * (v + 1) := by omega
    rw [List.replicate_succ, digitsIn?, hf, Option.bind_some, ih, hnext, Nat.pow_succ, Nat.mul_assoc]

theorem integerIn_replicate (n : Nat) :
    integerIn 16 (String.ofList (List.replicate (n + 1) 'f')) = .ok ((16 ^ (n + 1) - 1 : Nat) : Int) := by
  have hplain : (List.replicate (n + 1) 'f').map plainChar = List.replicate (n + 1) 'f' := by
    rw [List.map_replicate]
    congr 1
  have hblank : Text.isBlank 'f' = false := by decide
  have hdrop : (List.replicate (n + 1) 'f').dropWhile Text.isBlank = List.replicate (n + 1) 'f' := by
    rw [List.replicate_succ, List.dropWhile_cons_of_neg (by simp [hblank])]
  have htrim : Text.trim (List.replicate (n + 1) 'f') = List.replicate (n + 1) 'f' := by
    rw [Text.trim, hdrop, Text.trimEnd, List.reverse_replicate, hdrop, List.reverse_replicate]
  have hdigits := digitsIn?_replicate (n + 1) 0
  rw [Nat.zero_add, Nat.mul_one, List.replicate_succ] at hdigits
  rw [integerIn, String.toList_ofList, hplain, htrim, List.replicate_succ]
  simp [signed, dropBase, hdigits]

/-- However many digits it has, a hexadecimal numeral denotes an exact integer. -/
theorem numberValue_replicate (n : Nat) :
    numberValue ('0' :: 'x' :: List.replicate (n + 1) 'f') = .int ((16 ^ (n + 1) - 1 : Nat) : Int) := by
  have hfilter : ('0' :: 'x' :: List.replicate (n + 1) 'f').filter (· != '_') =
      '0' :: 'x' :: List.replicate (n + 1) 'f' := by
    simp
  have hlast : ('0' :: 'x' :: List.replicate (n + 1) 'f').getLast? = some 'f' := by
    rw [List.replicate_succ', ← List.cons_append, ← List.cons_append, List.getLast?_concat]
  have hletter : baseLetter? 'x' = some 16 := by decide
  have hparse : parseNumber (String.ofList ('0' :: 'x' :: List.replicate (n + 1) 'f')) =
      .ok (some (.int ((16 ^ (n + 1) - 1 : Nat) : Int))) := by
    rw [parseNumber, String.toList_ofList, hfilter]
    simp only [hlast, hletter, Option.map_some, integerIn_replicate]
    rfl
  exact numberValue_of_parse hparse

end Literal

namespace Request

open Syntax

theorem body_of_ofCall? {client : String} {source : Path} {call : Node} {r : Request}
    (h : ofCall? client source call = some r) :
    ∃ list, call.child? .arguments = some list ∧ r.body = bodyOf r.method list.contents := by
  obtain ⟨_, _, h⟩ := Option.bind_eq_some_iff.1 h
  obtain ⟨callee, _, h⟩ := Option.bind_eq_some_iff.1 h
  obtain ⟨method, _, h⟩ := Option.bind_eq_some_iff.1 h
  obtain ⟨list, hlist, h⟩ := Option.bind_eq_some_iff.1 h
  obtain ⟨_, _, h⟩ := Option.bind_eq_some_iff.1 h
  obtain ⟨argument, _, h⟩ := Option.bind_eq_some_iff.1 h
  obtain ⟨url, _, h⟩ := Option.bind_eq_some_iff.1 h
  obtain ⟨_, _, h⟩ := Option.bind_eq_some_iff.1 h
  cases h
  exact ⟨list, hlist, rfl⟩

theorem bodyOf_number {method : Method} {arguments : List Node} {a : Node} {n : Int} (hm : method.hasBody = true)
    (ha : arguments[1]? = some a) (hkind : a.kind = .number) (hn : Literal.numberValue a.chars = .int n) :
    bodyOf method arguments = .int n := by
  obtain ⟨kind, role, start, chars, children⟩ := a
  obtain rfl : kind = .number := hkind
  have hvalue : Literal.value (.mk .number role start chars children) = .int n := by
    rw [Literal.value]
    exact hn
  rw [bodyOf, if_pos hm, ha]
  simp only [hvalue]

end Request

namespace Generation

open Folder Work Syntax

section
attribute [local instance] Surrogates.unassigned Syntax.Parser.javascript

/-- The method of the first call in a script, and the kind and the characters of its second argument. -/
def secondArgument? (client : String) (source : Path) (chars : List Char) : Option (Method × Kind × List Char) := do
  let c := Cursor.ofList chars
  let (program, _) ← Parse.program (Grammar.ofDepth (Grammar.depthFor c.left)) c
  let call ← (Request.calls program).head?
  let r ← Request.ofCall? client source call
  let a ← (← call.child? .arguments).contents[1]?
  return (r.method, a.kind, a.chars)

/-- A script whose first call sends a number has a request that sends it. -/
theorem exists_of_secondArgument? {client : String} {source : Path} {chars digits : List Char} {method : Method}
    {n : Int} (h : secondArgument? client source chars = some (method, .number, digits))
    (hm : method.hasBody = true) (hn : Literal.numberValue digits = .int n) :
    ∃ program, parse? (String.ofList chars) = some program ∧
      ∃ r ∈ Request.extract client source program, r.body = .int n := by
  simp only [secondArgument?, Option.bind_eq_bind, Option.bind_eq_some_iff] at h
  obtain ⟨⟨program, rest⟩, hprogram, call, hcall, r, hr, list, hlist, a, ha, heq⟩ := h
  simp only [Option.pure_def, Option.some.injEq, Prod.mk.injEq] at heq
  obtain ⟨hmethod, hkind, hdigits⟩ := heq
  refine ⟨program, ?_, r, ?_, ?_⟩
  · simp only [parse?, Cursor.ofString, String.toList_ofList, hprogram, Option.map_some]
  · exact List.mem_filterMap.2 ⟨call, List.mem_of_head? hcall, hr⟩
  · obtain ⟨list', hlist', hbody⟩ := Request.body_of_ofCall? hr
    rw [hlist] at hlist'
    cases hlist'
    rw [hbody]
    exact Request.bodyOf_number (by rw [hmethod, hm]) ha hkind (by rw [hdigits, hn])

/-- A script that posts a hexadecimal number of 3600 digits, which is one of more than 4300 decimal ones. -/
def longScript : List Char := "axios.post('/x',0x".toList ++ (List.replicate 3600 'f' ++ [')'])

def longBytes : List UInt8 := longScript.map fun c => c.toNat.toUInt8

theorem decodeUtf8_longBytes : (Text.decodeUtf8 longBytes).toOption = some longScript := by decide +kernel

theorem dropMark_longScript : dropMark longScript = longScript := by decide +kernel

theorem secondArgument?_longScript : secondArgument? nested.clientName firstPath longScript =
    some (.post, .number, '0' :: 'x' :: List.replicate 3600 'f') := by
  decide +kernel

theorem isLong_hex : Value.isLong ((16 ^ (3599 + 1) - 1 : Nat) : Int) = true := by decide +kernel

theorem exists_long_request : ∃ r ∈ requestsIn nested.clientName firstPath longBytes, r.body.hasLong = true := by
  obtain ⟨program, hparse, r, hr, hbody⟩ := exists_of_secondArgument? secondArgument?_longScript rfl
    (Literal.numberValue_replicate 3599)
  have hdecode : Text.decodeUtf8 longBytes = .ok longScript := by
    have hsome := decodeUtf8_longBytes
    generalize Text.decodeUtf8 longBytes = x at hsome
    cases x with
    | error e => cases hsome
    | ok cs => exact congrArg Except.ok (Option.some.inj hsome)
  have hparse' : Parser.parse? (String.ofList longScript) = some program := hparse
  have hread : readBytes longBytes = .ok program := by
    rw [readBytes, hdecode]
    dsimp only
    rw [readText, dropMark_longScript, hparse']
  refine ⟨r, ?_, ?_⟩
  · rw [requestsIn, hread]
    exact hr
  · rw [hbody, Value.hasLong]
    exact isLong_hex

/-- A long number in a script keeps a run from returning, whatever another script requests. -/
theorem run_longBytes : AllNames Text.Nameable (twoScripts longBytes getOnly).tree ∧ newYear.Dated ∧
    (ensureFolders nested.outPath).outcome (twoScripts longBytes getOnly) = (.ok (), twoScriptsMade longBytes getOnly) ∧
    (twoScriptsMade longBytes getOnly).Writable nested.collectionPath ∧
    (twoScriptsMade longBytes getOnly).Writable nested.environmentPath ∧
    ¬ ∃ report w', (run nested newYear).outcome (twoScripts longBytes getOnly) = (.ok report, w') := by
  have hmade := ensureFolders_twoScripts longBytes getOnly
  obtain ⟨hcollection, henvironment⟩ := writable_twoScripts longBytes getOnly
  refine ⟨allNames_twoScripts (by decide) _ _, dated_newYear, hmade, hcollection, henvironment, ?_⟩
  rintro ⟨report, w', hrun⟩
  obtain ⟨made, files, rs, text, template, first, last, log, hcourse, _⟩ := course_of_run hrun
  obtain rfl : twoScriptsMade longBytes getOnly = made := (Prod.mk.inj (hmade.symm.trans hcourse.folders)).2
  obtain ⟨r, hr, hlong⟩ := exists_long_request
  have hsendable := (renderable_of_course hcourse).requests _ (selected_twoScriptsMade _ _) firstPath (by simp) r
  rw [requestsOf_of_read (read_twoScriptsMade _ _).1] at hsendable
  have hshort := (hsendable hr).1
  rw [hlong] at hshort
  cases hshort

end

end Generation

end RequestAtlas
