import RequestAtlas.Proofs.CommandLine.Loading
import RequestAtlas.Proofs.Settings.Fields
/-!
# Layers of settings

A field of the settings may be given on the command line (`commandLine`), from outside (`outside`) and in a settings
file.  For each field by itself the first of these layers that gives it wins (`winning`).  Main statement
`settings_layered`: a command whose arguments are in order works with the settings that follow from the winning data,
or it cannot load any because a field of the file is unknown or does not accept its winning datum.  What stands in a
file under a field that is overridden plays no part, and neither does the order of options or of the file's fields.
-/

namespace RequestAtlas.CommandLine

open Settings (Accepts Follows Holds fieldNames)

/-! ## Layers -/

/-- A text that is not empty. -/
def nonempty? (s : String) : Option String := if s = "" then none else some s

/-- What the command line gives for a field: the last value of its option, and for the endings all values. -/
def commandLine (p : Parsed) : String → Option Datum
  | "root_dir" => (p.value? .root).map .string
  | "base_dir" => (p.value? .baseDir).map .string
  | "out_dir" => (p.value? .outDir).map .string
  | "collection_name" => (p.value? .name).map .string
  | "client_name" => (p.value? .client).map .string
  | "extensions" => if p.values .ext = [] then none else some (.list ((p.values .ext).map .string))
  | _ => none

/-- What is given for a field from outside; the name of the collection matters only where one is written. -/
def outside (env : Environment) (cmd : Command) : String → Option Datum
  | "root_dir" => (nonempty? env.root).map .string
  | "collection_name" => if cmd = .generate then (nonempty? env.name).map .string else none
  | _ => none

/-- What is put over the field of a settings file. -/
def overriding (env : Environment) (cmd : Command) (p : Parsed) (field : String) : Option Datum :=
  (commandLine p field).or (outside env cmd field)

/-- What a field is made from; without it the field has its default. -/
def winning (env : Environment) (cmd : Command) (p : Parsed) (file : List (String × Datum)) (field : String) :
    Option Datum :=
  (overriding env cmd p field).or (Value.get? file field)

/-- An option and a value from outside are never nothing. -/
theorem isNull_of_overriding {env : Environment} {cmd : Command} {p : Parsed} {field : String} {d : Datum}
    (h : overriding env cmd p field = some d) : d.isNull = false := by
  have hstring : ∀ {o : Option String}, o.map Datum.string = some d → d.isNull = false := by
    intro o ho
    obtain ⟨s, _, rfl⟩ := Option.map_eq_some_iff.1 ho
    rfl
  rcases Option.or_eq_some_iff.1 h with h | ⟨_, h⟩
  · unfold commandLine at h
    split at h
    case h_6 =>
      obtain ⟨_, h⟩ := Option.ite_none_left_eq_some.1 h
      cases h
      rfl
    case h_7 => cases h
    all_goals exact hstring h
  · unfold outside at h
    split at h
    · exact hstring h
    · exact hstring (Option.ite_none_right_eq_some.1 h).2
    · cases h

/-! ## Options as fields -/

theorem value?_eq_getLast? (p : Parsed) (f : Flag) : p.value? f = (p.values f).getLast? := by
  rw [Parsed.value?, Parsed.values, List.getLast?_map]

theorem count_eq_length (p : Parsed) (f : Flag) : p.count f = (p.values f).length := by
  rw [Parsed.count, Parsed.values, List.length_map]

theorem value?_eq_none {flags : List Flag} {p : Parsed} (h : ∀ o ∈ p.options, o.1 ∈ flags) {f : Flag}
    (hf : f ∉ flags) : p.value? f = none := by
  have hnone : p.options.filter (·.1 == f) = [] :=
    List.filter_eq_nil_iff.2 fun o ho heq => hf (beq_iff_eq.1 heq ▸ h o ho)
  rw [Parsed.value?, hnone]
  rfl

/-- The fields among `names` that have a value. -/
def entriesFor (names : List String) (value : String → Option Datum) : List (String × Datum) :=
  names.flatMap fun name => ((value name).map (name, ·)).toList

theorem get?_entriesFor (names : List String) (value : String → Option Datum) (field : String) :
    Value.get? (entriesFor names value) field = if field ∈ names then value field else none := by
  induction names with
  | nil => rfl
  | cons name names ih =>
    rw [entriesFor, List.flatMap_cons, ← entriesFor]
    by_cases hname : name = field
    · subst hname
      cases hvalue : value name with
      | none => simp [ih, hvalue]
      | some d => simp [Value.get?_cons_self]
    · have hmem : field ∈ name :: names ↔ field ∈ names := by simp [Ne.symm hname]
      simp only [hmem, ← ih]
      cases value name with
      | none => rfl
      | some d => exact Value.get?_cons_of_ne hname d _

theorem names_entriesFor_sublist (names : List String) (value : String → Option Datum) :
    ((entriesFor names value).map (·.1)).Sublist names := by
  induction names with
  | nil => exact .slnil
  | cons name names ih =>
    rw [entriesFor, List.flatMap_cons, ← entriesFor]
    cases value name with
    | none => exact ih.cons name
    | some d => exact ih.cons_cons name

theorem mem_entriesFor {names : List String} {value : String → Option Datum} {e : String × Datum}
    (h : e ∈ entriesFor names value) : value e.1 = some e.2 := by
  obtain ⟨name, _, he⟩ := List.mem_flatMap.1 h
  obtain ⟨d, hd, rfl⟩ := Option.map_eq_some_iff.1 (Option.mem_toList.1 he)
  exact hd

/-- The fields that options may give, in the order in which they are put over those of a file. -/
def optionNames : List String :=
  ["extensions", "root_dir", "base_dir", "client_name", "collection_name", "out_dir"]

/-- The value of an option is that on the command line, or else one from outside that is not empty. -/
theorem valueOf_eq (env : Environment) (p : Parsed) (f : Flag) : valueOf env p f =
    (p.value? f).or (nonempty? (match f with | .root => env.root | .name => env.name | _ => "")) := by
  unfold valueOf
  cases p.value? f <;> rfl

section
variable (env : Environment) {cmd : Command} {p : Parsed} (hflags : ∀ o ∈ p.options, o.1 ∈ cmd.flags)
include hflags

/-- The option that gives a field by itself, if the command has it. -/
theorem overriding_of_flag : ∀ o ∈ [("root_dir", Flag.root), ("base_dir", .baseDir), ("client_name", .client),
    ("collection_name", .name), ("out_dir", .outDir)], overriding env cmd p o.1 =
      if cmd.flags.contains o.2 then (valueOf env p o.2).map .string else none := by
  simp only [List.forall_mem_cons, List.not_mem_nil, false_imp_iff, implies_true, and_true]
  simp only [overriding, commandLine, outside, valueOf_eq]
  cases cmd with
  | generate => simp [Command.flags, nonempty?, Option.map_or]
  | scan =>
    have hname := value?_eq_none hflags (f := .name) (by decide)
    have hout := value?_eq_none hflags (f := .outDir) (by decide)
    simp [Command.flags, nonempty?, Option.map_or, hname, hout]

theorem optionFields_eq : optionFields env cmd p = entriesFor optionNames (overriding env cmd p) := by
  have hgiven := overriding_of_flag env hflags
  simp only [List.forall_mem_cons] at hgiven
  obtain ⟨hroot, hbase, hclient, hname, hout, _⟩ := hgiven
  have hentry : ∀ (f : Flag) (field : String),
      overriding env cmd p field = (if cmd.flags.contains f then (valueOf env p f).map .string else none) →
      ((overriding env cmd p field).map (field, ·)).toList =
        if cmd.flags.contains f then ((valueOf env p f).map fun v => (field, Datum.string v)).toList else [] := by
    intro f field h
    rw [h]
    split
    · rw [Option.map_map]
      rfl
    · rfl
  have hextensions : ((overriding env cmd p "extensions").map ("extensions", ·)).toList =
      if (p.values .ext).isEmpty then [] else [("extensions", Datum.list ((p.values .ext).map .string))] := by
    simp only [overriding, commandLine, outside, List.isEmpty_iff]
    split <;> rfl
  simp only [optionFields, entriesFor, optionNames, List.flatMap_cons, List.flatMap_nil, hextensions, hentry _ _ hroot,
    hentry _ _ hbase, hentry _ _ hclient, hentry _ _ hname, hentry _ _ hout, List.append_nil, List.append_assoc]

theorem get?_optionFields (field : String) :
    Value.get? (optionFields env cmd p) field = overriding env cmd p field := by
  rw [optionFields_eq env hflags, get?_entriesFor]
  split
  · rfl
  · next hfield =>
    simp only [optionNames, List.mem_cons, List.not_mem_nil, or_false, not_or] at hfield
    rw [overriding, commandLine, outside] <;> simp [hfield]

theorem optionFields_isNull {o : String × Datum} (ho : o ∈ optionFields env cmd p) : o.2.isNull = false := by
  rw [optionFields_eq env hflags] at ho
  exact isNull_of_overriding (mem_entriesFor ho)

theorem nodup_optionFields : ((optionFields env cmd p).map (·.1)).Nodup := by
  rw [optionFields_eq env hflags]
  exact (names_entriesFor_sublist _ _).nodup (by decide)

theorem optionFields_known {o : String × Datum} (ho : o ∈ optionFields env cmd p) : o.1 ∈ fieldNames := by
  rw [optionFields_eq env hflags] at ho
  have hname := (names_entriesFor_sublist _ _).subset (List.mem_map_of_mem (f := (·.1)) ho)
  exact (by decide : ∀ name ∈ optionNames, name ∈ fieldNames) _ hname

/-- **The settings of a command follow from the winning data.** -/
theorem ofFields_layer_eq_ok_iff [Surrogates] [Field.Validator] [Settings.LawfulValidator] {cwd : Path}
    {file : List (String × Datum)} {s : Settings} :
    Settings.ofFields cwd (Settings.layer file (optionFields env cmd p)) = .ok s ↔
      (∀ f ∈ file, f.1 ∈ fieldNames) ∧ Follows cwd (winning env cmd p file) s := by
  have hnull : ∀ o ∈ optionFields env cmd p, o.2.isNull = false := fun o => optionFields_isNull env hflags
  have hget : Value.get? (Settings.layer file (optionFields env cmd p)) = winning env cmd p file := by
    funext field
    rw [Settings.get?_layer (nodup_optionFields env hflags) hnull, get?_optionFields env hflags, winning]
  rw [Settings.ofFields_eq_ok_iff, hget,
    Settings.layer_known_iff (nodup_optionFields env hflags) hnull fun o => optionFields_known env hflags]

end

/-! ## The settings of a command -/

/-- Every option has the same values in the same order. -/
def SameValues (p p' : Parsed) : Prop := ∀ f, p'.values f = p.values f

theorem SameValues.value?_eq {p p' : Parsed} (h : SameValues p p') (f : Flag) : p'.value? f = p.value? f := by
  rw [value?_eq_getLast?, value?_eq_getLast?, h f]

theorem SameValues.valueOf_eq {p p' : Parsed} (h : SameValues p p') (env : Environment) (f : Flag) :
    valueOf env p' f = valueOf env p f := by
  rw [CommandLine.valueOf_eq, CommandLine.valueOf_eq, h.value?_eq]

section
variable [Surrogates]

/-- Whether a command comes to its settings does not depend on the order of different options. -/
theorem InOrder.of_sameValues {w : Workspace} {cmd : Command} {env : Environment} {args args' : List String}
    {p p' : Parsed} (h : InOrder w cmd env args p) (hspelled : Spells cmd.flags args' p'.options)
    (hextra : p'.extra = []) (hsame : SameValues p p') : InOrder w cmd env args' p' where
  spelled := hspelled
  extra := hextra
  help := by rw [count_eq_length, hsame, ← count_eq_length, h.help]
  values := by
    have hall := checkValues_ok_iff.1 h.values
    refine checkValues_ok_iff.2 fun f hf => ?_
    have hflag : f ∈ cmd.flags := by
      rcases List.mem_append.1 hf with hf | hf
      · obtain ⟨o, ho, rfl⟩ := List.mem_map.1 hf
        exact hspelled.mem_flags o ho
      · exact hf
    have hcheck := hall f (List.mem_append_right _ hflag)
    rwa [checkValue, ← hsame.valueOf_eq] at hcheck

variable [Settings.DocumentReader] [Field.Validator]

theorem SameValues.loadPlan_eq {p p' : Parsed} (h : SameValues p p') (w : Workspace) (cmd : Command)
    (env : Environment) : loadPlan w cmd env p' = loadPlan w cmd env p := by
  have hfields : optionFields env cmd p' = optionFields env cmd p := by
    simp only [optionFields, h.valueOf_eq, h .ext]
  have hcount : p'.count .verbose = p.count .verbose := by rw [count_eq_length, count_eq_length, h]
  simp only [loadPlan, h.value?_eq, hfields, hcount]

variable [Settings.LawfulValidator] [OptionParser] [LawfulOptionParser]

/-- A command whose arguments are in order gets the settings that follow from the winning data. -/
theorem InOrder.job_eq_ok_iff {w : Workspace} {cmd : Command} {env : Environment} {args : List String} {p : Parsed}
    {file : List (String × Datum)} (h : InOrder w cmd env args p)
    (hfile : Holds w ((p.value? .config).map Path.ofString) file) (j : Job) :
    (plan w env (cmd.name :: args)).job = .ok j ↔
      j.command = cmd ∧ (∀ f ∈ file, f.1 ∈ fieldNames) ∧ Follows w.here (winning env cmd p file) j.settings := by
  rw [h.plan_eq, loadPlan, hfile.load_eq, ← ofFields_layer_eq_ok_iff env h.spelled.mem_flags]
  cases Settings.ofFields w.here (Settings.layer file (optionFields env cmd p)) with
  | error faults => simp [Except.mapError]
  | ok s =>
    obtain ⟨command, settings⟩ := j
    simp [Except.mapError, eq_comm]

/-- It gets none just if a field of the file is unknown or some field does not accept its winning datum. -/
theorem InOrder.job_error_iff {w : Workspace} {cmd : Command} {env : Environment} {args : List String} {p : Parsed}
    {file : List (String × Datum)} (h : InOrder w cmd env args p)
    (hfile : Holds w ((p.value? .config).map Path.ofString) file) :
    (∃ o, (plan w env (cmd.name :: args)).job = .error o) ↔
      (∃ f ∈ file, f.1 ∉ fieldNames) ∨
        ∃ field ∈ fieldNames, ∃ d, winning env cmd p file field = some d ∧ ¬ Accepts field d := by
  have hfails : (∃ o, (plan w env (cmd.name :: args)).job = .error o) ↔
      ¬ ∃ j, (plan w env (cmd.name :: args)).job = .ok j := by
    cases (plan w env (cmd.name :: args)).job <;> simp
  have hjob : (∃ j, (plan w env (cmd.name :: args)).job = .ok j) ↔ (∀ f ∈ file, f.1 ∈ fieldNames) ∧
      ∃ s, Follows w.here (winning env cmd p file) s := by
    simp only [h.job_eq_ok_iff hfile]
    exact ⟨fun ⟨j, _, hknown, hs⟩ => ⟨hknown, j.settings, hs⟩, fun ⟨hknown, s, hs⟩ => ⟨⟨cmd, s⟩, rfl, hknown, hs⟩⟩
  rw [hfails, hjob, Settings.exists_follows_iff, not_and_or]
  push Not
  rfl

/-- **Settings are layered field by field.**  A command whose arguments are in order, with a settings file of string
keys or none, works with the settings in which every field follows from its own winning datum, or is its default.  It
cannot load any just if a field of the file is unknown or some field does not accept its winning datum.  Neither the
order of different options nor that of the fields in the file matters. -/
theorem settings_layered [Settings.LawfulDocumentReader] {w : Workspace} {cmd : Command} {env : Environment}
    {args : List String} {p : Parsed} {file : List (String × Datum)} (h : InOrder w cmd env args p)
    (hfile : Holds w ((p.value? .config).map Path.ofString) file) :
    (∀ j, (plan w env (cmd.name :: args)).job = .ok j ↔
      j.command = cmd ∧ (∀ f ∈ file, f.1 ∈ fieldNames) ∧ Follows w.here (winning env cmd p file) j.settings) ∧
    ((∃ o, (plan w env (cmd.name :: args)).job = .error o) ↔
      (∃ f ∈ file, f.1 ∉ fieldNames) ∨
        ∃ field ∈ fieldNames, ∃ d, winning env cmd p file field = some d ∧ ¬ Accepts field d) ∧
    (∀ args' p', Spells cmd.flags args' p'.options → p'.extra = [] → SameValues p p' →
      plan w env (cmd.name :: args') = plan w env (cmd.name :: args)) ∧
    ∀ w' file', w'.here = w.here → InOrder w' cmd env args p →
      Holds w' ((p.value? .config).map Path.ofString) file' → file'.Perm file →
      ∀ j, (plan w' env (cmd.name :: args)).job = .ok j ↔ (plan w env (cmd.name :: args)).job = .ok j := by
  refine ⟨h.job_eq_ok_iff hfile, h.job_error_iff hfile, ?_, ?_⟩
  · intro args' p' hspelled hextra hsame
    rw [(h.of_sameValues hspelled hextra hsame).plan_eq, h.plan_eq, hsame.loadPlan_eq]
  · intro w' file' hhere h' hfile' hperm j
    have hwinning : winning env cmd p file' = winning env cmd p file := by
      funext field
      rw [winning, winning, Value.get?_perm hperm hfile'.nodup]
    rw [h'.job_eq_ok_iff hfile', h.job_eq_ok_iff hfile, hhere, hwinning]
    simp only [hperm.mem_iff]

end

/-! ## A file with a bad field that is overridden -/

section
attribute [local instance] Surrogates.unassigned Settings.DocumentReader.yaml Settings.LawfulDocumentReader.yaml
attribute [local instance] Field.Validator.lax Settings.LawfulValidator.lax
attribute [local instance] OptionParser.posix LawfulOptionParser.posix

def badClient : String := "client_name: 1 x\nextensions: [ts]\ncollection_name: Local\n"

def badClientFields : List (String × Datum) :=
  [("client_name", .string "1 x"), ("extensions", .list [.string "ts"]), ("collection_name", .string "Local")]

theorem read_badClient : Settings.DocumentReader.read badClient.toList =
    .ok (.mapping (Settings.entriesOf badClientFields)) := by
  decide +kernel

theorem holds_badClient : Holds (oneSettings (bytesOf badClient)) (some settingsPath) badClientFields :=
  Settings.holds_of_read (read_oneSettings _) rfl read_badClient

def givenClient : Parsed := ⟨[(.config, "gen.yaml"), (.client, "http")], []⟩

def nightly : Environment := { name := "Nightly" }

theorem inOrder_givenClient (bytes : List UInt8) :
    InOrder (oneSettings bytes) .generate nightly ["--config", "gen.yaml", "--client", "http"] givenClient where
  spelled := .separate (f := .config) (by decide) rfl "gen.yaml"
    (.separate (f := .client) (by decide) rfl "http" .nil)
  extra := rfl
  help := rfl
  values := by
    refine checkValues_ok_iff.2 fun f _ => ?_
    cases f with
    | config => exact checkPath_oneSettings bytes
    | _ => rfl

/-- The name of the client in the file is none, but it is overridden; so is the name of the collection, from outside. -/
theorem settings_layered_badClient :
    InOrder (oneSettings (bytesOf badClient)) .generate nightly ["--config", "gen.yaml", "--client", "http"]
      givenClient ∧
    Holds (oneSettings (bytesOf badClient)) (some settingsPath) badClientFields ∧
    (plan (oneSettings (bytesOf badClient)) nightly ["generate", "--config", "gen.yaml", "--client", "http"]).job =
      .ok ⟨.generate, { Settings.default ⟨.root, []⟩ with
        collectionName := "Nightly", clientName := "http", extensions := [".ts"] }⟩ ∧
    plan (oneSettings (bytesOf badClient)) nightly ["generate", "--client", "http", "--config", "gen.yaml"] =
      plan (oneSettings (bytesOf badClient)) nightly ["generate", "--config", "gen.yaml", "--client", "http"] := by
  have horder := inOrder_givenClient (bytesOf badClient)
  obtain ⟨hjob, _, hreordered, _⟩ := settings_layered horder holds_badClient
  refine ⟨horder, holds_badClient, ?_, ?_⟩
  · refine (hjob _).2 ⟨rfl, by decide, ?_⟩
    exact {
      rootDir := rfl
      outDir := rfl
      baseDir := rfl
      collectionName := rfl
      environmentName := rfl
      clientName := ⟨rfl, by decide⟩
      extensions := ⟨["ts"], ⟨_, rfl, .cons rfl .nil⟩, by decide, by decide⟩
      skipDirs := rfl }
  · have hspelled : Spells Command.generate.flags ["--client", "http", "--config", "gen.yaml"]
        [(.client, "http"), (.config, "gen.yaml")] :=
      .separate (f := .client) (by decide) rfl "http" (.separate (f := .config) (by decide) rfl "gen.yaml" .nil)
    exact hreordered _ ⟨[(.client, "http"), (.config, "gen.yaml")], []⟩ hspelled rfl fun f => by cases f <;> rfl

end

end RequestAtlas.CommandLine
