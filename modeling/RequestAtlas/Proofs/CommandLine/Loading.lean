import RequestAtlas.Proofs.CommandLine.Options
import RequestAtlas.Proofs.CommandLine.Verbosity
import RequestAtlas.Proofs.FileTree.Following
import RequestAtlas.Proofs.Settings.Files
import RequestAtlas.Proofs.Workspace.Folders
/-!
# Settings files of commands

A command whose arguments are in order (`InOrder`) loads its settings, and how it ends depends on nothing else if they
cannot be loaded.  An error of loading that is told ends the command with that message, as a fault of the arguments
does.  Main statement `file_told_iff`: whatever the options, an error that comes of a settings file is told just if the
file is orderly.
-/

namespace RequestAtlas.CommandLine

open Settings (Holds LoadError Orderly)

/-! ## Commands that load settings -/

section
variable [Surrogates]

/-- The arguments of a command spell options and nothing else, none of them asks for help, and no path that one names
is refused: the command comes to its settings. -/
structure InOrder (w : Workspace) (cmd : Command) (env : Environment) (args : List String) (p : Parsed) : Prop where
  spelled : Spells cmd.flags args p.options
  extra : p.extra = []
  help : p.count .help = 0
  values : checkValues w env cmd p = .ok ()

theorem checkValues_ok_iff {w : Workspace} {env : Environment} {cmd : Command} {p : Parsed} :
    checkValues w env cmd p = .ok () ↔ ∀ f ∈ checkOrder cmd p, checkValue w env cmd p f = .ok () := by
  rw [checkValues_eq, Results.forM_eq_ok_iff]

theorem ofLoadError_eq_usage_iff {e : LoadError} : Outcome.ofLoadError e = .usage e.message ↔ e.isTold = true := by
  cases e <;> simp [Outcome.ofLoadError, LoadError.isTold, Outcome.usage, Outcome.crashed]

variable [Settings.DocumentReader] [Field.Validator] [OptionParser] [LawfulOptionParser]

theorem InOrder.plan_eq {w : Workspace} {cmd : Command} {env : Environment} {args : List String} {p : Parsed}
    (h : InOrder w cmd env args p) : plan w env (cmd.name :: args) = loadPlan w cmd env p := by
  have hparse : OptionParser.parse cmd.flags true args = .ok p := by
    rw [LawfulOptionParser.parse_eq_ok_iff.2 h.spelled, ← h.extra]
  have hhelp : ¬ 0 < p.count .help := by simp [h.help]
  rw [plan_command, commandPlan, hparse]
  dsimp only
  rw [if_neg hhelp, h.values, h.extra]
  rfl

variable [Console] [Syntax.Parser]

omit [LawfulOptionParser] in
/-- Without a job a command ends as its plan says. -/
theorem ended_of_job_error {w : Workspace} {args : List String} {env : Environment} {o : Outcome}
    (h : (plan w env args).job = .error o) (now : Moment) : ((run args env now).run w).1 = o := by
  have hrun : (run args env now).run w =
      (act (plan w env args).job now).run { w with level := levelFor (plan w env args).verbose w.level } := rfl
  rw [hrun, h]
  rfl

/-- Where settings cannot be loaded, a command ends with the error. -/
theorem InOrder.ended_of_load_error {w : Workspace} {cmd : Command} {env : Environment} {args : List String}
    {p : Parsed} (h : InOrder w cmd env args p) {e : LoadError}
    (hload : Settings.load w ((p.value? .config).map Path.ofString) (optionFields env cmd p) = .error e)
    (now : Moment) : ((run (cmd.name :: args) env now).run w).1 = Outcome.ofLoadError e := by
  apply ended_of_job_error
  rw [h.plan_eq, loadPlan, hload]

end

/-! ## A workspace with a settings file -/

/-- A text as the bytes of a file; each of its characters is one byte. -/
def bytesOf (text : String) : List UInt8 := text.toList.map fun c => c.toNat.toUInt8

/-- A workspace with one file, which may be named as a settings file. -/
def oneSettings (bytes : List UInt8) : Workspace := { cwd := [], tree := [("gen.yaml", .file bytes)] }

def settingsPath : Path := Path.ofString "gen.yaml"

section
attribute [local instance] Surrogates.unassigned
variable (bytes : List UInt8)

theorem locate_oneSettings :
    (oneSettings bytes).locate true settingsPath = .ok (.found ["gen.yaml"] (.file bytes)) := by
  have hpath : settingsPath = ⟨.relative, ["gen.yaml"]⟩ := by decide
  have hfile : (oneSettings bytes).tree.get? ([] ++ ["gen.yaml"]) = some (.file bytes) := rfl
  rw [hpath]
  exact Workspace.locate_ok_iff.2 ⟨by decide, by decide, Folder.walk_file (by decide) (by decide) hfile⟩

theorem read_oneSettings : (oneSettings bytes).read settingsPath = .ok bytes :=
  Workspace.read_ok_iff.2 ⟨_, locate_oneSettings bytes⟩

theorem checkPath_oneSettings : checkPath (oneSettings bytes) .config "gen.yaml" = .ok () := by
  have htarget : target? (oneSettings bytes) "gen.yaml" = .ok (some (.file bytes)) := by
    have hlocate := locate_oneSettings bytes
    rw [settingsPath] at hlocate
    rw [target?, if_neg (by decide), hlocate]
    rfl
  rw [checkPath, htarget]
  rfl

end

/-! ## What is told -/

/-- **Errors of a settings file are told just if the file is orderly.**  This holds of loading with any options, and of
commands: one that loads the file and cannot ends as a fault of its arguments does, with the message of the error. -/
theorem file_told_iff [Surrogates] [Console] [Syntax.Parser] [Settings.DocumentReader] [Field.Validator]
    [OptionParser] [LawfulOptionParser] {w : Workspace} {path : Path} {bytes : List UInt8}
    (hfile : w.read path = .ok bytes) :
    (∀ options, (∀ e, Settings.load w (some path) options = .error e → e.isTold = true) ↔ Orderly bytes) ∧
    ∀ cmd env args p now, InOrder w cmd env args p → (p.value? .config).map Path.ofString = some path →
      ((∀ e, Settings.load w (some path) (optionFields env cmd p) = .error e →
        ((run (cmd.name :: args) env now).run w).1 = .usage e.message) ↔ Orderly bytes) := by
  have htold := Settings.load_told_iff hfile
  refine ⟨htold, fun cmd env args p now horder hconfig => ?_⟩
  rw [← htold (optionFields env cmd p)]
  refine forall_congr' fun e => imp_congr_right fun he => ?_
  rw [horder.ended_of_load_error (e := e) (by rw [hconfig, he]) now, ofLoadError_eq_usage_iff]

/-! ## Files with faults -/

/-- The arguments that name the settings file. -/
def namingSettings : List String := ["--config", "gen.yaml"]

section
attribute [local instance] Surrogates.unassigned Syntax.Parser.javascript Settings.DocumentReader.yaml
attribute [local instance] Field.Validator.lax OptionParser.posix LawfulOptionParser.posix Console.piped

theorem inOrder_namingSettings (bytes : List UInt8) :
    InOrder (oneSettings bytes) .scan {} namingSettings ⟨[(.config, "gen.yaml")], []⟩ where
  spelled := .separate (f := .config) (by decide) rfl "gen.yaml" .nil
  extra := rfl
  help := rfl
  values := by
    refine checkValues_ok_iff.2 fun f _ => ?_
    cases f with
    | config => exact checkPath_oneSettings bytes
    | _ => rfl

/-- A file with a field that there is not. -/
def strayField : List UInt8 := bytesOf "rootdir: x\n"

theorem read_strayField :
    Settings.DocumentReader.read "rootdir: x\n".toList =
      .ok (.mapping (Settings.entriesOf [("rootdir", .string "x")])) := by
  decide +kernel

theorem orderly_strayField : Orderly strayField := by
  refine ⟨"rootdir: x\n".toList, rfl, ?_⟩
  rw [read_strayField]
  refine ⟨nofun, fun es hes => ?_⟩
  cases hes
  exact Settings.exists_entriesOf_iff.1 ⟨_, rfl⟩

theorem load_strayField : Settings.load (oneSettings strayField) (some settingsPath) [] =
    .error (.invalid [⟨[.field "rootdir"], .unknownField⟩]) := by
  have hholds : Holds (oneSettings strayField) (some settingsPath) [("rootdir", .string "x")] :=
    Settings.holds_of_read (read_oneSettings strayField) rfl read_strayField
  rw [hholds.load_eq]
  rfl

theorem file_told_iff_strayField :
    (oneSettings strayField).read settingsPath = .ok strayField ∧
    InOrder (oneSettings strayField) .scan {} namingSettings ⟨[(.config, "gen.yaml")], []⟩ ∧ Orderly strayField ∧
    (LoadError.invalid [⟨[.field "rootdir"], .unknownField⟩]).isTold = true ∧
    ((run ("scan" :: namingSettings) {} midnight).run (oneSettings strayField)).1 =
      .usage "Invalid settings: 1 validation error for GeneratorSettings" := by
  have hfile := read_oneSettings strayField
  have horder := inOrder_namingSettings strayField
  obtain ⟨hload, hcommand⟩ := file_told_iff hfile
  refine ⟨hfile, horder, orderly_strayField, (hload []).2 orderly_strayField _ load_strayField, ?_⟩
  exact (hcommand .scan {} namingSettings _ midnight horder rfl).2 orderly_strayField _ load_strayField

/-- A byte that starts no character makes loading end in an error that is not told, and the command with it. -/
theorem file_untold_strayByte :
    (oneSettings [255]).read settingsPath = .ok [255] ∧
    Settings.load (oneSettings [255]) (some settingsPath) [] = .error (.notText ⟨.invalidStart, 0, 1, 255⟩) ∧
    (LoadError.notText ⟨.invalidStart, 0, 1, 255⟩).isTold = false ∧
    ((run ("scan" :: namingSettings) {} midnight).run (oneSettings [255])).1.exitCode = 1 := by
  have hload : Settings.load (oneSettings [255]) (some settingsPath) [] =
      .error (.notText ⟨.invalidStart, 0, 1, 255⟩) := by
    rw [Settings.load_eq, Settings.namedEntries, Settings.fileEntries, read_oneSettings]
    rfl
  refine ⟨read_oneSettings [255], hload, rfl, ?_⟩
  rw [show "scan" = Command.scan.name from rfl, (inOrder_namingSettings [255]).ended_of_load_error hload midnight]
  rfl

end

end RequestAtlas.CommandLine
