import RequestAtlas.CommandLine.Arguments
import RequestAtlas.CommandLine.Console
import RequestAtlas.Generation
import RequestAtlas.Settings.Layers
/-!
# Running commands

What the program prints and how it ends, for given arguments, surroundings and time.  `plan` checks the
arguments and loads the settings without changing anything; `run` then does the work of the command.
-/

namespace RequestAtlas.CommandLine

/-- Settings from outside the arguments; an empty one counts as none. -/
structure Environment where
  root : String := ""
  name : String := ""
deriving Repr, Inhabited

/-- An error that is not answered but ends the program. -/
inductive Crash where
  | work (failure : Failure)
  | load (error : Settings.LoadError)
deriving DecidableEq, Repr

def Crash.message [Surrogates] : Crash → String
  | work e => e.message
  | load e => e.message

/-- How the program ends. -/
structure Outcome where
  exitCode : Nat
  stdout : String := ""
  /-- The message on the error stream. -/
  error : Option String := none
  crash : Option Crash := none
deriving DecidableEq, Repr, Inhabited

/-- A fault of the arguments or settings. -/
def Outcome.usage (message : String) : Outcome := { exitCode := 2, error := some message }

/-- An end by an error that is not answered. -/
def Outcome.crashed (stdout : String) (c : Crash) : Outcome := { exitCode := 1, stdout, crash := some c }

/-! ## Values of options -/

/-- The value of an option, from the arguments or from outside. -/
def valueOf (env : Environment) (p : Parsed) (f : Flag) : Option String :=
  match p.value? f with
  | some v => some v
  | none =>
    let outside := match f with
      | .root => env.root
      | .name => env.name
      | _ => ""
    if outside = "" then none else some outside

/-- What can be wrong with the value of an option. -/
inductive OptionError where
  | usage (error : UsageError)
  | file (error : FileError)
deriving DecidableEq, Repr

variable [Surrogates]

/-- Where the text of a path leads.  The empty text leads nowhere, and a slash at the end leads into a folder
only. -/
def target? (w : Workspace) (path : String) : Except FileError (Option Entry) :=
  if path = "" then .ok none
  else
    let inside := Text.endsWith path "/" || Text.endsWith path "/."
    match w.locate true (Path.ofString path) with
    | .ok (.found _ e) => .ok (if inside && !e.isFolder then none else some e)
    | .ok (.free _) => .ok none
    | .error (.invalid f) => .error (.invalid f)
    | .error _ => .ok none

/-- Check the path that an option names (`click.Path`). -/
def checkPath (w : Workspace) (f : Flag) (path : String) : Except OptionError Unit :=
  match target? w path with
  | .error e => .error (.file e)
  | .ok (some (.folder _)) => if f = .config then .error (.usage (.isFolder f path)) else .ok ()
  | .ok (some _) =>
    if f = .baseDir ∨ f = .outDir then .error (.usage (.isFile f path)) else .ok ()
  | .ok none => if f = .config then .error (.usage (.notFound f path)) else .ok ()

/-- Whether the value of an option is a path. -/
def Flag.isPath : Flag → Bool
  | .root => true
  | .baseDir => true
  | .config => true
  | .outDir => true
  | _ => false

/-- The options of a command in the order in which their values are checked: those given, then the others. -/
def checkOrder (cmd : Command) (p : Parsed) : List Flag := p.options.map (·.1) ++ cmd.flags

/-- Check the values of all options. -/
def checkValues (w : Workspace) (env : Environment) (cmd : Command) (p : Parsed) :
    Except OptionError Unit :=
  (checkOrder cmd p).forM fun f =>
    match valueOf env p f with
    | some v => if f.isPath && cmd.flags.contains f then checkPath w f v else .ok ()
    | none => .ok ()

/-- The options of a command as fields of settings, as `_load` passes them on. -/
def optionFields (env : Environment) (cmd : Command) (p : Parsed) : List (String × Datum) :=
  let given (f : Flag) (field : String) : List (String × Datum) :=
    if cmd.flags.contains f then ((valueOf env p f).map fun v => (field, Datum.string v)).toList else []
  let extensions := p.values .ext
  (if extensions.isEmpty then [] else [("extensions", Datum.list (extensions.map Datum.string))]) ++
    given .root "root_dir" ++ given .baseDir "base_dir" ++ given .client "client_name" ++
    given .name "collection_name" ++ given .outDir "out_dir"

/-! ## Commands -/

/-- The level that a number of requests for a more detailed log asks for. -/
def levelFor (verbose : Nat) (level : Int) : Int :=
  if verbose = 0 then level else if verbose = 1 then Log.info else Log.debug

variable [Console] [Syntax.Parser]

/-- An end after printing some lines (`click.echo`) behind what was printed before. -/
def Outcome.printing (before : String) (ls : List String) : Outcome :=
  match printed ls with
  | (text, none) => { exitCode := 0, stdout := before ++ text }
  | (text, some e) => .crashed (before ++ text) (.work (.encoding e))

/-- Write the documents (`generate`). -/
def generate (s : Settings) (now : Moment) : StateM Workspace Outcome := do
  match printed ["Scanning numbered source dirs in " ++ s.rootPath.text ++ "..."] with
  | (started, some e) => return .crashed started (.work (.encoding e))
  | (started, none) =>
    match ← (Generation.run s now).run with
    | .ok r =>
      return .printing started
        ["Source files found: " ++ toString r.fileCount,
         "Requests extracted: " ++ toString r.requestCount,
         "Generated: " ++ r.collectionPath.text,
         "Generated: " ++ r.environmentPath.text]
    | .error (.file (.fault f p)) =>
      return {
        exitCode := 1
        stdout := started
        error := some ("Failed to write output: " ++ (FileError.fault f p).message) }
    | .error e => return .crashed started (.work e)

/-- List the requests that would be written (`scan`). -/
def scan (s : Settings) : StateM Workspace Outcome := do
  match ← (Generation.collect s).run with
  | .ok (files, requests) =>
    let cwd := (← get).cwd
    return .printing ""
      ((Request.sort requests).map (Document.requestName cwd s.baseDir) ++
        ["Found " ++ toString requests.length ++ " requests in " ++ toString files.length ++ " files."])
  | .error e => return .crashed "" (.work e)

/-! ## Plans -/

/-- A command with the settings that it works with. -/
structure Job where
  command : Command
  settings : Settings
deriving Repr

/-- Do the work of a command. -/
def Job.perform (j : Job) (now : Moment) : StateM Workspace Outcome :=
  match j.command with
  | .generate => generate j.settings now
  | .scan => scan j.settings

/-- What arguments lead to: a job, or an end without one.  How often a more detailed log is asked for counts
in either case. -/
structure Plan where
  verbose : Nat := 0
  job : Except Outcome Job

/-- A plan without a job. -/
def Plan.stop (o : Outcome) : Plan := { job := .error o }

/-- How the program ends when settings cannot be loaded. -/
def Outcome.ofLoadError (e : Settings.LoadError) : Outcome :=
  match e with
  | .unreadable _ => .usage e.message
  | .notMapping _ => .usage e.message
  | .invalid _ => .usage e.message
  | e => .crashed "" (.load e)

variable [Settings.DocumentReader] [Field.Validator] [OptionParser]

/-- The plan for a command whose arguments are in order: its settings are loaded (`_load`). -/
def loadPlan (w : Workspace) (cmd : Command) (env : Environment) (p : Parsed) : Plan :=
  { verbose := p.count .verbose
    job :=
      match Settings.load w ((p.value? .config).map Path.ofString) (optionFields env cmd p) with
      | .ok s => .ok ⟨cmd, s⟩
      | .error e => .error (.ofLoadError e) }

/-- The plan for a command with its arguments. -/
def commandPlan (w : Workspace) (cmd : Command) (env : Environment) (args : List String) : Plan :=
  match OptionParser.parse cmd.flags true args with
  | .error e => .stop (.usage e.message)
  | .ok p =>
    if 0 < p.count .help then .stop { exitCode := 0 }
    else
      match checkValues w env cmd p with
      | .error (.usage e) => .stop (.usage e.message)
      | .error (.file e) => .stop (.crashed "" (.work (.file e)))
      | .ok () =>
        if p.extra.isEmpty then loadPlan w cmd env p
        else .stop (.usage (UsageError.extraArguments p.extra).message)

/-- The plan for all arguments (`main`). -/
def plan (w : Workspace) (env : Environment) (args : List String) : Plan :=
  if args.isEmpty then .stop { exitCode := 2 }
  else
    match OptionParser.parse [.help] false args with
    | .error e => .stop (.usage e.message)
    | .ok p =>
      if 0 < p.count .help then .stop { exitCode := 0 }
      else
        match p.extra with
        | [] => .stop (.usage UsageError.noCommand.message)
        | name :: rest =>
          match Command.ofName? name with
          | some cmd => commandPlan w cmd env rest
          | none => .stop (.usage (UsageError.noSuchCommand name).message)

/-- The paths that are looked at before there is a job: those that options may name. -/
def namedPaths (env : Environment) (args : List String) : List Path :=
  let values := args.flatMap fun a => [a, "=".intercalate ((a.splitOn "=").drop 1)]
  ((env.root :: values).filter (· != "")).map Path.ofString

/-- The paths that a job writes to. -/
def Job.outputs (j : Job) : List Path := [j.settings.collectionPath, j.settings.environmentPath]

/-- Run the program. -/
def run (args : List String) (env : Environment) (now : Moment) : StateM Workspace Outcome := do
  let p := plan (← get) env args
  modify fun w => { w with level := levelFor p.verbose w.level }
  match p.job with
  | .ok j => j.perform now
  | .error o => return o

end RequestAtlas.CommandLine
