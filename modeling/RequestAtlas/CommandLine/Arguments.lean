import RequestAtlas.Text.Quoted
/-!
# Arguments

The words behind the name of the program: a command and its options.  An option is given as `--name value` or
`--name=value`; a repeated letter asks for more words in the log.
-/

namespace RequestAtlas.CommandLine

/-- What the program can be asked to do. -/
inductive Command where
  /-- Write the documents. -/
  | generate
  /-- List the requests. -/
  | scan
deriving DecidableEq, Repr, Inhabited

def Command.name : Command → String
  | .generate => "generate"
  | .scan => "scan"

def Command.ofName? (name : String) : Option Command := [.generate, .scan].find? (·.name == name)

/-- An option. -/
inductive Flag where
  | root
  | baseDir
  | config
  | client
  | ext
  | verbose
  | name
  | outDir
  | help
deriving DecidableEq, Repr, Inhabited

namespace Flag

/-- How an option is written. -/
def text : Flag → String
  | root => "--root"
  | baseDir => "--base-dir"
  | config => "--config"
  | client => "--client"
  | ext => "--ext"
  | verbose => "--verbose"
  | name => "--name"
  | outDir => "--out-dir"
  | help => "--help"

def takesValue : Flag → Bool
  | verbose => false
  | help => false
  | _ => true

end Flag

/-- The options of a command, those of `_source_options` and its own, in the order in which those not given are looked
at. -/
def Command.flags : Command → List Flag
  | .scan => [.root, .baseDir, .config, .client, .ext, .verbose, .help]
  | .generate => [.root, .baseDir, .config, .client, .ext, .verbose, .name, .outDir, .help]

/-- Why arguments make no sense. -/
inductive UsageError where
  | noSuchOption (text : String)
  | noSuchCommand (text : String)
  | noCommand
  | noValue (text : String)
  | unwantedValue (text : String)
  | extraArguments (args : List String)
  | notFound (flag : Flag) (path : String)
  | isFolder (flag : Flag) (path : String)
  | isFile (flag : Flag) (path : String)
deriving DecidableEq, Repr

def UsageError.message [Surrogates] : UsageError → String
  | .noSuchOption t => "No such option " ++ Text.quoted t ++ "."
  | .noSuchCommand t => "No such command " ++ Text.quoted t ++ "."
  | .noCommand => "Missing command."
  | .noValue t => "Option " ++ Text.quoted t ++ " requires an argument."
  | .unwantedValue t => "Option " ++ Text.quoted t ++ " does not take a value."
  | .extraArguments args =>
    "Got unexpected extra argument" ++ (if args.length = 1 then "" else "s") ++ " (" ++
      " ".intercalate args ++ ")"
  | .notFound f p => "Invalid value for '" ++ f.text ++ "': File " ++ Text.quoted p ++ " does not exist."
  | .isFolder f p => "Invalid value for '" ++ f.text ++ "': File " ++ Text.quoted p ++ " is a directory."
  | .isFile f p => "Invalid value for '" ++ f.text ++ "': Directory " ++ Text.quoted p ++ " is a file."

/-- Arguments taken apart: the options in the order given, and what is no option. -/
structure Parsed where
  options : List (Flag × String) := []
  extra : List String := []
deriving Repr, Inhabited

namespace Parsed

/-- The last value of an option. -/
def value? (p : Parsed) (f : Flag) : Option String :=
  ((p.options.filter (·.1 == f)).getLast?).map (·.2)

/-- All values of an option. -/
def values (p : Parsed) (f : Flag) : List String := (p.options.filter (·.1 == f)).map (·.2)

/-- How often an option is given. -/
def count (p : Parsed) (f : Flag) : Nat := (p.options.filter (·.1 == f)).length

def option (f : Flag) (value : String) (p : Parsed) : Parsed := { p with options := (f, value) :: p.options }

def argument (arg : String) (p : Parsed) : Parsed := { p with extra := arg :: p.extra }

end Parsed

/-- The letters of an argument with one dash; only the letter for a more detailed log is known. -/
def letters (flags : List Flag) : List Char → Except UsageError (List (Flag × String))
  | [] => .ok []
  | c :: cs =>
    if c = 'v' ∧ flags.contains .verbose then do return (.verbose, "") :: (← letters flags cs)
    else .error (.noSuchOption (String.ofList ['-', c]))

/-- Take apart the arguments of a command.  Behind two dashes nothing is an option; without `mixed` nothing is
behind the first argument either. -/
def parse (flags : List Flag) (mixed : Bool) : List String → Except UsageError Parsed
  | [] => .ok {}
  | arg :: rest =>
    match arg.toList with
    | ['-', '-'] => .ok { extra := rest }
    | '-' :: '-' :: word => do
      let name := String.ofList ('-' :: '-' :: word.takeWhile (· != '='))
      let attached? :=
        if word.contains '=' then some (String.ofList ((word.dropWhile (· != '=')).drop 1)) else none
      match flags.find? (·.text == name), attached? with
      | none, _ => .error (.noSuchOption name)
      | some f, some value =>
        if f.takesValue then do return (← parse flags mixed rest).option f value
        else .error (.unwantedValue name)
      | some f, none =>
        if f.takesValue then
          match rest with
          | value :: rest => do return (← parse flags mixed rest).option f value
          | [] => .error (.noValue name)
        else do return (← parse flags mixed rest).option f ""
    | '-' :: c :: cs => do
      let given ← letters flags (c :: cs)
      let p ← parse flags mixed rest
      return { p with options := given ++ p.options }
    | _ =>
      if mixed then do return (← parse flags mixed rest).argument arg
      else .ok { extra := arg :: rest }

/-- What takes arguments apart (`click`), a library of its own.  Without `mixed` nothing behind the first word that is
no option is one. -/
class OptionParser where
  parse (flags : List Flag) (mixed : Bool) (args : List String) : Except UsageError Parsed

/-- The parser that is described here. -/
@[reducible]
def OptionParser.posix : OptionParser := ⟨CommandLine.parse⟩

end RequestAtlas.CommandLine
