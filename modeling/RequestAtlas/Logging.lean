import RequestAtlas.Text.Affix
import RequestAtlas.Text.Blank
import RequestAtlas.Text.Quoted
import RequestAtlas.Text.Upper
/-!
# Logging

Work is accompanied by log entries of different weight.  Everything that happens is recorded; the level
decides which entries are shown.
-/

namespace RequestAtlas

/-- A log entry. -/
structure LogEntry where
  level : Int
  logger : String
  message : String
deriving DecidableEq, Repr, Inhabited

namespace Log

def debug : Int := 10

def info : Int := 20

def warning : Int := 30

/-- The logger above all others. -/
def package : String := "postman_collection_gen"

/-- How an entry is laid out on the error stream. -/
def format : String := "[%(asctime)s] %(levelname)s:%(name)s:%(message)s"

/-- The names of levels; some levels have two. -/
def names : List (String × Int) :=
  [("CRITICAL", 50), ("FATAL", 50), ("ERROR", 40), ("WARNING", 30), ("WARN", 30), ("INFO", 20),
    ("DEBUG", 10), ("NOTSET", 0)]

/-- The level of a name. -/
def ofName? (name : String) : Option Int := (names.find? (·.1 == name)).map (·.2)

/-- The name of a level. -/
def name (level : Int) : String :=
  match names.find? (·.2 == level) with
  | some (n, _) => n
  | none => "Level " ++ toString level

/-- The level that a setting from outside asks for (`level_from_env`); a warning level if it is no name of a level. -/
def ofSetting (value : Option String) : Int :=
  let word := String.ofList (Text.trim ((value.getD "").toList))
  (ofName? (Text.upper word)).getD warning

/-- A name that is no level's. -/
structure UnknownLevel where
  name : String
deriving DecidableEq, Repr

def UnknownLevel.message [Surrogates] (e : UnknownLevel) : String := "Unknown level: " ++ Text.quoted e.name

/-- The level of a name given exactly. -/
def ofExactName (name : String) : Except UnknownLevel Int :=
  match ofName? name with
  | some l => .ok l
  | none => .error ⟨name⟩

/-- The level that counts: no level at all means warnings. -/
def effective (level : Int) : Int := if level = 0 then warning else level

/-- Whether an entry is shown at a level.  Entries without weight never are. -/
def shows (level : Int) (e : LogEntry) : Bool := 0 < e.level && effective level ≤ e.level

/-- The entries shown at a level. -/
def shown (level : Int) (es : List LogEntry) : List LogEntry := es.filter (shows level)

/-- Whether a logger belongs to the package. -/
def belongs (logger : String) : Bool := logger == package || Text.startsWith logger (package ++ ".")

end Log

/-- An entry as one line. -/
def LogEntry.text (e : LogEntry) : String := Log.name e.level ++ ":" ++ e.logger ++ ":" ++ e.message

/-- An entry as it stands on the error stream, with the text of the time. -/
def LogEntry.line (time : String) (e : LogEntry) : String := "[" ++ time ++ "] " ++ e.text

end RequestAtlas
