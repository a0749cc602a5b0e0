import RequestAtlas.Calendar.Date
import RequestAtlas.Literal.Numeral
/-!
# Faults of settings files

A file that is no document is malformed.  A well-formed document may still contain a scalar that has the form
of a value but denotes none, such as the thirteenth month.
-/

namespace RequestAtlas.Yaml

/-- A scalar that denotes no value. -/
inductive Invalid where
  /-- An escape for a character that does not exist. -/
  | codePoint
  | date (error : Date.Error)
  | hour
  | minute
  | second
  /-- An offset from universal time, in seconds, of a day or more. -/
  | offset (seconds : Int)
  | digits (error : Literal.NumeralError)
  /-- A number with more digits than are read. -/
  | long (count : Nat)
  | decimal (text : String)
  /-- A word marked as a truth value that is none. -/
  | word
  /-- A text marked as a time that is none. -/
  | moment
  /-- A text marked as a number that is empty. -/
  | emptyNumber
deriving DecidableEq, Repr

/-- A span of time as days and seconds. -/
def spanText (seconds : Int) : String :=
  let days := seconds.fdiv 86400
  let rest := seconds.fmod 86400
  let parts :=
    (if days = 0 then [] else ["days=" ++ toString days]) ++
    (if rest = 0 then [] else ["seconds=" ++ toString rest])
  "datetime.timedelta(" ++ (if parts.isEmpty then "0" else ", ".intercalate parts) ++ ")"

def Invalid.message [Surrogates] : Invalid → String
  | .codePoint => "chr() arg not in range(0x110000)"
  | .date e => e.message
  | .hour => "hour must be in 0..23"
  | .minute => "minute must be in 0..59"
  | .second => "second must be in 0..59"
  | .offset s =>
    "offset must be a timedelta strictly between -timedelta(hours=24) and timedelta(hours=24), not " ++
      spanText s ++ "."
  | .digits e => e.message
  | .long n =>
    "Exceeds the limit (4300 digits) for integer string conversion: value has " ++ toString n ++
      " digits; use sys.set_int_max_str_digits() to increase the limit"
  | .decimal t => "could not convert string to float: " ++ Text.quoted t
  | .word => "no truth value"
  | .moment => "no time"
  | .emptyNumber => "no number"

/-- Why a document cannot be read. -/
inductive Error where
  | malformed
  | invalid (cause : Invalid)
deriving DecidableEq, Repr

end RequestAtlas.Yaml
