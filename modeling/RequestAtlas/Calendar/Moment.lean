import RequestAtlas.Calendar.Date
/-!
# Moments

A date with a time of day and the distance of its zone from universal time.  `Moment.utc` moves a moment to
universal time, which fails where the calendar ends; `Moment.stamp` writes it to the millisecond.
-/

namespace RequestAtlas

/-- A time on a date.  Without an offset the time is universal already. -/
structure Moment where
  date : Date
  hour : Nat
  minute : Nat
  second : Nat
  microsecond : Nat
  /-- Seconds by which the clock is ahead of universal time. -/
  offset : Option Int := none
deriving DecidableEq, Repr, Inhabited

namespace Moment

/-- Why a moment has no universal time. -/
inductive Error where
  /-- The date in universal time lies outside the calendar. -/
  | outOfRange
  /-- The day before a moment without an offset is outside the calendar, so its zone cannot be found. -/
  | yearOutOfRange
deriving DecidableEq, Repr

def Error.message : Error → String
  | .outOfRange => "date value out of range"
  | .yearOutOfRange => "year 0 is out of range"

/-- Seconds in a day. -/
def daySeconds : Nat := 86400

/-- The seconds from the start of day 0 to the moment, by its own clock. -/
def localSeconds (m : Moment) : Int :=
  (m.date.number * daySeconds + 3600 * m.hour + 60 * m.minute + m.second : Nat)

/-- The seconds from the start of day 0 to the moment, by universal time. -/
def utcSeconds (m : Moment) : Int := m.localSeconds - m.offset.getD 0

/-- The moment of universal time that lies the given seconds after the start of day 0. -/
def ofSeconds (seconds : Nat) (microsecond : Nat) : Moment :=
  let s := seconds % daySeconds
  { date := Date.ofNumber (seconds / daySeconds)
    hour := s / 3600
    minute := s / 60 % 60
    second := s % 60
    microsecond
    offset := some 0 }

/-- The first day of the count of seconds that clocks keep. -/
def epoch : Date := ⟨1970, 1, 1⟩

/-- The moment that lies the given microseconds after the start of the epoch. -/
def ofMicroseconds (n : Nat) : Moment :=
  ofSeconds (epoch.number * daySeconds + n / 1000000) (n % 1000000)

/-- The same moment by universal time. -/
def utc (m : Moment) : Except Error Moment :=
  if m.offset.isNone && m.utcSeconds < (2 * daySeconds : Nat) then .error .yearOutOfRange
  else if m.utcSeconds < daySeconds || ((Date.lastNumber + 1) * daySeconds : Nat) ≤ m.utcSeconds then
    .error .outOfRange
  else .ok (ofSeconds m.utcSeconds.toNat m.microsecond)

/-- Decimal digits, filled up with zeros to the given width. -/
def padded (width n : Nat) : String :=
  let ds := Nat.toDigits 10 n
  String.ofList (List.replicate (width - ds.length) '0' ++ ds)

/-- A moment's own date and time to the millisecond.  The year is not filled up. -/
def text (m : Moment) : String :=
  toString m.date.year ++ "-" ++ padded 2 m.date.month ++ "-" ++ padded 2 m.date.day ++ "T" ++
    padded 2 m.hour ++ ":" ++ padded 2 m.minute ++ ":" ++ padded 2 m.second ++ "." ++
    padded 3 (m.microsecond / 1000) ++ "Z"

/-- A moment's own date and time as a log shows it. -/
def logText (m : Moment) : String :=
  padded 4 m.date.year ++ "-" ++ padded 2 m.date.month ++ "-" ++ padded 2 m.date.day ++ " " ++
    padded 2 m.hour ++ ":" ++ padded 2 m.minute ++ ":" ++ padded 2 m.second ++ "," ++
    padded 3 (m.microsecond / 1000)

/-- The text of a moment in universal time (`_iso_timestamp`). -/
def stamp (m : Moment) : Except Error String := m.utc.map text

end Moment

end RequestAtlas
