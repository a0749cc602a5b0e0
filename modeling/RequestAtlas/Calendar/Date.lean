/-!
# Dates

Gregorian dates and their day numbers.  Day 1 is the first of January of the year 1; the calendar ends with
the year 9999.
-/

namespace RequestAtlas

/-- A date of the Gregorian calendar. -/
structure Date where
  year : Nat
  month : Nat
  day : Nat
deriving DecidableEq, Repr, Inhabited

namespace Date

def maxYear : Nat := 9999

def isLeap (year : Nat) : Bool := year % 4 == 0 && (year % 100 != 0 || year % 400 == 0)

/-- The lengths of the months of a year. -/
def monthLengths (year : Nat) : List Nat :=
  [31, if isLeap year then 29 else 28, 31, 30, 31, 30, 31, 31, 30, 31, 30, 31]

/-- The length of a month; there is none outside 1 to 12. -/
def monthLength (year month : Nat) : Nat :=
  if month = 0 then 0 else ((monthLengths year)[month - 1]?).getD 0

/-- The number of days before the first of January of a year. -/
def daysBeforeYear (year : Nat) : Nat :=
  let y := year - 1
  365 * y + y / 4 - y / 100 + y / 400

/-- The number of days of a year before the first of a month. -/
def daysBeforeMonth (year month : Nat) : Nat := ((monthLengths year).take (month - 1)).foldl (· + ·) 0

/-- The number of a date. -/
def number (d : Date) : Nat := daysBeforeYear d.year + daysBeforeMonth d.year d.month + d.day

/-- The number of the last date of the calendar. -/
def lastNumber : Nat := 3652059

/-- Find the month of a day given by its distance from the first of January. -/
def monthAndDay (month : Nat) (rest : Nat) : List Nat → Nat × Nat
  | [] => (month, rest + 1)
  | n :: ns => if rest < n then (month, rest + 1) else monthAndDay (month + 1) (rest - n) ns

/-- The date with the given number.  Years repeat in cycles of 400, 100, 4 and 1; the last year of a cycle
of 4 and of 400 is one day longer than the others, which the two bounds by 3 take care of. -/
def ofNumber (number : Nat) : Date :=
  let n := number - 1
  let c400 := n / 146097
  let n := n % 146097
  let c100 := min (n / 36524) 3
  let n := n - 36524 * c100
  let c4 := n / 1461
  let n := n % 1461
  let c1 := min (n / 365) 3
  let n := n - 365 * c1
  let year := 400 * c400 + 100 * c100 + 4 * c4 + c1 + 1
  let (month, day) := monthAndDay 1 n (monthLengths year)
  { year, month, day }

/-- Why three numbers are no date. -/
inductive Error where
  | year (n : Nat)
  | month
  | day
deriving DecidableEq, Repr

def Error.message : Error → String
  | .year n => "year " ++ toString n ++ " is out of range"
  | .month => "month must be in 1..12"
  | .day => "day is out of range for month"

/-- Check that three numbers are a date. -/
def check (d : Date) : Except Error Unit :=
  if d.year = 0 ∨ maxYear < d.year then .error (.year d.year)
  else if d.month = 0 ∨ 12 < d.month then .error .month
  else if d.day = 0 ∨ monthLength d.year d.month < d.day then .error .day
  else .ok ()

end Date

end RequestAtlas
