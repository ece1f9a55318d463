/-!
The Gregorian calendar from year 1 to year 9999, and points in time as microseconds since the
beginning of 1970 in universal time.
-/

namespace Sitewright.Time

def isLeap (year : Nat) : Bool := year % 4 == 0 && (year % 100 != 0 || year % 400 == 0)

def monthLength (year month : Nat) : Nat :=
  match month with
  | 2 => if isLeap year then 29 else 28
  | 4 | 6 | 9 | 11 => 30
  | _ => 31

def daysBeforeYear (year : Nat) : Nat :=
  let y := year - 1
  y * 365 + y / 4 - y / 100 + y / 400

def daysBeforeMonth (year : Nat) : Nat → Nat
  | 0 | 1 => 0
  | month + 1 => daysBeforeMonth year month + monthLength year month

def dayNumber (year month day : Nat) : Nat :=
  daysBeforeYear year + daysBeforeMonth year month + (day - 1)

/-- The days from the first day of year 1 to that of 1970. -/
def epochDay : Nat := 719162

def calendarDays : Nat := 3652059

/-- Month and day of a day counted from zero within its year, from the given month on. -/
def monthDay (year : Nat) : Nat → Nat → Nat → Nat × Nat
  | 0, month, d => (month, d + 1)
  | fuel + 1, month, d =>
    if d < monthLength year month then (month, d + 1)
    else monthDay year fuel (month + 1) (d - monthLength year month)

/-- Year, month and day of a day number. The 400 year cycle is cut into centuries, those into spans
of four years, and those into years; the last day of a cycle or span is the one left over. -/
def dateOf (n : Nat) : Nat × Nat × Nat :=
  let n400 := n / 146097
  let r400 := n % 146097
  let n100 := min (r400 / 36524) 3
  let r100 := r400 - n100 * 36524
  let n4 := r100 / 1461
  let r4 := r100 % 1461
  let n1 := min (r4 / 365) 3
  let year := n400 * 400 + n100 * 100 + n4 * 4 + n1 + 1
  let (month, day) := monthDay year 11 1 (r4 - n1 * 365)
  (year, month, day)

/-- Monday is 0. -/
def weekday (dayNumber : Nat) : Nat := dayNumber % 7

def microsPerDay : Int := 86400000000

/-- Microseconds since the beginning of 1970 in universal time. -/
abbrev Instant := Int

end Sitewright.Time
