import Sitewright.Error
import Sitewright.Text.Case
import Sitewright.Text.Integer
import Sitewright.Text.Split
import Sitewright.Text.Words
import Sitewright.Time.DateTime

/-!
Dates as letters carry them: day, month, year, time of day and zone, each a word, with the day of
the week in front or not. Older forms are read too, with hyphens in the date, the month first, or
the time before the year.
-/

namespace Sitewright.Time.MailDate

def weekdays : List String := ["mon", "tue", "wed", "thu", "fri", "sat", "sun"]

def shortMonths : List String :=
  ["jan", "feb", "mar", "apr", "may", "jun", "jul", "aug", "sep", "oct", "nov", "dec"]

def longMonths : List String :=
  ["january", "february", "march", "april", "may", "june", "july", "august", "september",
   "october", "november", "december"]

/-- The zones that have a name, by hours and minutes written as one number. -/
def zones : List (String × Int) :=
  [("UT", 0), ("UTC", 0), ("GMT", 0), ("Z", 0), ("AST", -400), ("ADT", -300), ("EST", -500),
   ("EDT", -400), ("CST", -600), ("CDT", -500), ("MST", -700), ("MDT", -600), ("PST", -800),
   ("PDT", -700)]

def lower (word : List Char) : String := Text.lower (String.ofList word)

/-- The words of a date without the day of the week, which may cling to the first of them. -/
def withoutWeekday : List (List Char) → List (List Char)
  | [] => []
  | first :: rest =>
    if first.getLast? = some ',' || weekdays.contains (lower first) then rest
    else (Text.split ',' first).getLastD first :: rest

def spread : List (List Char) → List (List Char)
  | [date, clock, zone] =>
    match Text.split '-' date with
    | [day, month, year] => [day, month, year, clock, zone]
    | _ => [date, clock, zone]
  | words => words

def signPlace? (word : List Char) : Option Nat :=
  match word.findIdx? (· = '+') with
  | some i => some i
  | none => word.findIdx? (· = '-')

def withZone : List (List Char) → List (List Char)
  | [day, month, year, clock] =>
    match signPlace? clock with
    | some (i + 1) => [day, month, year, clock.take (i + 1), clock.drop (i + 1)]
    | _ => [day, month, year, clock, []]
  | words => words

def withoutComma (word : List Char) : List Char :=
  if word.getLast? = some ',' then word.dropLast else word

def month? (word : List Char) : Option Nat :=
  match shortMonths.findIdx? (· = lower word) with
  | some i => some (i + 1)
  | none => (longMonths.findIdx? (· = lower word)).map (· + 1)

/-- The parts of the time of day. Where no colon stands, points may stand for it. -/
def clockParts? (word : List Char) : Option (List Char × List Char × List Char) :=
  match Text.split ':' word with
  | [hour, minute] => some (hour, minute, ['0'])
  | [hour, minute, second] => some (hour, minute, second)
  | [_] =>
    match Text.split '.' word with
    | [hour, minute] => some (hour, minute, ['0'])
    | [hour, minute, second] => some (hour, minute, second)
    | _ => none
  | _ => none

/-- The parts of a date as numbers that need not make a date. -/
structure Numbers where
  year : Int
  month : Nat
  day : Int
  hour : Int
  minute : Int
  second : Int
  /-- Seconds east of universal time. -/
  zone : Option Int
  deriving DecidableEq, Repr

/-- Years of two digits are those from 1969 to 2068. -/
def fullYear (year : Int) : Int :=
  if 100 ≤ year then year else if 68 < year then year + 1900 else year + 2000

/-- The seconds of a zone. No distance from universal time, written with a minus, is no zone. -/
def zone? (word : List Char) : Option Int :=
  let name := Text.upper (String.ofList word)
  let seconds (n : Int) : Int :=
    let size := (n.natAbs / 100 * 3600 + n.natAbs % 100 * 60 : Nat)
    if n < 0 then -(size : Int) else size
  match zones.find? (·.1 = name) with
  | some (_, n) => some (seconds n)
  | none =>
    match Text.intOfText? name with
    | some n => if n = 0 && name.toList.head? = some '-' then none else some (seconds n)
    | none => none

def arranged? (year clock zone : List Char) :
    Option (List Char × List Char × List Char) :=
  let late := year.contains ':' && year.head? ≠ some ':'
  let (year, clock) := if late then (clock, year) else (year, clock)
  match withoutComma year with
  | [] => none
  | c :: rest =>
    if Text.isDigit c then some (c :: rest, clock, zone) else some (zone, clock, c :: rest)

def numbers? (words : List (List Char)) : Option Numbers :=
  match words with
  | day :: month :: year :: clock :: zone :: _ => do
    if day.isEmpty || month.isEmpty || year.isEmpty then none
    let (day, month) ← match month? month with
      | some m => some (day, m)
      | none => (month? day).map fun m => ((lower month).toList, m)
    let (year, clock, zone) ← arranged? year clock zone
    let (hour, minute, second) ← clockParts? (withoutComma clock)
    let number := Text.intOfChars?
    return { year := fullYear (← number year), month, day := ← number (withoutComma day),
             hour := ← number hour, minute := ← number minute, second := ← number second,
             zone := zone? zone }
  | _ => none

def wordsOf (cs : List Char) : List (List Char) :=
  withZone (spread (withoutWeekday (Text.words (!Text.isBlank ·) cs)))

def maxDays : Int := 999999999

def isHuge (n : Int) : Bool := n < -2147483648 || 2147483647 < n

/-- The date that numbers make, if they make one. Numbers beyond all bounds are an error. -/
def Numbers.date (n : Numbers) : Except Error (Option DateTime) := do
  let days := Int.fdiv (n.zone.getD 0) 86400
  if days < -maxDays || maxDays < days then throw .numberTooLarge
  let offset := n.zone.map (· * 1000000)
  if (offset.getD 0).natAbs ≥ 86400000000 then return none
  if [n.year, n.day, n.hour, n.minute, n.second].any isHuge then throw .numberTooLarge
  if [n.year, n.day, n.hour, n.minute, n.second].any (· < 0) then return none
  let date : DateTime :=
    { year := n.year.toNat, month := n.month, day := n.day.toNat, hour := n.hour.toNat
      minute := n.minute.toNat, second := n.second.toNat, offset }
  return if date.Valid then some date else none

def read (s : String) : Except Error (Option DateTime) :=
  match numbers? (wordsOf s.toList) with
  | none => .ok none
  | some numbers => numbers.date

end Sitewright.Time.MailDate
