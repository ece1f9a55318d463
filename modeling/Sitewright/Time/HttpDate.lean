import Sitewright.Text.Decimal
import Sitewright.Time.DateTime

namespace Sitewright.Time

open Text (padded takeNumber?)

def weekdayNames : List String := ["Mon", "Tue", "Wed", "Thu", "Fri", "Sat", "Sun"]

def monthNames : List String :=
  ["Jan", "Feb", "Mar", "Apr", "May", "Jun", "Jul", "Aug", "Sep", "Oct", "Nov", "Dec"]

def DateTime.clockChars (t : DateTime) : List Char :=
  padded 2 t.hour ++ ':' :: padded 2 t.minute ++ ':' :: padded 2 t.second

def DateTime.weekday (t : DateTime) : Nat := Time.weekday (dayNumber t.year t.month t.day)

namespace HttpDate

def chars (t : DateTime) : List Char :=
  (weekdayNames.getD t.weekday "").toList ++ ',' :: ' ' :: padded 2 t.day ++ ' ' ::
    (monthNames.getD (t.month - 1) "").toList ++ ' ' :: padded 4 t.year ++ ' ' ::
    t.clockChars ++ " GMT".toList

def ofDateTime? (t : DateTime) : Option String :=
  t.toUniversal?.map fun u => String.ofList (chars u)

def expect? (wanted cs : List Char) : Option (List Char) :=
  if wanted.isPrefixOf cs then some (cs.drop wanted.length) else none

def takeName? : List String → Nat → List Char → Option (Nat × List Char)
  | [], _, _ => none
  | name :: names, i, cs =>
    match expect? name.toList cs with
    | some rest => some (i, rest)
    | none => takeName? names (i + 1) cs

/-- A date in exactly this form, from the year 100 on. The day of the week is not compared with the
date. -/
def read? (cs : List Char) : Option DateTime := do
  let (_, cs) ← takeName? weekdayNames 0 cs
  let (day, cs) ← takeNumber? 2 (← expect? [',', ' '] cs)
  let (month, cs) ← takeName? monthNames 1 (← expect? [' '] cs)
  let (year, cs) ← takeNumber? 4 (← expect? [' '] cs)
  let (hour, cs) ← takeNumber? 2 (← expect? [' '] cs)
  let (minute, cs) ← takeNumber? 2 (← expect? [':'] cs)
  let (second, cs) ← takeNumber? 2 (← expect? [':'] cs)
  let rest ← expect? " GMT".toList cs
  let t : DateTime := { year, month, day, hour, minute, second, offset := some 0 }
  if rest.isEmpty ∧ 100 ≤ year ∧ t.Valid then return t else none

end HttpDate

end Sitewright.Time
