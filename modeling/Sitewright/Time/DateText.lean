import Sitewright.Time.DateText.Parts
import Sitewright.Time.DateText.Token
import Sitewright.Time.DateText.Word
import Sitewright.Time.HttpDate

/-!
Dates in whatever form a client writes them. The text is cut into words, numerals and marks; what
each numeral stands for follows from its length, from its neighbours, and from what has been found
before it. What is not stated is taken from a given day.
-/

namespace Sitewright.Time.DateText

/-! ### What has been found -/

structure Found where
  parts : DateParts := {}
  weekday : Option Nat := none
  hour : Option Nat := none
  minute : Option Nat := none
  second : Option Nat := none
  micro : Option Nat := none
  zone : Option String := none
  /-- Seconds east of universal time. -/
  offset : Option Int := none
  half : Option Nat := none
  deriving Repr

def fullHour (hour half : Nat) : Nat :=
  if hour < 12 && half == 1 then hour + 12 else if hour == 12 && half == 0 then 0 else hour

def isZoneName (found : Found) (token : String) : Bool :=
  found.hour.isSome && found.zone.isNone && found.offset.isNone && token.length ≤ 5 &&
    (token.toList.all (fun c => 'A' ≤ c && c ≤ 'Z') || ["UTC", "GMT", "Z", "z"].contains token)

def unitAt? (ts : List String) (i : Nat) : Option Nat :=
  let has (j : Nat) : Bool := (ts[j]?.bind unit?).isSome
  if has (i + 1) then some (i + 1)
  else if ts[i + 1]? = some " " && has (i + 2) then some (i + 2)
  else if 0 < i && has (i - 1) then some (i - 1)
  else if 1 < i && i + 1 == ts.length && ts[i - 1]? = some " " && has (i - 2) then some (i - 2)
  else none

def needed {α : Type} : Option α → Except Error α
  | some a => .ok a
  | none => .error .dateUnreadable

def setMinute (found : Found) (n : Numeral) : Except Error Found :=
  return { found with minute := some n.whole, second := ← n.sixtieths }

def setUnit (found : Found) (n : Numeral) : Nat → Except Error Found
  | 0 => return { found with hour := some n.whole, minute := (← n.sixtieths).or found.minute }
  | 1 => setMinute found n
  | 2 => do
    let (second, micro) ← needed (seconds? n.text)
    return { found with second := some second, micro := some micro }
  | _ => return found

def slice (cs : List Char) (first last : Nat) : List Char := (cs.drop first).take (last - first)

/-- What numbers joined by a mark add, from the first of them on, and the place of the last token
that belongs to them. -/
def takeJoined? (ts : List String) (i : Nat) (cs : List Char) (found : Found) :
    Option (Found × Nat) := do
  let mark := ts[i + 1]?
  let parts ← found.parts.pushText? cs
  match ts[i + 2]? with
  | none => return ({ found with parts }, i + 1)
  | some second =>
    if isJump second then return ({ found with parts }, i + 1)
    else
      let parts ←
        if second.toList.all Text.isDigit then parts.pushText? second.toList
        else parts.pushMonth? (← month? second)
      if ts[i + 3]? = mark then
        let third ← ts[i + 4]?
        let parts ← match month? third with
          | some month => parts.pushMonth? month
          | none => parts.pushText? third.toList
        return ({ found with parts }, i + 4)
      else return ({ found with parts }, i + 2)

def takeRun? (cs : List Char) (found : Found) : Option Found := do
  if cs.length = 6 ∨ cs[6]? = some '.' then
    if found.parts.values.isEmpty ∧ ¬ cs.contains '.' then
      let parts ← found.parts.pushText? (cs.take 2)
      let parts ← parts.pushText? (slice cs 2 4)
      return { found with parts := ← parts.pushText? (cs.drop 4) }
    else
      let (second, micro) ← seconds? (cs.drop 4)
      return { found with
        hour := some (← natOf? (cs.take 2)), minute := some (← natOf? (slice cs 2 4))
        second := some second, micro := some micro }
  else
    let parts ← found.parts.pushKnownYear? (cs.take 4)
    let parts ← parts.pushText? (slice cs 4 6)
    let found := { found with parts := ← parts.pushText? (slice cs 6 8) }
    if cs.length = 8 then return found
    let found := { found with
      hour := some (← natOf? (slice cs 8 10)), minute := some (← natOf? (slice cs 10 12)) }
    if cs.length = 12 then return found
    return { found with second := some (← natOf? (cs.drop 12)) }

def takeHour? (cs : List Char) (found : Found) : Option Found := do
  let found := { found with hour := some (← natOf? (cs.take 2)) }
  if cs.length = 4 then return { found with minute := some (← natOf? (cs.drop 2)) }
  else return found

def takeClock (ts : List String) (i : Nat) (n : Numeral) (found : Found) :
    Except Error (Found × Nat) := do
  let found ← setMinute { found with hour := some n.whole }
    (← needed (ts[i + 2]?.bind numeral?))
  if ts[i + 3]? = some ":" ∧ i + 4 < ts.length then
    let (second, micro) ← needed (ts[i + 4]?.bind fun t => seconds? t.toList)
    return ({ found with second := some second, micro := some micro }, i + 4)
  else return (found, i + 2)

def takeAlone? (ts : List String) (i : Nat) (n : Numeral) (found : Found) :
    Option (Found × Nat) := do
  let hourOf (half : Nat) : Found := { found with hour := some (fullHour n.whole half) }
  let next := ts[i + 1]?
  if next.all isJump then
    match ts[i + 2]?.bind half? with
    | some half => return (hourOf half, i + 2)
    | none => return ({ found with parts := ← found.parts.pushNumeral? n }, i + 1)
  else
    match next.bind half? with
    | some half =>
      if n.whole < 24 then return (hourOf half, i + 1)
      else if found.parts.couldBeDay n then
        return ({ found with parts := ← found.parts.pushNumeral? n }, i)
      else none
    | none =>
      if found.parts.couldBeDay n then
        return ({ found with parts := ← found.parts.pushNumeral? n }, i)
      else none

def takeNumeral (ts : List String) (i : Nat) (n : Numeral) (found : Found) :
    Except Error (Found × Nat) := do
  let cs := n.text
  let next := ts[i + 1]?
  if found.parts.values.length = 3 ∧ (cs.length = 2 ∨ cs.length = 4) ∧ found.hour.isNone ∧
      (next.isNone ∨ (next ≠ some ":" ∧ (next.bind unit?).isNone)) then
    return (← needed (takeHour? cs found), i)
  else if cs.length = 6 ∨ cs[6]? = some '.' ∨ cs.length = 8 ∨ cs.length = 12 ∨ cs.length = 14 then
    return (← needed (takeRun? cs found), i)
  else if let some j := unitAt? ts i then
    let unit ← needed (ts[j]?.bind unit?)
    if i < j then return (← setUnit found n unit, j)
    else return (← setUnit found n (unit + 1), i)
  else if next = some ":" ∧ i + 2 < ts.length then takeClock ts i n found
  else if next = some "-" ∨ next = some "/" ∨ next = some "." then
    needed (takeJoined? ts i cs found)
  else needed (takeAlone? ts i n found)

def takeMonth? (ts : List String) (i month thisYear : Nat) (found : Found) :
    Option (Found × Nat) := do
  let parts ← found.parts.pushMonth? month
  let next := ts[i + 1]?
  if next = some "-" ∨ next = some "/" then
    let parts ← parts.pushText? (← ts[i + 2]?).toList
    if ts[i + 3]? = next then
      return ({ found with parts := ← parts.pushText? (← ts[i + 4]?).toList }, i + 4)
    else return ({ found with parts }, i + 2)
  else if next = some " " ∧ ts[i + 3]? = some " " ∧ (ts[i + 2]?.map Text.lower) = some "of" then
    match ts[i + 4]? with
    | none => return ({ found with parts }, i)
    | some year =>
      if year.toList.all Text.isDigit then
        let n ← natOf? year.toList
        let full := if n < 100 then longYear thisYear n else n
        return ({ found with parts := ← parts.pushKnownYear? (toString full).toList }, i + 4)
      else return ({ found with parts }, i + 4)
  else return ({ found with parts }, i)
where
  /-- The year of two digits that is nearest to the current one. -/
  longYear (thisYear n : Nat) : Nat :=
    let year := thisYear / 100 * 100 + n
    if thisYear + 50 ≤ year then year - 100 else if year + 50 < thisYear then year + 100 else year

def takeOffset? (ts : List String) (i : Nat) (sign : Int) (found : Found) :
    Option (Found × Nat) := do
  let first ← ts[i + 1]?
  let cs := first.toList
  let (hours, minutes, last) ←
    if cs.length = 4 then
      some (← natOf? (cs.take 2), ← natOf? (cs.drop 2), i + 1)
    else if ts[i + 2]? = some ":" then
      some (← natOf? cs, ← natOf? (← ts[i + 3]?).toList, i + 3)
    else if cs.length ≤ 2 then some (← natOf? cs, 0, i + 1)
    else none
  let found := { found with offset := some (sign * (hours * 3600 + minutes * 60 : Nat)) }
  -- a name in parentheses may follow
  match ts[last + 1]?, ts[last + 2]?, ts[last + 3]?, ts[last + 4]? with
  | some jump, some "(", some name, some ")" =>
    if isJump jump ∧ 3 ≤ name.length ∧ isZoneName { found with offset := none } name then
      return ({ found with zone := some name }, last + 4)
    else return (found, last)
  | _, _, _, _ => return (found, last)

/-- What the token at a place adds, the tokens as they are from then on, and the place of the last
token used. -/
def takeToken (ts : List String) (i thisYear : Nat) (token : String) (found : Found) :
    Except Error (Found × List String × Nat) := do
  if let some n := numeral? token then
    let (found, last) ← takeNumeral ts i n found
    return (found, ts, last)
  else if isNoNumber token then throw .dateUnreadable
  else if let some weekday := weekday? token then
    return ({ found with weekday := some weekday }, ts, i)
  else if let some month := month? token then
    let (found, last) ← needed (takeMonth? ts i month thisYear found)
    return (found, ts, last)
  else if let some half := half? token then
    let hour ← needed found.hour
    if 12 < hour then throw .dateUnreadable
    return ({ found with hour := some (fullHour hour half), half := some half }, ts, i)
  else if isZoneName found token then
    let found := { found with zone := some token }
    match ts[i + 1]? with
    | some "+" =>
      return ({ found with zone := if isUniversal token then none else some token },
        ts.set (i + 1) "-", i)
    | some "-" =>
      return ({ found with zone := if isUniversal token then none else some token },
        ts.set (i + 1) "+", i)
    | _ => return (found, ts, i)
  else if found.hour.isSome ∧ (token = "+" ∨ token = "-") then
    let (found, last) ← needed (takeOffset? ts i (if token = "+" then 1 else -1) found)
    return (found, ts, last)
  else if isJump token then return (found, ts, i)
  else throw .dateUnreadable

def takeAll (thisYear : Nat) : Nat → List String → Nat → Found → Except Error Found
  | 0, _, _, found => .ok found
  | fuel + 1, ts, i, found =>
    match ts[i]? with
    | none => .ok found
    | some token => do
      let (found, ts, last) ← takeToken ts i thisYear token found
      takeAll thisYear fuel ts (last + 1) found

/-! ### The date -/

def Found.isEmpty (found : Found) : Bool :=
  found.parts.values.isEmpty && found.weekday.isNone && found.hour.isNone &&
    found.minute.isNone && found.second.isNone && found.micro.isNone && found.zone.isNone &&
    found.offset.isNone

/-- Seconds cannot be counted that make up more whole days than this. -/
def maxDays : Int := 999999999

/-- The offset in microseconds; a name says nothing unless it is that of universal time. -/
def Found.zoneOffset? (found : Found) : Option (Option Int) :=
  if found.zone.any isUniversal then some (some 0)
  else match found.offset with
    | none => some none
    | some seconds =>
      let days := seconds / 86400
      if -maxDays ≤ days ∧ days ≤ maxDays then some (some (seconds * 1000000)) else none

def onWeekday? (t : DateTime) (weekday : Nat) : Option DateTime :=
  let ahead := (weekday + 7 - t.weekday) % 7
  (DateTime.ofInstant? ((t.naive).instant + ahead * microsPerDay)).map fun u =>
    { u with offset := t.offset }

/-- The date of what was found, with the rest taken from the given day. The offset is as it was
found. -/
def Found.date? (today : DateTime) (found : Found) : Option DateTime := do
  let (year, month, day) ← found.parts.resolve?
  let year := match year with
    | none => today.year
    | some y => if y < 100 && !found.parts.fullYear then takeMonth?.longYear today.year y else y
  let month := month.getD today.month
  let t : DateTime :=
    { year, month
      day := day.getD (min today.day (monthLength year month))
      hour := found.hour.getD 0, minute := found.minute.getD 0, second := found.second.getD 0
      micro := found.micro.getD 0, offset := ← found.zoneOffset? }
  if t.naive.Valid then
    match found.weekday, day with
    | some weekday, none => onWeekday? t weekday
    | _, _ => return t
  else none

def loose (today : DateTime) (s : String) : Except Error DateTime := do
  let ts := tokens s
  let found ← takeAll today.year ts.length ts 0 {}
  if found.isEmpty then throw .dateUnreadable
  needed (found.date? today)

/-- A date as headers write it, or else in any other form. -/
def read (today : DateTime) (s : String) : Except Error DateTime :=
  match HttpDate.read? s.toList with
  | some t => .ok t
  | none => loose today s

/-- The time that a client says it knows, in universal time where it names no zone. -/
def knownTime (today : DateTime) : Option String → Except Error (Option DateTime)
  | none | some "" => .ok none
  | some s => (read today s).map fun t => some t.zoned

end Sitewright.Time.DateText
