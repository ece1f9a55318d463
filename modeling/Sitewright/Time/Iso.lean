import Sitewright.Time.DateTime
import Sitewright.Text.Decimal

/-!
The international date format: written with the shortest time of day that keeps every microsecond,
written as a stamp of whole milliseconds in universal time, and read in its extended and its basic
form, with calendar dates and with week dates.
-/

namespace Sitewright.Time

open Text (padded takeNumber? asciiDigit?)

def offsetText (offset : Int) : List Char :=
  let micros := offset.natAbs
  let seconds := micros / 1000000
  (if offset < 0 then '-' else '+') :: padded 2 (seconds / 3600) ++
    ':' :: padded 2 (seconds / 60 % 60) ++
    (if seconds % 60 == 0 && micros % 1000000 == 0 then []
     else ':' :: padded 2 (seconds % 60) ++
      (if micros % 1000000 == 0 then [] else '.' :: padded 6 (micros % 1000000)))

namespace DateTime

def dateText (t : DateTime) : List Char :=
  padded 4 t.year ++ '-' :: padded 2 t.month ++ '-' :: padded 2 t.day

def clockText (t : DateTime) : List Char :=
  padded 2 t.hour ++ ':' :: padded 2 t.minute ++ ':' :: padded 2 t.second

def iso (t : DateTime) : String :=
  String.ofList (t.dateText ++ 'T' :: t.clockText ++
    (if t.micro == 0 then [] else '.' :: padded 6 t.micro) ++
    (match t.offset with
      | none => []
      | some offset => offsetText offset))

def stamp? (t : DateTime) : Option String :=
  t.toUniversal?.map fun u =>
    String.ofList (u.dateText ++ 'T' :: u.clockText ++ '.' :: padded 3 (u.micro / 1000) ++ ['Z'])

theorem ne_empty_of_stamp? {t : DateTime} {s : String} (h : t.stamp? = some s) : s ≠ "" := by
  obtain ⟨_, -, rfl⟩ := Option.map_eq_some_iff.mp h
  simp [String.ofList_eq_empty_iff]

end DateTime

namespace Iso

/-- A time of day as it is written, not yet checked. `complete` says that nothing was left over. -/
structure Clock where
  hour : Nat := 0
  minute : Nat := 0
  second : Nat := 0
  micro : Nat := 0
  complete : Bool := true

/-- A text that goes no further, or that a null character ends. -/
def isEnd (cs : List Char) : Bool := cs.head?.all (· = '\x00')

def leftOver? (clock : Clock) (c : Char) : Option Clock :=
  if c.toNat < 0x80 then some { clock with complete := isEnd [c] } else none

/-- The digits of a fraction: six count, more are passed over. -/
def fraction? (clock : Clock) (cs : List Char) : Option Clock := do
  let width := min 6 cs.length
  let (n, rest) ← takeNumber? width cs
  let rest := rest.dropWhile fun c => (asciiDigit? c).isSome
  return { clock with micro := n * Nat.pow 10 (6 - width), complete := isEnd rest }

def seconds? (colons : Bool) (clock : Clock) (cs : List Char) : Option Clock := do
  let (n, rest) ← takeNumber? 2 cs
  let clock := { clock with second := n }
  match rest with
  | [] => return clock
  | [c] => leftOver? clock c
  | c :: more =>
    if c = '.' || c = ',' || (colons && c = ':') then fraction? clock more
    else if colons then none
    else fraction? clock (c :: more)

def minutes? (colons : Bool) (clock : Clock) (cs : List Char) : Option Clock := do
  let (n, rest) ← takeNumber? 2 cs
  let clock := { clock with minute := n }
  match rest with
  | [] => return clock
  | [c] => leftOver? clock c
  | c :: more =>
    if c = '.' || c = ',' then fraction? clock more
    else if colons then (if c = ':' then seconds? colons clock more else none)
    else seconds? colons clock (c :: more)

/-- `hh[mm[ss]]` with colons everywhere or nowhere, and a fraction after any of them. One character
left over at the end is passed over and noted. -/
def clock? (cs : List Char) : Option Clock := do
  let (n, rest) ← takeNumber? 2 cs
  let clock : Clock := { hour := n }
  match rest with
  | [] => return clock
  | [c] => leftOver? clock c
  | c :: more =>
    if c = ':' then minutes? true clock more
    else if c = '.' || c = ',' then fraction? clock more
    else minutes? false clock (c :: more)

def isZoneMark (c : Char) : Bool := c = '+' || c = '-' || c = 'Z'

/-- The offset after a sign, in microseconds; an offset below a second is none. -/
def offset? (negative : Bool) (cs : List Char) : Option Int := do
  let clock ← clock? cs
  if !clock.complete then none
  else
    let seconds := (clock.hour * 60 + clock.minute) * 60 + clock.second
    let size : Int := if seconds == 0 then 0 else seconds * 1000000 + clock.micro
    if size < microsPerDay then return if negative then -size else size
    else none

def time? (cs : List Char) : Option (Clock × Option Int) := do
  let before := cs.takeWhile (!isZoneMark ·)
  let clock ← clock? before
  match cs.dropWhile (!isZoneMark ·) with
  | [] => if clock.complete then return (clock, none) else none
  | 'Z' :: rest => if isEnd rest then return (clock, some 0) else none
  | mark :: rest => return (clock, some (← offset? (mark = '-') rest))

def firstMonday (year : Nat) : Int :=
  let first : Int := dayNumber year 1 1
  let day := weekday (dayNumber year 1 1)
  if day > 3 then first - day + 7 else first - day

def weekDate? (year week day : Nat) : Option (Nat × Nat × Nat) :=
  let first := weekday (dayNumber year 1 1)
  let long := first == 3 || (first == 2 && isLeap year)
  if 1 ≤ year ∧ 1 ≤ week ∧ (week ≤ 52 ∨ (week = 53 ∧ long)) ∧ 1 ≤ day ∧ day ≤ 7 then
    let n := firstMonday year + ((week - 1) * 7 + (day - 1) : Nat)
    if 0 ≤ n ∧ n < calendarDays then some (dateOf n.toNat) else none
  else none

def date? (cs : List Char) : Option (Nat × Nat × Nat) := do
  let (year, rest) ← takeNumber? 4 cs
  let (dashes, rest) := match rest with
    | '-' :: more => (true, more)
    | more => (false, more)
  match rest with
  | 'W' :: more =>
    let (week, more) ← takeNumber? 2 more
    match more with
    | [] => weekDate? year week 1
    | c :: after =>
      if dashes && c ≠ '-' then none
      else
        let (day, _) ← takeNumber? 1 (if dashes then after else c :: after)
        weekDate? year week day
  | _ =>
    let (month, more) ← takeNumber? 2 rest
    let more ← match dashes, more with
      | true, '-' :: after => some after
      | true, _ => none
      | false, more => some more
    let (day, more) ← takeNumber? 2 more
    if more.isEmpty then return (year, month, day) else none

/-- Where the date ends. A week date may or may not go on with a day of the week; what decides is
the length, the dash and the digits that follow. -/
def dateLength? (cs : List Char) : Option Nat :=
  let isDigitAt (i : Nat) : Bool := (cs[i]?.bind asciiDigit?).isSome
  let length := cs.length
  if length < 7 then none
  else if length = 7 then some 7
  else if cs[4]? = some '-' then
    if cs[5]? = some 'W' then
      if cs[8]? = some '-' then
        if length = 9 then none
        else if isDigitAt 10 then some 8
        else some 10
      else some 8
    else some 10
  else if cs[4]? = some 'W' then
    let digits := ((cs.drop 7).takeWhile fun c => (asciiDigit? c).isSome).length
    let last := 7 + digits
    if last < 9 then some last else if last % 2 == 0 then some 7 else some 8
  else some 8

/-- A date, and after one character of any kind a time of day. -/
def chars? (cs : List Char) : Option DateTime := do
  let n ← dateLength? cs
  let (year, month, day) ← date? (cs.take n)
  let (clock, offset) ← match cs.drop n with
    | [] => some ({}, none)
    | _ :: rest => time? rest
  let t : DateTime :=
    { year, month, day
      hour := clock.hour, minute := clock.minute, second := clock.second, micro := clock.micro
      offset }
  if t.Valid then return t else none

end Iso

def DateTime.ofIso? (s : String) : Option DateTime := Iso.chars? s.toList

end Sitewright.Time
