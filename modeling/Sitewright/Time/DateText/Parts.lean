import Sitewright.Time.Calendar
import Sitewright.Time.DateText.Numeral

/-!
The numbers that stand for a year, a month or a day. Which is which follows from what is known of
their places, from their sizes, and from their order.
-/

namespace Sitewright.Time.DateText

/-- Numbers that stand for a year, a month or a day, in order, with those that are known. -/
structure DateParts where
  values : List Nat := []
  yearAt : Option Nat := none
  monthAt : Option Nat := none
  fullYear : Bool := false
  deriving Repr

namespace DateParts

def push (parts : DateParts) (n : Nat) : DateParts := { parts with values := parts.values ++ [n] }

def pushYear? (parts : DateParts) (n : Nat) : Option DateParts :=
  if parts.yearAt.isSome then none
  else some { parts.push n with yearAt := some parts.values.length, fullYear := true }

def pushKnownYear? (parts : DateParts) (cs : List Char) : Option DateParts := do
  let n ← natOf? cs
  if parts.yearAt.isSome then none
  else
    return { parts.push n with
      yearAt := some parts.values.length, fullYear := parts.fullYear || 2 < cs.length }

def pushMonth? (parts : DateParts) (n : Nat) : Option DateParts :=
  if parts.monthAt.isSome then none
  else some { parts.push n with monthAt := some parts.values.length }

/-- More than two digits are a year. -/
def pushText? (parts : DateParts) (cs : List Char) : Option DateParts := do
  let n ← natOf? cs
  if 2 < cs.length then parts.pushYear? n else return parts.push n

/-- More than a hundred is a year. -/
def pushNumeral? (parts : DateParts) (n : Numeral) : Option DateParts :=
  if n.exceeds 100 then parts.pushYear? n.whole else some (parts.push n.whole)

def couldBeDay (parts : DateParts) (n : Numeral) : Bool :=
  let at? (i : Option Nat) : Option Nat := i.bind (parts.values[·]?)
  let last := match at? parts.monthAt, at? parts.yearAt with
    | none, _ => 31
    | some month, none => monthLength 2000 month
    | some month, some year => monthLength year month
  1 ≤ n.whole && !n.exceeds last

def byPlaces (parts : DateParts) (dayAt : Option Nat) : Option Nat × Option Nat × Option Nat :=
  let at? (i : Option Nat) : Option Nat := i.bind (parts.values[·]?)
  (at? parts.yearAt, at? parts.monthAt, at? dayAt)

/-- Year, month and day. Where places are not known, a number above 31 is a year, and a first number
above 12 a day. -/
def resolve? (parts : DateParts) : Option (Option Nat × Option Nat × Option Nat) :=
  match parts.values, parts.yearAt, parts.monthAt with
  | [], _, _ => some (none, none, none)
  | [_, _, _], some y, some m => some (parts.byPlaces (some (3 - y - m)))
  | [_, _], some _, some _ => some (parts.byPlaces none)
  | [_], some _, none => some (parts.byPlaces none)
  | [a], _, some _ => some (none, some a, none)
  | [a], _, none => if 31 < a then some (some a, none, none) else some (none, none, some a)
  | [a, b], _, some m =>
    let (month, other) := if m = 0 then (a, b) else (b, a)
    if 31 < other then some (some other, some month, none) else some (none, some month, some other)
  | [a, b], _, none =>
    if 31 < a then some (some a, some b, none)
    else if 31 < b then some (some b, some a, none)
    else some (none, some a, some b)
  | [a, b, c], y, m =>
    match m with
    | some 0 => if 31 < b then some (some b, some a, some c) else some (some c, some a, some b)
    | some 1 => if 31 < a then some (some a, some b, some c) else some (some c, some b, some a)
    | some _ => if 31 < b then some (some b, some c, some a) else some (some a, some c, some b)
    | none =>
      if 31 < a || y = some 0 then some (some a, some b, some c)
      else if 12 < a then some (some c, some b, some a)
      else some (some c, some a, some b)
  | _, _, _ => none

end DateParts

end Sitewright.Time.DateText
