import Sitewright.Number.Binary64

/-!
The shortest decimal that reads back as a given binary number. The decimals that read back fill an
interval around the number; the coarsest decimal grid with a point in it wins, and on that grid the
point nearest to the number.
-/

namespace Sitewright.Binary64

/-- A positive quotient `value` with the interval from `low` to `high` that rounds to it, all over
one denominator. -/
structure Neighbourhood where
  low : Nat
  value : Nat
  high : Nat
  den : Nat
  /-- The ends round to the value as well. -/
  closed : Bool

def neighbourhood (m : Nat) (e : Int) : Neighbourhood :=
  let up := Nat.pow 2 e.toNat
  let below := if m == Nat.pow 2 52 && e > minExponent then 1 else 2
  { low := (4 * m - below) * up
    value := 4 * m * up
    high := (4 * m + 2) * up
    den := 4 * Nat.pow 2 (-e).toNat
    closed := m % 2 == 0 }

def Neighbourhood.holds (r : Neighbourhood) (num den : Nat) : Bool :=
  if r.closed then r.low * den ≤ num * r.den && num * r.den ≤ r.high * den
  else r.low * den < num * r.den && num * r.den < r.high * den

def decimalLength (n : Nat) : Nat := (Nat.toDigits 10 n).length

def leadingPower (num den : Nat) : Int :=
  if den ≤ num then (decimalLength (num / den) : Int) - 1
  else -(decimalLength ((den + num - 1) / num - 1) : Int)

/-- The point of the grid of step `10 ^ step` that reads back as the value, nearest first. -/
def gridPoint? (r : Neighbourhood) (step : Int) : Option Nat :=
  let num := r.value * Nat.pow 10 (-step).toNat
  let den := r.den * Nat.pow 10 step.toNat
  let a := num / den
  let reads (k : Nat) : Bool := r.holds (k * Nat.pow 10 step.toNat) (Nat.pow 10 (-step).toNat)
  let distance := num % den
  let upFirst := 2 * distance > den || (2 * distance == den && a % 2 == 1)
  if upFirst then
    if reads (a + 1) then some (a + 1) else if reads a then some a else none
  else
    if reads a then some a else if reads (a + 1) then some (a + 1) else none

def searchGrid (r : Neighbourhood) : Nat → Int → Nat × Int
  | 0, step => (r.value * Nat.pow 10 (-step).toNat / (r.den * Nat.pow 10 step.toNat), step)
  | fuel + 1, step =>
    match gridPoint? r step with
    | some k => (k, step)
    | none => searchGrid r fuel (step - 1)

/-- Digits and power of ten of the last digit, for a positive number. Seventeen digits always
suffice. -/
def shortest (m : Nat) (e : Int) : Nat × Int :=
  let r := neighbourhood m e
  searchGrid r 17 (leadingPower r.value r.den)

def stripZeros : List Char → List Char
  | cs => (cs.reverse.dropWhile (· == '0')).reverse

/-- Digits `ds` with the point `point` places after their first place. -/
def positional (ds : List Char) (point : Int) : List Char :=
  if point ≤ 0 then '0' :: '.' :: (List.replicate (-point).toNat '0' ++ ds)
  else
    let whole := ds.take point.toNat
    let fraction := ds.drop point.toNat
    whole ++ List.replicate (point.toNat - whole.length) '0' ++ '.' ::
      (if fraction.isEmpty then ['0'] else fraction)

def scientific (ds : List Char) (point : Int) : List Char :=
  let power := point - 1
  let digits := Nat.toDigits 10 power.natAbs
  let mantissa := match ds with
    | d :: (f :: fs) => d :: '.' :: f :: fs
    | short => short
  mantissa ++ 'e' :: (if power < 0 then '-' else '+') ::
    (List.replicate (2 - digits.length) '0' ++ digits)

/-- Positional from `0.0001` up to sixteen digits before the point, else with an exponent. -/
def layout (ds : List Char) (point : Int) : List Char :=
  if -4 < point && point ≤ 16 then positional ds point else scientific ds point

def finiteText (negative : Bool) (m : Nat) (e : Int) : String :=
  let sign := if negative then ['-'] else []
  let body :=
    if m == 0 then ['0', '.', '0']
    else
      let (k, step) := shortest m e
      let all := Nat.toDigits 10 k
      layout (stripZeros all) (all.length + step)
  String.ofList (sign ++ body)

end Sitewright.Binary64
