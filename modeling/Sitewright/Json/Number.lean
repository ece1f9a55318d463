import Sitewright.Error
import Sitewright.Number.Arithmetic
import Sitewright.Text.Integer

/-!
Reckoning with JSON numbers. A truth value is the number one or zero. Integers stay integers as long
as no other number comes in.
-/

namespace Sitewright.Json

/-- The integer of a value: a number without its fraction, or a text read as a numeral. None where
the value is no number; an infinite number has no integer at all. -/
def toInteger : Json → Except Error (Option Int)
  | .int n => .ok (some n)
  | .bool b => .ok (some (if b then 1 else 0))
  | .float .nan => .ok none
  | .float x =>
    match x.truncate? with
    | some n => .ok (some n)
    | none => .error .numberTooLarge
  | .str s => .ok (Text.intOfText? s)
  | _ => .ok none

inductive Number
  | int (n : Int)
  | float (x : Binary64)
  deriving DecidableEq, Repr

def toNumber : Json → Except Error Number
  | .int n => .ok (.int n)
  | .bool b => .ok (.int (if b then 1 else 0))
  | .float x => .ok (.float x)
  | _ => .error .notNumber

/-- The number of a value that counts: an integer, or a truth value as one. -/
def toWhole (value : Json) : Except Error Int := do
  match ← value.toNumber with
  | .int n => return n
  | .float _ => .error .notNumber

namespace Number

def toJson : Number → Json
  | int n => .int n
  | float x => .float x

def isZero : Number → Bool
  | int n => n = 0
  | float x => x.isZero

def toFloat : Number → Except Error Binary64
  | float x => .ok x
  | int n =>
    match Binary64.ofInt? n with
    | some x => .ok x
    | none => .error .numberTooLarge

def combine (ints : Int → Int → Int) (floats : Binary64 → Binary64 → Binary64) :
    Number → Number → Except Error Number
  | int a, int b => .ok (int (ints a b))
  | a, b => return float (floats (← a.toFloat) (← b.toFloat))

def add : Number → Number → Except Error Number := combine (· + ·) Binary64.add

def floorDiv (a b : Number) : Except Error Number :=
  if b.isZero then .error .emptyPages else combine Int.fdiv Binary64.floorDiv a b

def fraction? : Number → Option (Int × Nat)
  | int n => some (n, 1)
  | float (.finite s m e) => some (Binary64.signed s m * Nat.pow 2 e.toNat, Nat.pow 2 (-e).toNat)
  | float _ => none

/-- Whether two numbers are equal, whichever form they have. What is not a number equals nothing. -/
def same (a b : Number) : Bool :=
  match a.fraction?, b.fraction? with
  | some (m, d), some (n, e) => m * e = n * d
  | none, none => a = b && a ≠ float .nan
  | _, _ => false

end Number

end Sitewright.Json
