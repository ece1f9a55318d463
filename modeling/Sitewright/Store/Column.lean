import Sitewright.Error
import Sitewright.Number.Shortest

/-!
What a column of texts in a database gives back of a value. A number has become its text there, and
lists and objects cannot be stored at all.
-/

namespace Sitewright.Store

/-- The nearest decimal of fifteen digits to a positive quotient, with the power of ten of its last
digit. A half is rounded up. -/
def fifteenDigits (num den : Nat) : Nat × Int :=
  let step := Binary64.leadingPower num den - 14
  let n := num * Nat.pow 10 (-step).toNat
  let d := den * Nat.pow 10 step.toNat
  ((2 * n + d) / (2 * d), step)

/-- Digits with a point: positional from `0.0001` up to fifteen digits before the point. -/
def columnDigits (ds : List Char) (point : Int) : List Char :=
  if -4 < point && point ≤ 15 then Binary64.positional ds point
  else Binary64.scientific (if ds.length = 1 then ds ++ ['0'] else ds) point

def columnNumber? : Binary64 → Option String
  | .nan => none
  | .infinite negative => some (if negative then "-Inf" else "Inf")
  | .finite _ 0 _ => some "0.0"
  | .finite negative m e =>
    let (k, step) := fifteenDigits (m * Nat.pow 2 e.toNat) (Nat.pow 2 (-e).toNat)
    let all := Nat.toDigits 10 k
    let text := columnDigits (Binary64.stripZeros all) (all.length + step)
    some (String.ofList (if negative then '-' :: text else text))

/-- A text or null. Integers have at most 64 bits. -/
def columnValue : Json → Except Error Json
  | .null => .ok .null
  | .str s => .ok (.str s)
  | .bool b => .ok (.str (if b then "1" else "0"))
  | .int n =>
    if -Int.pow 2 63 ≤ n ∧ n < Int.pow 2 63 then .ok (.str (toString n)) else .error .numberTooLarge
  | .float x => .ok ((columnNumber? x).elim .null .str)
  | .arr _ | .obj _ => .error .valueUnstorable

@[simp] theorem columnValue_str (s : String) : columnValue (.str s) = .ok (.str s) := rfl

@[simp] theorem columnValue_null : columnValue .null = .ok .null := rfl

end Sitewright.Store
