import Sitewright.Number.Binary64

/-!
Sums and whole quotients of binary numbers. A sum is made exactly and then rounded, a whole quotient
in steps of which each is rounded. Numbers that are not finite go through as far as they decide the
result.
-/

namespace Sitewright.Binary64

/-- `num * 2 ^ e`, rounded. A zero has the given sign. -/
def ofScaled (negativeZero : Bool) (num : Int) (e : Int) : Binary64 :=
  if num = 0 then .finite negativeZero 0 minExponent
  else ofQuotient (num < 0) (num.natAbs * Nat.pow 2 e.toNat) (Nat.pow 2 (-e).toNat)

/-- The nearest number, unless the integer lies beyond all of them. -/
def ofInt? (n : Int) : Option Binary64 :=
  match ofScaled false n 0 with
  | .infinite _ => none
  | x => some x

def signed (negative : Bool) (n : Nat) : Int := if negative then -(n : Int) else n

/-- A sum that is zero is negative only if both numbers are. -/
def add : Binary64 → Binary64 → Binary64
  | .nan, _ | _, .nan => .nan
  | .infinite s, .infinite t => if s = t then .infinite s else .nan
  | .infinite s, .finite .. | .finite .., .infinite s => .infinite s
  | .finite s m e, .finite t n f =>
    let g := min e f
    ofScaled (s && t)
      (signed s m * Nat.pow 2 (e - g).toNat + signed t n * Nat.pow 2 (f - g).toNat) g

def quotient (s : Bool) (m : Nat) (e : Int) (t : Bool) (n : Nat) (f : Int) : Binary64 :=
  if m = 0 then .finite (s ≠ t) 0 minExponent
  else ofQuotient (s ≠ t) (m * Nat.pow 2 (e - f).toNat) (n * Nat.pow 2 (f - e).toNat)

def nearestInteger : Binary64 → Binary64
  | .finite s m e =>
    let num := signed s m * Nat.pow 2 e.toNat
    let den : Int := Nat.pow 2 (-e).toNat
    let below := Int.fdiv num den
    ofScaled false (if den < 2 * (num - below * den) then below + 1 else below) 0
  | x => x

def lowered (x : Binary64) (remainder divisor : Int) : Binary64 :=
  if remainder ≠ 0 ∧ (remainder < 0) ≠ (divisor < 0) then add x (ofScaled true (-1) 0) else x

/-- The whole quotient by a number that is not zero. What is left of the first number without the
remainder is divided; this, the division and the step down are rounded each. -/
def floorDiv : Binary64 → Binary64 → Binary64
  | .nan, _ | _, .nan | .infinite _, _ => .nan
  | .finite s m _, .infinite t =>
    if m = 0 || s = t then .finite (s ≠ t) 0 minExponent else ofScaled true (-1) 0
  | .finite s m e, .finite t n f =>
    let g := min e f
    let a := signed s m * Nat.pow 2 (e - g).toNat
    let b := signed t n * Nat.pow 2 (f - g).toNat
    let remainder := Int.tmod a b
    let whole := match ofScaled s (a - remainder) g with
      | .finite s m e => lowered (quotient s m e t n f) remainder b
      | x => x
    if whole.isZero then .finite (s ≠ t) 0 minExponent else nearestInteger whole

end Sitewright.Binary64
