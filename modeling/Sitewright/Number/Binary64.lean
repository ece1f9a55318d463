/-!
Numbers of the 64-bit binary format, as exact values: a mantissa below `2 ^ 53` times a power of
two. A decimal becomes the nearest of them, and of two that are as near the one with the even
mantissa.
-/

namespace Sitewright

/-- A number of the binary format. A finite one is `± mantissa · 2 ^ exponent`, with the exponent at
least `-1074` and, unless it is that, the mantissa at least `2 ^ 52`. -/
inductive Binary64
  | nan
  | infinite (negative : Bool)
  | finite (negative : Bool) (mantissa : Nat) (exponent : Int)
  deriving DecidableEq, Repr, Inhabited

namespace Binary64

def minExponent : Int := -1074

def maxExponent : Int := 971

def isZero : Binary64 → Bool
  | .finite _ m _ => m == 0
  | _ => false

def inUnits (num den : Nat) (e : Int) : Nat × Nat :=
  (num * Nat.pow 2 (-e).toNat, den * Nat.pow 2 e.toNat)

def roundHalfEven (num den : Nat) : Nat :=
  let q := num / den
  let r := num % den
  if 2 * r > den || (2 * r == den && q % 2 == 1) then q + 1 else q

/-- The exponent at which a positive quotient has a mantissa of 53 bits, or the least one. -/
def exponentFor (num den : Nat) : Int :=
  let guess : Int := (Nat.log2 num : Int) - Nat.log2 den - 53
  let (n, d) := inUnits num den guess
  max minExponent (if n / d < Nat.pow 2 53 then guess else guess + 1)

def ofQuotient (negative : Bool) (num den : Nat) : Binary64 :=
  let e := exponentFor num den
  let (n, d) := inUnits num den e
  let m := roundHalfEven n d
  let (m, e) := if m == Nat.pow 2 53 then (Nat.pow 2 52, e + 1) else (m, e)
  if e > maxExponent then .infinite negative else .finite negative m e

/-- The number nearest to `± digits · 10 ^ scale`. The two first tests only keep the powers small:
such values lie far outside the format. -/
def ofDecimal (negative : Bool) (digits : Nat) (scale : Int) : Binary64 :=
  let size : Int := (Nat.toDigits 10 digits).length + scale
  if digits == 0 || size < -330 then .finite negative 0 minExponent
  else if size > 330 then .infinite negative
  else ofQuotient negative (digits * Nat.pow 10 scale.toNat) (Nat.pow 10 (-scale).toNat)

/-- The integer part, cut toward zero. -/
def truncate? : Binary64 → Option Int
  | .finite negative m e =>
    let n : Nat := m * Nat.pow 2 e.toNat / Nat.pow 2 (-e).toNat
    some (if negative then -(n : Int) else n)
  | _ => none

end Binary64

end Sitewright
