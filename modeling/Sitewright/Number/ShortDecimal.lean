import Sitewright.Number.Binary64

/-!
Decimals that keep a fixed number of significant digits. What goes beyond them is rounded, a half to
the even neighbour.
-/

namespace Sitewright

/-- `coefficient / 10 ^ places`. -/
structure ShortDecimal where
  coefficient : Nat
  places : Nat
  deriving DecidableEq, Repr

namespace ShortDecimal

def precision : Nat := 28

def digitCount (n : Nat) : Nat := (Nat.toDigits 10 n).length

/-- The decimal nearest to `coefficient / 10 ^ places`, which is below a hundred. -/
def rounded (coefficient places : Nat) : ShortDecimal :=
  let surplus := digitCount coefficient - precision
  { coefficient := Binary64.roundHalfEven coefficient (Nat.pow 10 surplus)
    places := places - surplus }

def isZero (d : ShortDecimal) : Bool := d.coefficient == 0

def times (n : Nat) (d : ShortDecimal) : ShortDecimal := rounded (n * d.coefficient) d.places

def floor (d : ShortDecimal) : Nat := d.coefficient / Nat.pow 10 d.places

end ShortDecimal

end Sitewright
