import Sitewright.Error
import Sitewright.Number.ShortDecimal
import Sitewright.Text.Integer

namespace Sitewright.Time.DateText

structure Numeral where
  text : List Char
  whole : Nat
  fraction : List Nat
  deriving Repr

def digitsOf? (cs : List Char) : Option (List Nat) := cs.mapM Text.digitValue?

def natOf? (cs : List Char) : Option Nat :=
  if cs.isEmpty || Text.maxNumeralLength < cs.length then none
  else (digitsOf? cs).map Text.ofDigits

def numeral? (token : String) : Option Numeral := do
  let text := token.toList
  let (before, after) := text.span (· ≠ '.')
  let whole ← digitsOf? before
  let fraction ← digitsOf? (after.drop 1)
  if before.isEmpty then none else return { text, whole := Text.ofDigits whole, fraction }

namespace Numeral

def hasFraction (n : Numeral) : Bool := n.fraction.any (· ≠ 0)

/-- The fraction, which is kept to a number of digits. It cannot be told from an integer that has
more digits itself. -/
def fractionOf (n : Numeral) : Except Error ShortDecimal :=
  if Nat.pow 10 ShortDecimal.precision ≤ n.whole then .error .dateOverlong
  else .ok (ShortDecimal.rounded (Text.ofDigits n.fraction) n.fraction.length)

def sixtieths (n : Numeral) : Except Error (Option Nat) := do
  let fraction ← n.fractionOf
  return if fraction.isZero then none else some (fraction.times 60).floor

def exceeds (n : Numeral) (bound : Nat) : Bool :=
  bound < n.whole || (n.whole == bound && n.hasFraction)

end Numeral

def seconds? (cs : List Char) : Option (Nat × Nat) := do
  match cs.span (· ≠ '.') with
  | (whole, []) => return (← natOf? whole, 0)
  | (whole, _ :: fraction) =>
    return (← natOf? whole, ← natOf? ((fraction ++ List.replicate 6 '0').take 6))

end Sitewright.Time.DateText
