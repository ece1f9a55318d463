import Sitewright.Text.Digit
import Sitewright.Text.Words

/-!
Integers written as text: padding around, an optional sign, decimal digits of any script, and single
underscores between digits.
-/

namespace Sitewright.Text

def maxNumeralLength : Nat := 4300

/-- An integer that is not too long to be written, or to be read again. -/
def Fits (n : Int) : Prop := (Nat.toDigits 10 n.natAbs).length ≤ maxNumeralLength

instance (n : Int) : Decidable (Fits n) := inferInstanceAs (Decidable (_ ≤ _))

/-- The digits of a numeral; an underscore must stand between two digits. -/
def numeralDigits? : List Char → Option (List Nat)
  | [] => none
  | [c] => (digitValue? c).map ([·])
  | c :: '_' :: rest => do
    let d ← digitValue? c
    let ds ← numeralDigits? rest
    return d :: ds
  | c :: rest => do
    let d ← digitValue? c
    let ds ← numeralDigits? rest
    return d :: ds

def ofDigits (ds : List Nat) : Nat := ds.foldl (fun n d => n * 10 + d) 0

def natOfChars? (cs : List Char) : Option Nat := do
  let ds ← numeralDigits? cs
  if ds.length ≤ maxNumeralLength then some (ofDigits ds) else none

/-- What may stand around a numeral: every blank but the information separators. -/
def isPadding (c : Char) : Bool := isBlank c && !(0x1C ≤ c.toNat && c.toNat ≤ 0x1F)

def intOfChars? (cs : List Char) : Option Int :=
  match dropWhileEnd isPadding (cs.dropWhile isPadding) with
  | '-' :: rest => (natOfChars? rest).map fun n => -(n : Int)
  | '+' :: rest => (natOfChars? rest).map fun n => (n : Int)
  | rest => (natOfChars? rest).map fun n => (n : Int)

def intOfText? (s : String) : Option Int := intOfChars? s.toList

end Sitewright.Text
