/-!
Text in code units of 16 bits. A character beyond them is a pair of units, a high one and a low one.
Half of a pair is no character, and a text with one is torn: no string here has it as its content.
-/

namespace Sitewright.Text.Utf16

def isHigh (n : Nat) : Bool := 0xD800 ≤ n && n < 0xDC00

def isLow (n : Nat) : Bool := 0xDC00 ≤ n && n < 0xE000

def single? (n : Nat) : Option Char := if isHigh n || isLow n then none else some (Char.ofNat n)

def decode? : List Nat → Option (List Char)
  | [] => some []
  | [n] => do return [← single? n]
  | n :: m :: rest =>
    if isHigh n && isLow m then do
      let more ← decode? rest
      return Char.ofNat (0x10000 + (n - 0xD800) * 0x400 + (m - 0xDC00)) :: more
    else do
      let c ← single? n
      let more ← decode? (m :: rest)
      return c :: more

end Sitewright.Text.Utf16
