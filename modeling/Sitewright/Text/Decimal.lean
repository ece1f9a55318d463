namespace Sitewright.Text

def digitChar (n : Nat) : Char := Char.ofNat (0x30 + n % 10)

def padded : Nat → Nat → List Char
  | 0, _ => []
  | width + 1, n => padded width (n / 10) ++ [digitChar n]

def asciiDigit? (c : Char) : Option Nat :=
  if '0' ≤ c && c ≤ '9' then some (c.toNat - 0x30) else none

def takeNumber? : Nat → List Char → Option (Nat × List Char)
  | width, cs => go width 0 cs
where
  go : Nat → Nat → List Char → Option (Nat × List Char)
    | 0, n, cs => some (n, cs)
    | _ + 1, _, [] => none
    | width + 1, n, c :: rest => do go width (n * 10 + (← asciiDigit? c)) rest

end Sitewright.Text
