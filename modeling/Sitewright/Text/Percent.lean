import Sitewright.Text.Hex
import Sitewright.Text.Utf8

namespace Sitewright.Text.Percent

def escaped? (sign high low : UInt8) : Option UInt8 :=
  if sign = 0x25 then
    (hexNumber? [Char.ofNat high.toNat, Char.ofNat low.toNat]).map UInt8.ofNat
  else none

/-- Bytes with each escape replaced by what it stands for. A percent sign without two digits after
it stands for itself. -/
def bytes : List UInt8 → List UInt8
  | b :: high :: low :: rest =>
    match escaped? b high low with
    | some byte => byte :: bytes rest
    | none => b :: bytes (high :: low :: rest)
  | bs => bs

def escape (b : UInt8) : List Char := '%' :: (hexDigits 2 b.toNat).map Char.toUpper

/-- The text that is meant; bytes that are no text become replacement characters. -/
def decode (s : String) : String := Utf8.decode (bytes (Utf8.encode s))

/-- The text that is meant; bytes that are no text stay escaped. -/
def decodeText (s : String) : String := Utf8.decodeWith (·.flatMap escape) (bytes (Utf8.encode s))

def encode (s : String) : String := String.ofList ((Utf8.encode s).flatMap escape)

end Sitewright.Text.Percent
