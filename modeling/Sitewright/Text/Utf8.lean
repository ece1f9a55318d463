/-!
Bytes read as UTF-8. Nothing is refused: each maximal run of bytes that cannot be continued to a
character is stray, and something else stands for it.
-/

namespace Sitewright.Text.Utf8

def replacement : Char := '\uFFFD'

/-- What has been read of a character: nothing, or the bytes `seen`, with `value` so far and
`missing + 1` bytes to come, the first of them between `low` and `high`. -/
inductive State
  | start
  | inside (seen : List UInt8) (missing : Nat) (low high : Nat) (value : Nat)
  deriving DecidableEq, Repr

variable (stray : List UInt8 → List Char)

/-- A byte where a character may begin. The bounds on the second byte keep out overlong forms,
surrogates and what lies past the last code point. -/
def begin (byte : UInt8) : List Char × State :=
  let b := byte.toNat
  if b < 0x80 then ([Char.ofNat b], .start)
  else if b < 0xC2 then (stray [byte], .start)
  else if b < 0xE0 then ([], .inside [byte] 0 0x80 0xBF (b - 0xC0))
  else if b < 0xF0 then
    ([], .inside [byte] 1 (if b = 0xE0 then 0xA0 else 0x80) (if b = 0xED then 0x9F else 0xBF)
      (b - 0xE0))
  else if b < 0xF5 then
    ([], .inside [byte] 2 (if b = 0xF0 then 0x90 else 0x80) (if b = 0xF4 then 0x8F else 0xBF)
      (b - 0xF0))
  else (stray [byte], .start)

def step : State → UInt8 → List Char × State
  | .start, byte => begin stray byte
  | .inside seen missing low high value, byte =>
    let b := byte.toNat
    if low ≤ b ∧ b ≤ high then
      match missing with
      | 0 => ([Char.ofNat (value * 64 + b % 64)], .start)
      | m + 1 => ([], .inside (seen ++ [byte]) m 0x80 0xBF (value * 64 + b % 64))
    else (stray seen ++ (begin stray byte).1, (begin stray byte).2)

def run : State → List UInt8 → List Char
  | .start, [] => []
  | .inside seen .., [] => stray seen
  | state, b :: rest => (step stray state b).1 ++ run (step stray state b).2 rest

/-- The text of bytes, with `stray` for each run of bytes that is none. -/
def decodeWith (bytes : List UInt8) : String := String.ofList (run stray .start bytes)

def decode (bytes : List UInt8) : String := decodeWith (fun _ => [replacement]) bytes

def encode (s : String) : List UInt8 := s.toUTF8.data.toList

end Sitewright.Text.Utf8
