import Sitewright.Text.Utf16
import Sitewright.Text.Utf8

/-!
The encodings of Unicode, told apart by where zeros stand among the first bytes of a text that
begins with ASCII characters.
-/

namespace Sitewright.Text

inductive Encoding
  | utf8
  | utf16 (bigEndian : Bool)
  | utf32 (bigEndian : Bool)
  deriving DecidableEq, Repr

namespace Encoding

/-- Why bytes make no text: they break the encoding, or they make a text that is torn. -/
inductive Fault
  | broken
  | torn
  deriving DecidableEq, Repr

def ofZeros : List UInt8 → Encoding
  | [a, b] => if a = 0 then utf16 true else if b = 0 then utf16 false else utf8
  | a :: b :: c :: d :: _ =>
    if a = 0 then (if b = 0 then utf32 true else utf16 true)
    else if b = 0 then (if c = 0 && d = 0 then utf32 false else utf16 false)
    else utf8
  | _ => utf8

def number (bigEndian : Bool) (bytes : List UInt8) : Nat :=
  (if bigEndian then bytes else bytes.reverse).foldl (fun n b => n * 256 + b.toNat) 0

def pairs? (bigEndian : Bool) : List UInt8 → Option (List Nat)
  | [] => some []
  | a :: b :: rest => (pairs? bigEndian rest).map (number bigEndian [a, b] :: ·)
  | [_] => none

def quads? (bigEndian : Bool) : List UInt8 → Option (List Nat)
  | [] => some []
  | a :: b :: c :: d :: rest =>
    let n := number bigEndian [a, b, c, d]
    if n < 0x110000 then (quads? bigEndian rest).map (n :: ·) else none
  | _ => none

def textOf (found : Option (List Nat)) (decode? : List Nat → Option (List Char)) :
    Except Fault String :=
  match found with
  | none => .error .broken
  | some units =>
    match decode? units with
    | none => .error .torn
    | some cs => .ok (String.ofList cs)

def dropMark : List Char → List Char
  | '\uFEFF' :: rest => rest
  | cs => cs

/-- What the bytes of a text say in the encoding that their zeros show. -/
def reread (s : String) : Except Fault String :=
  let bytes := Utf8.encode s
  match ofZeros bytes with
  | utf8 => .ok (String.ofList (dropMark s.toList))
  | utf16 bigEndian => textOf (pairs? bigEndian bytes) Utf16.decode?
  | utf32 bigEndian => textOf (quads? bigEndian bytes) (·.mapM Utf16.single?)

end Encoding

end Sitewright.Text
