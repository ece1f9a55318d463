import Sitewright.Json.Basic
import Sitewright.Machine
import Sitewright.Text.Hex
import Sitewright.Text.Integer
import Sitewright.Text.Utf16

/-!
JSON text read into a value. The grammar is strict, with the names `NaN`, `Infinity` and
`-Infinity` as numbers. A field given twice keeps its first place and its last value.
-/

namespace Sitewright.Json

/-- Why a text has no value: it breaks the grammar, or before that an integer in it is too long, its
arrays and objects are nested too deep, or a string in it is torn. -/
inductive Fault
  | malformed
  | overlong
  | nested
  | torn
  deriving DecidableEq, Repr

namespace Reader

def isSpace (c : Char) : Bool := c = ' ' || c = '\t' || c = '\n' || c = '\r'

def skip (cs : List Char) : List Char := cs.dropWhile isSpace

def hexUnit? (a b c d : Char) : Option Nat := Text.hexNumber? [a, b, c, d]

def escaped? : Char → Option Char
  | '"' => some '"'
  | '\\' => some '\\'
  | '/' => some '/'
  | 'b' => some '\x08'
  | 'f' => some '\x0c'
  | 'n' => some '\n'
  | 'r' => some '\r'
  | 't' => some '\t'
  | _ => none

/-- The code points and code units of a string up to its closing quote, and what follows it. -/
def units : List Char → Option (List Nat × List Char)
  | [] => none
  | '"' :: rest => some ([], rest)
  | '\\' :: 'u' :: a :: b :: c :: d :: rest => do
    let unit ← hexUnit? a b c d
    let (more, rest) ← units rest
    return (unit :: more, rest)
  | '\\' :: c :: rest => do
    let plain ← escaped? c
    let (more, rest) ← units rest
    return (plain.toNat :: more, rest)
  | c :: rest =>
    if c.toNat < 0x20 || c = '\\' then none
    else do
      let (more, rest) ← units rest
      return (c.toNat :: more, rest)

def string (cs : List Char) : Except Fault (String × List Char) :=
  match units cs with
  | none => .error .malformed
  | some (found, rest) =>
    match Text.Utf16.decode? found with
    | none => .error .torn
    | some text => .ok (String.ofList text, rest)

def isDigit (c : Char) : Bool := '0' ≤ c && c ≤ '9'

def natOf (cs : List Char) : Nat := Text.ofDigits (cs.map fun c => c.toNat - 0x30)

/-- The digits before the point: a zero alone, or digits that do not begin with one. -/
def whole? : List Char → Option (List Char × List Char)
  | '0' :: rest => some (['0'], rest)
  | cs =>
    match cs.span isDigit with
    | ([], _) => none
    | (ds, rest) => some (ds, rest)

def fraction : List Char → List Char × List Char
  | '.' :: rest =>
    match rest.span isDigit with
    | ([], _) => ([], '.' :: rest)
    | (ds, after) => (ds, after)
  | cs => ([], cs)

def exponent? (cs : List Char) : Option (Int × List Char) :=
  match cs with
  | e :: rest =>
    if e = 'e' || e = 'E' then
      let (negative, digits) := match rest with
        | '-' :: more => (true, more)
        | '+' :: more => (false, more)
        | more => (false, more)
      match digits.span isDigit with
      | ([], _) => none
      | (ds, after) => some (if negative then -(natOf ds : Int) else natOf ds, after)
    else none
  | [] => none

def unsignedNumber (negative : Bool) (cs : List Char) : Except Fault (Json × List Char) := do
  let some (ds, rest) := whole? cs | throw .malformed
  let (fs, rest) := fraction rest
  match exponent? rest with
  | some (e, rest) =>
    return (.float (.ofDecimal negative (natOf (ds ++ fs)) (e - fs.length)), rest)
  | none =>
    if fs.isEmpty then
      if ds.length ≤ Text.maxNumeralLength then
        return (.int (if negative then -(natOf ds : Int) else natOf ds), rest)
      else throw .overlong
    else return (.float (.ofDecimal negative (natOf (ds ++ fs)) (-(fs.length : Int))), rest)

def number : List Char → Except Fault (Json × List Char)
  | '-' :: rest => unsignedNumber true rest
  | cs => unsignedNumber false cs

mutual

/-- A value with at most the given levels of nesting, and what follows it. -/
def value : Nat → Nat → List Char → Except Fault (Json × List Char)
  | 0, _, _ => .error .malformed
  | fuel + 1, levels, cs =>
    match cs with
    | '"' :: rest => (string rest).map fun p => (.str p.1, p.2)
    | '{' :: rest =>
      if levels = 0 then .error .nested
      else match skip rest with
        | '}' :: rest => .ok (.obj [], rest)
        | rest => (fields fuel (levels - 1) rest).map fun p => (.obj (Fields.ofPairs p.1), p.2)
    | '[' :: rest =>
      if levels = 0 then .error .nested
      else match skip rest with
        | ']' :: rest => .ok (.arr [], rest)
        | rest => (items fuel (levels - 1) rest).map fun p => (.arr p.1, p.2)
    | 'n' :: 'u' :: 'l' :: 'l' :: rest => .ok (.null, rest)
    | 't' :: 'r' :: 'u' :: 'e' :: rest => .ok (.bool true, rest)
    | 'f' :: 'a' :: 'l' :: 's' :: 'e' :: rest => .ok (.bool false, rest)
    | 'N' :: 'a' :: 'N' :: rest => .ok (.float .nan, rest)
    | 'I' :: 'n' :: 'f' :: 'i' :: 'n' :: 'i' :: 't' :: 'y' :: rest =>
      .ok (.float (.infinite false), rest)
    | '-' :: 'I' :: 'n' :: 'f' :: 'i' :: 'n' :: 'i' :: 't' :: 'y' :: rest =>
      .ok (.float (.infinite true), rest)
    | cs => number cs

/-- The items of an array, from the first character of one to the closing bracket. -/
def items : Nat → Nat → List Char → Except Fault (List Json × List Char)
  | 0, _, _ => .error .malformed
  | fuel + 1, levels, cs => do
    let (item, rest) ← value fuel levels cs
    match skip rest with
    | ',' :: rest =>
      let (more, rest) ← items fuel levels (skip rest)
      return (item :: more, rest)
    | ']' :: rest => return ([item], rest)
    | _ => .error .malformed

/-- The fields of an object, from the first quote of a name to the closing brace. -/
def fields : Nat → Nat → List Char → Except Fault (List (String × Json) × List Char)
  | 0, _, _ => .error .malformed
  | fuel + 1, levels, cs =>
    match cs with
    | '"' :: rest => do
      let (key, rest) ← string rest
      match skip rest with
      | ':' :: rest =>
        let (item, rest) ← value fuel levels (skip rest)
        match skip rest with
        | ',' :: rest =>
          let (more, rest) ← fields fuel levels (skip rest)
          return ((key, item) :: more, rest)
        | '}' :: rest => return ([(key, item)], rest)
        | _ => .error .malformed
      | _ => .error .malformed
    | _ => .error .malformed

end

end Reader

variable [Machine]

def read (text : String) : Except Fault Json :=
  match Reader.value (text.toList.length + 1) Machine.textNesting (Reader.skip text.toList) with
  | .ok (v, rest) => if (Reader.skip rest).isEmpty then .ok v else .error .malformed
  | .error fault => .error fault

def parse? (text : String) : Option Json := (read text).toOption

end Sitewright.Json
