import Sitewright.Error
import Sitewright.Text.Case
import Sitewright.Text.Ipv6

namespace Sitewright.Api

structure Authority where
  user : List Char
  host : List Char
  port : List Char
  deriving DecidableEq, Repr

namespace Authority

def cut (sep : Char) (cs : List Char) : List Char × List Char := (Text.cut? sep cs).getD (cs, [])

def cutLast (sep : Char) (cs : List Char) : List Char × List Char :=
  match Text.cut? sep cs.reverse with
  | some (after, before) => (before.reverse, after.reverse)
  | none => ([], cs)

/-- The host may stand in brackets, since an address holds colons itself. -/
def ofText (cs : List Char) : Authority :=
  let (user, location) := cutLast '@' cs
  let user := (cut ':' user).1
  match Text.cut? '[' location with
  | some (_, bracketed) =>
    let (host, after) := cut ']' bracketed
    { user, host, port := (cut ':' after).2 }
  | none =>
    let (host, port) := cut ':' location
    { user, host, port }

/-- A host in brackets is an address, or of a form that is yet to come. -/
def isBracketable : List Char → Bool
  | 'v' :: rest =>
    match Text.cut? '.' rest with
    | some (version, address) =>
      !version.isEmpty && (Text.hexNumber? version).isSome && !address.isEmpty
    | none => false
  | cs => Text.Ipv6.isZonedAddress cs

def hasGoodBrackets (cs : List Char) : Bool :=
  match Text.cut? '[' cs with
  | some (_, bracketed) => cs.contains ']' && isBracketable (cut ']' bracketed).1
  | none => !cs.contains ']'

/-- Characters that are only another form of one that ends an authority or parts it. -/
def delimiterForms : List Nat :=
  [0x2047, 0x2048, 0x2049, 0x2100, 0x2101, 0x2105, 0x2106, 0x2A74, 0xFE13, 0xFE16, 0xFE55, 0xFE56,
   0xFE5F, 0xFE6B, 0xFF03, 0xFF0F, 0xFF1A, 0xFF1F, 0xFF20]

def isWellFormed (cs : List Char) : Bool :=
  hasGoodBrackets cs && !cs.any fun c => delimiterForms.contains c.toNat

/-- Points of other scripts part the labels of a name too, but only in a name that is not of ASCII
characters throughout. -/
def isPoint (ascii : Bool) (c : Char) : Bool :=
  c = '.' || (!ascii && [0x3002, 0xFF0E, 0xFF61].contains c.toNat)

/-- Of the labels of a name only the last may be empty, and none is longer than 63 characters. -/
def isName (host : List Char) : Bool :=
  let isAscii (cs : List Char) : Bool := cs.all (·.toNat < 0x80)
  let point := isPoint (isAscii host)
  let labels := Text.split '.' (host.map fun c => if point c then '.' else c)
  labels.dropLast.all (!·.isEmpty) && labels.all fun l => !isAscii l || l.length ≤ 63

def portNumber? (port : List Char) : Option Nat :=
  let n := Text.ofDigits (port.map fun c => c.toNat - 0x30)
  if port.all Char.isDigit && n ≤ 65535 then some n else none

def lowerHost (host : List Char) : List Char :=
  let name := host.takeWhile (· ≠ '%')
  (Text.lower (String.ofList name)).toList ++ host.drop name.length

def normalized (authority : Authority) : Except Error (List Char) := do
  let host := lowerHost authority.host
  if !isName host then throw .hostNotName
  let some port := portNumber? authority.port | throw .targetMalformed
  let host := if host.contains ':' then '[' :: host ++ [']'] else host
  let user := if authority.user.isEmpty then [] else authority.user ++ ['@']
  return user ++ host ++ if port = 0 then [] else ':' :: (toString port).toList

end Authority

end Sitewright.Api
