import Sitewright.Text.Hex
import Sitewright.Text.Integer
import Sitewright.Text.Split

/-!
Addresses of hosts in eight groups of hexadecimal digits, in which one run of groups that are zero
may be left out, and the last two may be written as four numbers with points between them.
-/

namespace Sitewright.Text.Ipv6

/-- A number up to 255, without needless zeros. -/
def isOctet (cs : List Char) : Bool :=
  !cs.isEmpty && cs.length ≤ 3 && cs.all Char.isDigit && (cs.length = 1 || cs.head? ≠ some '0') &&
    ofDigits (cs.map fun c => c.toNat - 0x30) ≤ 255

def isGroup (cs : List Char) : Bool :=
  !cs.isEmpty && cs.length ≤ 4 && (hexNumber? cs).isSome

/-- The groups of a part between colons: the one that it is, or the two that four numbers make. -/
def groupsOf (part : List Char) : Option (List (List Char)) :=
  if part.contains '.' then
    let octets := split '.' part
    if octets.length = 4 && octets.all isOctet then some [['0'], ['0']] else none
  else some [part]

def groups? (cs : List Char) : Option (List (List Char)) :=
  let parts := split ':' cs
  (groupsOf (parts.getLast?.getD [])).map (parts.dropLast ++ ·)

def sideGroups (side : List (List Char)) : List (List Char) := if side = [[]] then [] else side

/-- Groups with a gap among them, which stands for at least one group. -/
def hasGap : List (List Char) → Bool
  | [] => false
  | first :: rest =>
    let before := first :: rest.takeWhile (· ≠ [])
    match rest.dropWhile (· ≠ []) with
    | [] :: after :: more =>
      let groups := sideGroups before ++ sideGroups (after :: more)
      groups.length ≤ 7 && groups.all isGroup
    | _ => false

def isAddress (cs : List Char) : Bool :=
  match groups? cs with
  | some groups => (groups.length = 8 && groups.all isGroup) || hasGap groups
  | none => false

def isZonedAddress (cs : List Char) : Bool :=
  match cut? '%' cs with
  | some (address, zone) => !zone.isEmpty && !zone.contains '%' && isAddress address
  | none => isAddress cs

end Sitewright.Text.Ipv6
