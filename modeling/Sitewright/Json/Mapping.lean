import Sitewright.Json.Display
import Sitewright.Json.Number

/-!
Mappings made from values. An object is one already; any other value must consist of pairs. A key
that comes again keeps its first form and takes the last value.
-/

namespace Sitewright.Json

/-- What a value consists of when it is gone through: items, characters, or names. -/
def elements? : Json → Option (List Json)
  | .arr items => some items
  | .str s => some (s.toList.map fun c => .str (String.singleton c))
  | .obj fields => some (fields.map fun field => .str field.1)
  | _ => none

def isKey : Json → Bool
  | .arr _ | .obj _ => false
  | _ => true

def sameKey (a b : Json) : Bool :=
  match a.toNumber, b.toNumber with
  | .ok m, .ok n => m.same n
  | .error _, .error _ => a = b
  | _, _ => false

def putPair (key value : Json) : List (Json × Json) → List (Json × Json)
  | [] => [(key, value)]
  | (k, v) :: rest => if sameKey k key then (k, value) :: rest else (k, v) :: putPair key value rest

def pairOf (index : Nat) (element : Json) : Except Error (Json × Json) :=
  match element.elements? with
  | none => .error .notMapping
  | some [key, value] => if key.isKey then .ok (key, value) else .error .notMapping
  | some parts => .error (.notPair index parts.length)

def pairsFrom : Nat → List Json → List (Json × Json) → Except Error (List (Json × Json))
  | _, [], found => .ok found
  | index, element :: rest, found => do
    let (key, value) ← pairOf index element
    pairsFrom (index + 1) rest (putPair key value found)

/-- The mapping that a value is or makes, with its keys as text. -/
def toMapping : Json → Except Error (Fields Json)
  | .obj fields => .ok fields
  | value =>
    match value.elements? with
    | none => .error .notMapping
    | some elements => do
      let pairs ← pairsFrom 0 elements []
      return Fields.ofPairs (pairs.map fun pair => (pair.1.display, pair.2))

end Sitewright.Json
