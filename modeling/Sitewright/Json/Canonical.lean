import Sitewright.Json.Number

/-!
Values by what they count. Two values are alike when they differ only in the form of their numbers
and in the order of their fields: one, `1.0` and true are alike.
-/

namespace Sitewright.Json

def canonicalFloat (x : Binary64) : Json :=
  match (Number.float x).fraction? with
  | some (num, den) => if num % den = 0 then .int (num / den) else .float x
  | none => .float x

def isFieldBefore (a b : String × Json) : Bool := decide (a.1 ≤ b.1)

mutual

/-- The value with integers for the numbers and truth values that are some, and with its fields in
the order of their names. -/
def canonical : Json → Json
  | .null => .null
  | .bool b => .int (if b then 1 else 0)
  | .int n => .int n
  | .float x => canonicalFloat x
  | .str s => .str s
  | .arr items => .arr (canonicalItems items)
  | .obj fields => .obj ((canonicalFields fields).mergeSort isFieldBefore)

def canonicalItems : List Json → List Json
  | [] => []
  | item :: rest => canonical item :: canonicalItems rest

def canonicalFields : List (String × Json) → List (String × Json)
  | [] => []
  | (key, value) :: rest => (key, canonical value) :: canonicalFields rest

end

def Alike (a b : Json) : Prop := a.canonical = b.canonical

instance (a b : Json) : Decidable (Alike a b) := by
  unfold Alike
  infer_instance

@[refl] theorem Alike.refl (a : Json) : Alike a a := rfl

@[symm] theorem Alike.symm {a b : Json} (h : Alike a b) : Alike b a := Eq.symm h

theorem Alike.trans {a b c : Json} (h : Alike a b) (k : Alike b c) : Alike a c := Eq.trans h k

end Sitewright.Json
