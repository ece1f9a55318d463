import Sitewright.Json.Basic

/-!
How deep a value is nested. A value that stands alone has one level, and a list or an object has one
more than what is in it.
-/

namespace Sitewright.Json

mutual

def nesting : Json → Nat
  | .arr items => itemsNesting items + 1
  | .obj fields => fieldsNesting fields + 1
  | _ => 1

def itemsNesting : List Json → Nat
  | [] => 0
  | item :: rest => max item.nesting (itemsNesting rest)

def fieldsNesting : List (String × Json) → Nat
  | [] => 0
  | (_, value) :: rest => max value.nesting (fieldsNesting rest)

end

mutual

/-- The calls inside each other that writing the value over several lines takes: one for each list
or object, and one for a number with a fraction. -/
def writingCalls : Json → Nat
  | .arr items => itemsWritingCalls items + 1
  | .obj fields => fieldsWritingCalls fields + 1
  | .float _ => 1
  | _ => 0

def itemsWritingCalls : List Json → Nat
  | [] => 0
  | item :: rest => max item.writingCalls (itemsWritingCalls rest)

def fieldsWritingCalls : List (String × Json) → Nat
  | [] => 0
  | (_, value) :: rest => max value.writingCalls (fieldsWritingCalls rest)

end

theorem nesting_pos (value : Json) : 0 < value.nesting := by
  cases value <;> simp [nesting]

@[simp] theorem nesting_str (s : String) : (Json.str s).nesting = 1 := by simp [nesting]

@[simp] theorem nesting_ofText? (text? : Option String) : (ofText? text?).nesting = 1 := by
  cases text? with
  | none => simp [ofText?, nesting]
  | some text => exact nesting_str text

end Sitewright.Json
