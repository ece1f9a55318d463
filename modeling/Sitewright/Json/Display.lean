import Sitewright.Json.Basic
import Sitewright.Number.Shortest
import Sitewright.Text.Integer
import Sitewright.Text.Quoted

/-!
The text that stands for a JSON value where a text is wanted: a string is its own text, and inside
a list or an object strings are quoted.
-/

namespace Sitewright

def Binary64.display : Binary64 → String
  | .nan => "nan"
  | .infinite negative => if negative then "-inf" else "inf"
  | .finite negative m e => finiteText negative m e

namespace Json

mutual

def inspect : Json → String
  | .null => "None"
  | .bool b => if b then "True" else "False"
  | .int n => toString n
  | .float x => x.display
  | .str s => Text.quoted s
  | .arr items => "[" ++ inspectItems items ++ "]"
  | .obj fields => "\x7b" ++ inspectFields fields ++ "\x7d"

def inspectItems : List Json → String
  | [] => ""
  | [item] => inspect item
  | item :: rest => inspect item ++ ", " ++ inspectItems rest

def inspectFields : List (String × Json) → String
  | [] => ""
  | [(key, value)] => Text.quoted key ++ ": " ++ inspect value
  | (key, value) :: rest => Text.quoted key ++ ": " ++ inspect value ++ ", " ++ inspectFields rest

end

def display : Json → String
  | .str s => s
  | value => value.inspect

@[simp] theorem display_str (s : String) : (Json.str s).display = s := rfl

mutual

def isWritable : Json → Bool
  | .int n => decide (Text.Fits n)
  | .arr items => areWritable items
  | .obj fields => fieldsWritable fields
  | _ => true

def areWritable : List Json → Bool
  | [] => true
  | item :: rest => item.isWritable && areWritable rest

def fieldsWritable : List (String × Json) → Bool
  | [] => true
  | (_, value) :: rest => value.isWritable && fieldsWritable rest

end

theorem fieldsWritable_iff {fields : List (String × Json)} :
    fieldsWritable fields = true ↔ ∀ field ∈ fields, field.2.isWritable = true := by
  induction fields with
  | nil => simp [fieldsWritable]
  | cons first rest ih => rw [fieldsWritable, Bool.and_eq_true, ih, List.forall_mem_cons]

end Json

end Sitewright
