import Sitewright.Json.Reader
import Sitewright.Text.Split
import Sitewright.Text.Words

/-!
Markup taken in again, one character at a time. An opening tag has to be closed by the tag of the
same name before any that was opened earlier, an attribute is given once, what stands in braces is a
JSON value, and in quotes and in literal text nothing is left to be decoded.
-/

namespace Sitewright.Markup

/-- What markup stands for: values, of which texts are some, and elements around others. -/
inductive Jsx
  | value (v : Json)
  | element (name : String) (attributes : Fields Json) (content : List Jsx)
  deriving Repr

inductive Jsx.Distinct : Jsx → Prop
  | value (v : Json) : Distinct (.value v)
  | element {name : String} {attributes : Fields Json} {content : List Jsx}
      (once : (attributes.map Prod.fst).Nodup) (below : ∀ jsx ∈ content, Distinct jsx) :
      Distinct (.element name attributes content)

namespace Reading

/-- The lines of a text after the first one, without the blanks where a line breaks. -/
def bareLines : List (List Char) → List (List Char)
  | [] => []
  | [last] => [last.dropWhile Text.isBlank]
  | line :: rest => Text.trimChars line :: bareLines rest

def trimLines : List (List Char) → List (List Char)
  | [] => []
  | [line] => [line]
  | first :: rest => Text.dropWhileEnd Text.isBlank first :: bareLines rest

/-- The lines of literal text that are not empty, with a space between them. -/
def literal (cs : List Char) : List Jsx :=
  let lines := Text.split '\n' (cs.map fun c => if c = '\r' then '\n' else c)
  match (trimLines lines).filter (· ≠ []) with
  | [] => []
  | shown => [.value (.str (String.ofList (Text.joinWith ' ' shown)))]

/-- A place in an expression: how many braces are open, and whether a string is. -/
inductive Scan
  | plain (depth : Nat)
  | quoted (depth : Nat)
  | escaped (depth : Nat)

def Scan.step : Scan → Char → Option Scan
  | .plain depth, c =>
    if c = '"' then some (.quoted depth)
    else if c = '\x7b' then some (.plain (depth + 1))
    else if c = '\x7d' then (if depth = 0 then none else some (.plain (depth - 1)))
    else some (.plain depth)
  | .quoted depth, c =>
    if c = '"' then some (.plain depth)
    else if c = '\\' then some (.escaped depth)
    else some (.quoted depth)
  | .escaped depth, _ => some (.quoted depth)

/-- What the innermost open element holds so far, and for each open element, the innermost first,
its name, its attributes and what stands before it. -/
structure Nest where
  content : List Jsx := []
  outer : List (String × Fields Json × List Jsx) := []

namespace Nest

def push (nest : Nest) (found : List Jsx) : Nest := { nest with content := nest.content ++ found }

def inside (nest : Nest) (name : String) (attributes : Fields Json) : Nest :=
  ⟨[], (name, attributes, nest.content) :: nest.outer⟩

def enter? (nest : Nest) (name : String) (attributes : Fields Json) : Option Nest :=
  if (attributes.map Prod.fst).Nodup then some (nest.inside name attributes) else none

def leave? (nest : Nest) (name : String) : Option Nest :=
  match nest.outer with
  | [] => none
  | (entered, attributes, before) :: outer =>
    if entered = name then some ⟨before ++ [.element entered attributes nest.content], outer⟩
    else none

@[simp] theorem push_nil (nest : Nest) : nest.push [] = nest := by
  simp [push]

@[simp] theorem push_push (nest : Nest) (first rest : List Jsx) :
    (nest.push first).push rest = nest.push (first ++ rest) := by
  simp [push]

theorem enter?_of_nodup (nest : Nest) (name : String) {attributes : Fields Json}
    (distinct : (attributes.map Prod.fst).Nodup) :
    nest.enter? name attributes = some (nest.inside name attributes) := if_pos distinct

@[simp] theorem leave?_inside (nest : Nest) (name : String) (attributes : Fields Json)
    (found : List Jsx) :
    ((nest.inside name attributes).push found).leave? name =
      some (nest.push [.element name attributes found]) := by
  simp [inside, push, leave?]

end Nest

inductive Mode
  | content (text : List Char)
  | shown (scan : Scan) (text : List Char)
  | opened
  | closing (name : List Char)
  | naming (name : List Char)
  /-- Between two attributes, or in the name of one. -/
  | tag (name : String) (attributes : Fields Json) (key : List Char)
  | assigned (name : String) (attributes : Fields Json) (key : String)
  | quoted (name : String) (attributes : Fields Json) (key : String) (text : List Char)
  | computed (name : String) (attributes : Fields Json) (key : String) (scan : Scan)
      (text : List Char)
  | ending (name : String) (attributes : Fields Json)

def isDelimiter (c : Char) : Bool :=
  Text.isBlank c || ['<', '>', '/', '=', '\x7b', '\x7d', '"', '\'', '&'].contains c

def IsWord (s : String) : Prop := s ≠ "" ∧ ∀ c ∈ s.toList, isDelimiter c = false

instance (s : String) : Decidable (IsWord s) :=
  decidable_of_iff (s ≠ "" ∧ (s.toList.all fun c => !isDelimiter c) = true) (by simp [IsWord])

/-- A name without a value is a flag that is set. -/
def flagged (attributes : Fields Json) (key : List Char) : Fields Json :=
  if key = [] then attributes else attributes ++ [(String.ofList key, .bool true)]

def afterWord (name : String) (attributes : Fields Json) (nest : Nest) (c : Char) :
    Option (Mode × Nest) :=
  if Text.isBlank c then some (.tag name attributes [], nest)
  else if c = '/' then some (.ending name attributes, nest)
  else if c = '>' then (nest.enter? name attributes).map fun nest => (.content [], nest)
  else none

def step [Machine] : Mode × Nest → Char → Option (Mode × Nest)
  | (.content text, nest), c =>
    if c = '<' then some (.opened, nest.push (literal text))
    else if c = '\x7b' then some (.shown (.plain 0) [], nest.push (literal text))
    else if c = '>' || c = '\x7d' || c = '&' then none
    else some (.content (text ++ [c]), nest)
  | (.shown scan text, nest), c =>
    match scan.step c with
    | some scan => some (.shown scan (text ++ [c]), nest)
    | none => (Json.parse? (String.ofList text)).map fun v => (.content [], nest.push [.value v])
  | (.opened, nest), c =>
    if c = '/' then some (.closing [], nest)
    else if isDelimiter c then none
    else some (.naming [c], nest)
  | (.closing name, nest), c =>
    if c = '>' then (nest.leave? (String.ofList name)).map fun nest => (.content [], nest)
    else if isDelimiter c then none
    else some (.closing (name ++ [c]), nest)
  | (.naming name, nest), c =>
    if isDelimiter c then afterWord (String.ofList name) [] nest c
    else some (.naming (name ++ [c]), nest)
  | (.tag name attributes key, nest), c =>
    if c = '=' && key ≠ [] then some (.assigned name attributes (String.ofList key), nest)
    else if isDelimiter c then afterWord name (flagged attributes key) nest c
    else some (.tag name attributes (key ++ [c]), nest)
  | (.assigned name attributes key, nest), c =>
    if c = '"' then some (.quoted name attributes key [], nest)
    else if c = '\x7b' then some (.computed name attributes key (.plain 0) [], nest)
    else none
  | (.quoted name attributes key text, nest), c =>
    if c = '"' then some (.tag name (attributes ++ [(key, .str (String.ofList text))]) [], nest)
    else if c = '&' then none
    else some (.quoted name attributes key (text ++ [c]), nest)
  | (.computed name attributes key scan text, nest), c =>
    match scan.step c with
    | some scan => some (.computed name attributes key scan (text ++ [c]), nest)
    | none =>
      (Json.parse? (String.ofList text)).map fun v =>
        (.tag name (attributes ++ [(key, v)]) [], nest)
  | (.ending name attributes, nest), c =>
    if c = '>' then
      ((nest.enter? name attributes).bind (·.leave? name)).map fun nest => (.content [], nest)
    else none

def run [Machine] (state : Mode × Nest) (cs : List Char) : Option (Mode × Nest) :=
  cs.foldlM step state

end Reading

open Reading in
/-- The elements and values of a text that stands on lines of its own. -/
def Jsx.read [Machine] (text : String) : Option (List Jsx) :=
  match run (.content [], {}) ('\n' :: text.toList ++ ['\n']) with
  | some (.content rest, ⟨content, []⟩) => some (content ++ literal rest)
  | _ => none

end Sitewright.Markup
