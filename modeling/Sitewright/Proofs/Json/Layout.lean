import Sitewright.Json.Reader
import Sitewright.Json.Writer

/-!
The two forms of a JSON text as one: what stands between the items of an array or an object depends
on the layout, and is blank. Values are written before a rest, so that what is written can be read
from its first character on.
-/

namespace Sitewright.Json

def quoted (ascii : Bool) (s : String) (rest : List Char) : List Char :=
  '"' :: (s.toList.flatMap (escapeChar ascii) ++ '"' :: rest)

theorem toList_stringText_append (ascii : Bool) (s : String) (rest : List Char) :
    (stringText ascii s).toList ++ rest = quoted ascii s rest := by
  simp [stringText, quoted]

/-- What stands inside the brackets of an array or an object and after its commas, at a level. -/
structure Layout where
  ascii : Bool
  edge : Nat → List Char
  gap : Nat → List Char
  edge_blank : ∀ level, ∀ c ∈ edge level, Reader.isSpace c = true
  gap_blank : ∀ level, ∀ c ∈ gap level, Reader.isSpace c = true

namespace Layout

def line (ascii : Bool) : Layout where
  ascii := ascii
  edge _ := []
  gap _ := [' ']
  edge_blank := by simp
  gap_blank := by simp [Reader.isSpace]

theorem isSpace_of_mem_newline (level : Nat) :
    ∀ c ∈ (newline level).toList, Reader.isSpace c = true := by
  intro c hc
  simp only [newline, String.toList_ofList, List.mem_cons, List.mem_replicate] at hc
  rcases hc with rfl | ⟨-, rfl⟩ <;> rfl

def block (ascii : Bool) : Layout where
  ascii := ascii
  edge level := (newline level).toList
  gap level := (newline level).toList
  edge_blank := isSpace_of_mem_newline
  gap_blank := isSpace_of_mem_newline

variable (layout : Layout)

mutual

def write (level : Nat) : Json → List Char → List Char
  | .null, rest => 'n' :: 'u' :: 'l' :: 'l' :: rest
  | .bool true, rest => 't' :: 'r' :: 'u' :: 'e' :: rest
  | .bool false, rest => 'f' :: 'a' :: 'l' :: 's' :: 'e' :: rest
  | .int n, rest => (toString n).toList ++ rest
  | .float x, rest => (floatText x).toList ++ rest
  | .str s, rest => quoted layout.ascii s rest
  | .arr [], rest => '[' :: ']' :: rest
  | .arr items, rest =>
    '[' :: (layout.edge (level + 1) ++
      writeItems (level + 1) items (layout.edge level ++ ']' :: rest))
  | .obj [], rest => '\x7b' :: '\x7d' :: rest
  | .obj fields, rest =>
    '\x7b' :: (layout.edge (level + 1) ++
      writeFields (level + 1) fields (layout.edge level ++ '\x7d' :: rest))

def writeItems (level : Nat) : List Json → List Char → List Char
  | [], rest => rest
  | [item], rest => write level item rest
  | item :: items, rest =>
    write level item (',' :: (layout.gap level ++ writeItems level items rest))

def writeFields (level : Nat) : List (String × Json) → List Char → List Char
  | [], rest => rest
  | [(key, value)], rest => quoted layout.ascii key (':' :: ' ' :: write level value rest)
  | (key, value) :: fields, rest =>
    quoted layout.ascii key (':' :: ' ' :: write level value
      (',' :: (layout.gap level ++ writeFields level fields rest)))

end

section Equations

variable (level : Nat) (rest : List Char)

theorem write_arr_cons (item : Json) (items : List Json) :
    layout.write level (.arr (item :: items)) rest =
      '[' :: (layout.edge (level + 1) ++ layout.writeItems (level + 1) (item :: items)
        (layout.edge level ++ ']' :: rest)) := rfl

theorem write_obj_cons (field : String × Json) (fields : List (String × Json)) :
    layout.write level (.obj (field :: fields)) rest =
      '\x7b' :: (layout.edge (level + 1) ++ layout.writeFields (level + 1) (field :: fields)
        (layout.edge level ++ '\x7d' :: rest)) := rfl

theorem writeItems_cons_cons (item next : Json) (items : List Json) :
    layout.writeItems level (item :: next :: items) rest =
      layout.write level item
        (',' :: (layout.gap level ++ layout.writeItems level (next :: items) rest)) := rfl

theorem writeFields_cons_cons (key : String) (value : Json) (next : String × Json)
    (fields : List (String × Json)) :
    layout.writeFields level ((key, value) :: next :: fields) rest =
      quoted layout.ascii key (':' :: ' ' :: layout.write level value
        (',' :: (layout.gap level ++ layout.writeFields level (next :: fields) rest))) := rfl

end Equations

theorem quoted_append (ascii : Bool) (s : String) (rest after : List Char) :
    quoted ascii s (rest ++ after) = quoted ascii s rest ++ after := by
  simp [quoted]

mutual

theorem write_append (level : Nat) : ∀ (value : Json) (rest after : List Char),
    layout.write level value (rest ++ after) = layout.write level value rest ++ after
  | .null, _, _ | .bool true, _, _ | .bool false, _, _ | .arr [], _, _ | .obj [], _, _ => rfl
  | .int _, _, _ | .float _, _, _ => by simp only [write, List.append_assoc]
  | .str s, rest, after => quoted_append layout.ascii s rest after
  | .arr (item :: items), rest, after => by
    have inside := writeItems_append (level + 1) (item :: items)
      (layout.edge level ++ ']' :: rest) after
    rw [List.append_assoc, List.cons_append] at inside
    rw [write_arr_cons, write_arr_cons, inside, List.cons_append, List.append_assoc]
  | .obj (field :: fields), rest, after => by
    have inside := writeFields_append (level + 1) (field :: fields)
      (layout.edge level ++ '\x7d' :: rest) after
    rw [List.append_assoc, List.cons_append] at inside
    rw [write_obj_cons, write_obj_cons, inside, List.cons_append, List.append_assoc]

theorem writeItems_append (level : Nat) : ∀ (items : List Json) (rest after : List Char),
    layout.writeItems level items (rest ++ after) = layout.writeItems level items rest ++ after
  | [], _, _ => rfl
  | [item], rest, after => write_append level item rest after
  | item :: next :: items, rest, after => by
    have others := write_append level item
      (',' :: (layout.gap level ++ layout.writeItems level (next :: items) rest)) after
    rw [writeItems_cons_cons, writeItems_cons_cons, writeItems_append level (next :: items),
      ← others, List.cons_append, List.append_assoc]

theorem writeFields_append (level : Nat) :
    ∀ (fields : List (String × Json)) (rest after : List Char),
    layout.writeFields level fields (rest ++ after) = layout.writeFields level fields rest ++ after
  | [], _, _ => rfl
  | [(key, value)], rest, after => by
    rw [writeFields, writeFields, write_append level value rest, ← quoted_append]
    rfl
  | (key, value) :: next :: fields, rest, after => by
    have others := write_append level value
      (',' :: (layout.gap level ++ layout.writeFields level (next :: fields) rest)) after
    rw [writeFields_cons_cons, writeFields_cons_cons, writeFields_append level (next :: fields),
      ← quoted_append, List.cons_append, List.cons_append, ← others, List.cons_append,
      List.append_assoc]

end

theorem exists_write_obj (level : Nat) (fields : List (String × Json)) :
    ∃ inner, ∀ rest,
      layout.write level (.obj fields) rest = '\x7b' :: (inner ++ '\x7d' :: rest) := by
  cases fields with
  | nil => exact ⟨[], fun _ => rfl⟩
  | cons field fields =>
    refine ⟨layout.edge (level + 1) ++ layout.writeFields (level + 1) (field :: fields)
      (layout.edge level), fun rest => ?_⟩
    rw [write_obj_cons, writeFields_append, List.append_assoc]

variable (ascii : Bool)

mutual

theorem toList_compact (level : Nat) : ∀ (value : Json) (rest : List Char),
    (compact ascii value).toList ++ rest = (line ascii).write level value rest
  | .null, _ | .bool true, _ | .bool false, _ | .arr [], _ | .obj [], _ => by
    simp [compact, compactItems, compactFields, write]
  | .int _, _ | .float _, _ => by simp only [compact, write]
  | .str s, rest => by
    simp only [compact, write]
    exact toList_stringText_append ascii s rest
  | .arr (item :: items), rest => by
    have inside := toList_compactItems (level + 1) (item :: items) (']' :: rest)
    simp only [compact, write, String.toList_append, List.append_assoc]
    exact congrArg ('[' :: ·) inside
  | .obj (field :: fields), rest => by
    have inside := toList_compactFields (level + 1) (field :: fields) ('\x7d' :: rest)
    simp only [compact, write, String.toList_append, List.append_assoc]
    exact congrArg ('\x7b' :: ·) inside

theorem toList_compactItems (level : Nat) : ∀ (items : List Json) (rest : List Char),
    (compactItems ascii items).toList ++ rest = (line ascii).writeItems level items rest
  | [], _ => rfl
  | [item], rest => toList_compact level item rest
  | item :: next :: items, rest => by
    simp only [compactItems, writeItems, String.toList_append, List.append_assoc]
    rw [toList_compactItems level (next :: items) rest, toList_compact level item]
    rfl

theorem toList_compactFields (level : Nat) : ∀ (fields : List (String × Json)) (rest : List Char),
    (compactFields ascii fields).toList ++ rest = (line ascii).writeFields level fields rest
  | [], _ => rfl
  | [(key, value)], rest => by
    simp only [compactFields, writeFields, String.toList_append, List.append_assoc]
    rw [toList_compact level value, toList_stringText_append]
    rfl
  | (key, value) :: next :: fields, rest => by
    simp only [compactFields, writeFields, String.toList_append, List.append_assoc]
    rw [toList_compactFields level (next :: fields) rest, toList_compact level value,
      toList_stringText_append]
    rfl

end

mutual

theorem toList_indented (level : Nat) : ∀ (value : Json) (rest : List Char),
    (indented ascii level value).toList ++ rest = (block ascii).write level value rest
  | .null, _ | .bool true, _ | .bool false, _ | .arr [], _ | .obj [], _ => by
    simp [indented, write]
  | .int _, _ | .float _, _ => by simp only [indented, write]
  | .str s, rest => by
    simp only [indented, write]
    exact toList_stringText_append ascii s rest
  | .arr (item :: items), rest => by
    have inside := toList_indentedItems (level + 1) (item :: items)
      ((newline level).toList ++ ']' :: rest)
    simp only [indented, write, String.toList_append, List.append_assoc]
    exact congrArg (fun cs => '[' :: ((newline (level + 1)).toList ++ cs)) inside
  | .obj (field :: fields), rest => by
    have inside := toList_indentedFields (level + 1) (field :: fields)
      ((newline level).toList ++ '\x7d' :: rest)
    simp only [indented, write, String.toList_append, List.append_assoc]
    exact congrArg (fun cs => '\x7b' :: ((newline (level + 1)).toList ++ cs)) inside

theorem toList_indentedItems (level : Nat) : ∀ (items : List Json) (rest : List Char),
    (indentedItems ascii level items).toList ++ rest = (block ascii).writeItems level items rest
  | [], _ => rfl
  | [item], rest => toList_indented level item rest
  | item :: next :: items, rest => by
    simp only [indentedItems, writeItems, String.toList_append, List.append_assoc]
    rw [toList_indentedItems level (next :: items) rest, toList_indented level item]
    rfl

theorem toList_indentedFields (level : Nat) : ∀ (fields : List (String × Json)) (rest : List Char),
    (indentedFields ascii level fields).toList ++ rest = (block ascii).writeFields level fields rest
  | [], _ => rfl
  | [(key, value)], rest => by
    simp only [indentedFields, writeFields, String.toList_append, List.append_assoc]
    rw [toList_indented level value, toList_stringText_append]
    rfl
  | (key, value) :: next :: fields, rest => by
    simp only [indentedFields, writeFields, String.toList_append, List.append_assoc]
    rw [toList_indentedFields level (next :: fields) rest, toList_indented level value,
      toList_stringText_append]
    rfl

end

end Layout

end Sitewright.Json
