import Sitewright.Error
import Sitewright.Text.Split
import Sitewright.Time.Iso

/-!
Cursors: the time and the identifier of the last row of a page, with a bar between them. The
identifier may hold bars of its own.
-/

namespace Sitewright

open Time (DateTime)

structure Cursor where
  time : DateTime
  id : String
  deriving DecidableEq, Repr

namespace Cursor

def toText (cursor : Cursor) : String := cursor.time.iso ++ "|" ++ cursor.id

def ofRow (time : Option DateTime) (id : Json) : Except Error Cursor :=
  match time, id with
  | none, _ | _, .null => .error .cursorIncomplete
  | some time, id => .ok ⟨time, id.display⟩

def ofText (s : String) : Except Error Cursor :=
  match Text.cut? '|' s.toList with
  | none => .error .cursorUnreadable
  | some (time, id) =>
    match DateTime.ofIso? (String.ofList time) with
    | none => .error .cursorUnreadable
    | some time => .ok ⟨time, String.ofList id⟩

end Cursor

end Sitewright
