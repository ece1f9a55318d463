import Sitewright.Listing.Cursor
import Sitewright.Listing.Page
import Sitewright.Store.Column
import Sitewright.Store.Transaction
import Sitewright.Text.Hex

/-!
The audit trail: notes that are written with the change they describe and never changed, and the
trail shown a page at a time, the newest rows first.
-/

namespace Sitewright

open Time (DateTime)

namespace Store

def queue (note : AuditNote) (store : Store) : Store :=
  { store with queued := store.queued ++ [note] }

/-- The rows that are queued take their numbers without being written, and one row more. -/
def skipRows (store : Store) : Store :=
  { store with rowsWritten := store.rowsWritten + store.queued.length + 1 }

/-- Only a database keeps an audit trail, and in it an actor as its column can. -/
def note (note : AuditNote) : Action Unit := do
  if (← get).store.backing = .database then
    match columnValue note.actor with
    | .ok actor => Action.changeStore (queue { note with actor })
    | .error error =>
      Action.changeStore skipRows
      throw error

namespace AuditRow

def id (row : AuditRow) : String :=
  let digits := Text.hexDigits 32 row.number
  let group (first last : Nat) := (digits.drop first).take (last - first)
  String.ofList (Text.joinWith '-'
    [group 0 8, group 8 12, group 12 16, group 16 20, group 20 32])

def toJson (row : AuditRow) : Json :=
  .obj [
    ("id", .str row.id),
    ("actor_id", row.note.actor),
    ("action", .str row.note.action.name),
    ("entity_type", .str "project"),
    ("entity_id", .str row.note.projectId),
    ("payload", .obj row.note.payload),
    ("created_at", .str row.createdAt.iso)]

/-- Where a row stands among the others: by the wall clock first, then by identifier. -/
def place (row : AuditRow) : Time.Instant × String := (row.createdAt.naive.instant, row.id)

end AuditRow

def Cursor.place (cursor : Cursor) : Time.Instant × String := (cursor.time.naive.instant, cursor.id)

def isEarlier (a b : Time.Instant × String) : Bool :=
  a.1 < b.1 || (a.1 = b.1 && decide (a.2 < b.2))

/-- What rows are asked for; an empty text asks for nothing. -/
structure AuditFilter where
  action : Option String := none
  entityType : Option String := none
  entityId : Option String := none

def AuditFilter.holds (filter : AuditFilter) (row : AuditRow) : Bool :=
  let agrees (wanted : Option String) (value : String) :=
    wanted.all fun s => s = "" || s = value
  agrees filter.action row.note.action.name && agrees filter.entityType "project" &&
    agrees filter.entityId row.note.projectId

structure AuditPage where
  rows : List AuditRow
  next : Option Cursor
  deriving Repr

namespace AuditPage

def ofRows (rows : List AuditRow) (cursor : Option Cursor) (limit : Nat) : AuditPage :=
  let wanted := rows.filter fun row => cursor.all fun c => isEarlier row.place (Cursor.place c)
  let sorted := wanted.mergeSort fun a b => !isEarlier a.place b.place
  let shown := sorted.take limit
  { rows := shown
    next :=
      if limit < sorted.length then shown.getLast?.map fun row => ⟨row.createdAt, row.id⟩
      else none }

def response (page : AuditPage) (cursor : Option String) : Fields Json :=
  Listing.response "data" (page.rows.map AuditRow.toJson) (some [
    ("has_more", .bool page.next.isSome),
    ("next_cursor", .ofText? (page.next.map Cursor.toText)),
    ("prev_cursor", .ofText? cursor)])

end AuditPage

/-- A database counts rows up to this number; one more than are shown is asked for. -/
def maxRowCount : Int := Nat.pow 2 63 - 1

/-- A page of the rows that a filter lets through. An empty text is no cursor. -/
def auditPage (filter : AuditFilter) (cursor : Option String) (limit : Int) :
    Action (Fields Json) := do
  if limit ≤ 0 then throw .limitNotPositive
  let place ← match cursor with
    | none | some "" => pure none
    | some text => some <$> Action.ofExcept (Sitewright.Cursor.ofText text)
  access
  if maxRowCount ≤ limit then throw .numberTooLarge
  let rows := (← get).store.tables.audit.filter filter.holds
  return (AuditPage.ofRows rows place limit.toNat).response cursor

end Store

end Sitewright
