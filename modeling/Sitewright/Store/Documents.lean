import Sitewright.Json.Canonical
import Sitewright.Store.Transaction

/-!
Reading and writing the copies and the catalogue of a store. A database writes no document and no
metadata in the place of one that is alike.
-/

namespace Sitewright.Store

open Time (DateTime)

def readTables : Action Tables := do
  access
  return (← get).store.tables

def writeTables (tables : Tables) : Action Unit := do
  spend
  Action.changeStore fun store => { store with tables }

def copy? (projectId environment : String) : Action (Option Copy) := do
  return (← readTables).copy? projectId environment

/-- The document of a copy. In memory a null document counts as none. -/
def document? (projectId environment : String) : Action (Option Json) := do
  let copy ← copy? projectId environment
  let backing := (← get).store.backing
  return copy.map Copy.document |>.filter fun document => backing = .database ∨ document ≠ .null

def readingError (backing : Backing) (error : Error) : Error :=
  if backing = .database ∧ error.kind.isSome then .documentCorrupt error else error

def load [Machine] (projectId environment : String) : Action Project := do
  match ← document? projectId environment with
  | none => throw (.copyUnknown environment)
  | some document =>
    let backing := (← get).store.backing
    Action.ofExcept ((Project.ofJson document).mapError (readingError backing))

/-- The time of writing as the store gives it back: a database does so without its zone. -/
def writeTime (world : World) : DateTime :=
  if world.store.backing = .database then world.now.naive else world.now

def entryOf (world : World) (id : String) (project : Project) : Entry where
  id := id
  name := project.name
  metadata := project.metadata.toFields
  since := world.clock

def written (backing : Backing) (old? : Option Copy) (new : Copy) : Copy :=
  match old? with
  | none => new
  | some old =>
    if backing = .database ∧ old.document.Alike new.document then
      { new with document := old.document }
    else new

def writtenEntry (backing : Backing) (old? : Option Entry) (new : Entry) : Entry :=
  match old? with
  | none => new
  | some old =>
    if backing = .database ∧ (Json.obj old.metadata).Alike (.obj new.metadata) then
      { new with metadata := old.metadata }
    else new

/-- A copy of a project under an identifier. When there is no entry of that identifier, one is made:
in memory under the identifier of the project. -/
def save (projectId environment : String) (project : Project) : Action Unit := do
  Action.refuseIf ((← get).store.full = some environment) .diskFull
  change do
    let tables ← readTables
    let world ← get
    let copy : Copy :=
      { projectId, environment, document := project.toJson, writtenAt := writeTime world }
    let backing := world.store.backing
    let changed := tables.withCopy (written backing (tables.copy? projectId environment) copy)
    writeTables changed
    if (tables.entryOf? projectId).isNone then
      let id := if backing = .database then projectId else project.id
      writeTables (changed.withEntry (entryOf world id project))

def contains (projectId environment : String) : Action Bool := do
  return (← copy? projectId environment).isSome

def writtenAt (projectId environment : String) : Action (Option DateTime) := do
  return (← copy? projectId environment).map Copy.writtenAt

def delete (projectId : String) : Action Unit :=
  change do
    let tables ← readTables
    Action.refuseIf (tables.entryOf? projectId).isNone .projectUnknown
    writeTables (tables.without projectId)

/-- Before which entries a database lists an entry: the newest first, and of one time by
identifier. -/
def isListedBefore (a b : Entry) : Bool :=
  b.since < a.since || (a.since = b.since && decide (a.id ≤ b.id))

def catalogue : Action (List Entry) := do
  let entries := (← readTables).catalogue
  return if (← get).store.backing = .database then entries.mergeSort isListedBefore else entries

def putEntry (project : Project) : Action Unit :=
  change do
    let tables ← readTables
    let world ← get
    let entry := entryOf world project.id project
    writeTables
      (tables.withEntry (writtenEntry world.store.backing (tables.entryOf? project.id) entry))

def replaceDocument (projectId environment : String) (document : Json) : Action Unit :=
  change do
    writeTables ((← readTables).withDocument projectId environment document)

end Sitewright.Store
