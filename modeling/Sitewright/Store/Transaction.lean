import Sitewright.Store.World

/-!
Transactions. When the block of one fails, its changes to the tables are taken back: in memory by
every transaction, in a database by the outermost one. The clock, the random characters drawn and
the numbers of rows written stay as they are.
-/

namespace Sitewright.Store

variable {α : Type}

def writeNotes (clock : Time.Instant) (store : Store) : Store :=
  let rows := store.queued.zipIdx.map fun p =>
    { number := store.rowsWritten + p.2 + 1, note := p.1
      createdAt := (Time.DateTime.ofInstant clock).naive : AuditRow }
  { store with
    tables := { store.tables with audit := store.tables.audit ++ rows }
    queued := []
    rowsWritten := store.rowsWritten + rows.length }

/-- Every write counts, and the one that is going to fail does so. -/
def spend : Action Unit := do
  match (← get).store.fault with
  | none => return
  | some ⟨0, cause⟩ =>
    Action.changeStore fun store => { store with fault := none }
    throw cause
  | some ⟨after + 1, cause⟩ =>
    Action.changeStore fun store => { store with fault := some ⟨after, cause⟩ }

def writeQueued : Action Unit := do
  spend
  modify fun world => { world with store := writeNotes world.clock world.store }

/-- Every access to a database writes the queued notes first, and fails when the tables are gone. -/
def access : Action Unit := do
  let world ← get
  if world.store.backing = .database then
    Action.refuseIf world.store.lost .tablesGone
    if world.store.queued ≠ [] then writeQueued

def isGuarded (store : Store) : Bool :=
  match store.backing with
  | .memory => true
  | .unguarded => false
  | .database => store.depth = 0

/-- The world after a block that failed, with the tables as they were before it if they are taken
back. -/
def undone (before after : World) : World :=
  if isGuarded before.store then
    { after with store := { after.store with tables := before.store.tables, queued := [] } }
  else after

def withDepth (depth : Nat) (world : World) : World :=
  { world with store := { world.store with depth } }

/-- The outermost transaction of a database ends with the notes that are still queued. -/
def commit : Action Unit := do
  let world ← get
  if world.store.backing = .database ∧ world.store.depth = 0 ∧ world.store.queued ≠ [] then access

def transaction (block : Action α) : Action α := ExceptT.mk fun before =>
  let depth := before.store.depth
  match block.perform (withDepth (depth + 1) before) with
  | (.error error, after) => (.error error, undone before (withDepth depth after))
  | (.ok value, after) =>
    match commit.perform (withDepth depth after) with
    | (.error error, after) => (.error error, undone before after)
    | (.ok (), after) => (.ok value, after)

/-- A change to a database that stands alone is a transaction of its own. -/
def change (block : Action α) : Action α := do
  let world ← get
  if world.store.backing = .database ∧ world.store.depth = 0 then transaction block else block

end Sitewright.Store
