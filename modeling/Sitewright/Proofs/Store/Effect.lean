import Sitewright.Proofs.Store.Settled

namespace Sitewright.Store

open Sitewright.Action (Within)

variable {α : Type}

/-- A store that is there and whose writes succeed; no note waits. -/
structure Ready (store : Store) : Prop where
  queued : store.backing = .database → store.queued = []
  present : store.lost = false
  faultless : store.fault = none

structure Working (store : Store) : Prop extends store.Ready where
  room : store.full = none

def withTables (tables : Tables) (world : World) : World :=
  { world with store := { world.store with tables } }

theorem Ready.withDepth {world : World} (h : world.store.Ready) (depth : Nat) :
    (withDepth depth world).store.Ready := { h with }

theorem Working.withTables {world : World} (h : world.store.Working) (tables : Tables) :
    (withTables tables world).store.Working := { h with }

theorem Working.withDepth {world : World} (h : world.store.Working) (depth : Nat) :
    (withDepth depth world).store.Working := { h with }

def copied (world : World) (projectId environment : String) (project : Project) : Tables :=
  let tables := world.store.tables
  let copy : Copy :=
    { projectId, environment, document := project.toJson, writtenAt := writeTime world }
  tables.withCopy (written world.store.backing (tables.copy? projectId environment) copy)

def saved (world : World) (projectId environment : String) (project : Project) : Tables :=
  let changed := copied world projectId environment project
  if (world.store.tables.entryOf? projectId).isNone then
    let id := if world.store.backing = .database then projectId else project.id
    changed.withEntry (entryOf world id project)
  else changed

def entered (world : World) (project : Project) : Tables :=
  let tables := world.store.tables
  let entry := entryOf world project.id project
  tables.withEntry (writtenEntry world.store.backing (tables.entryOf? project.id) entry)

theorem perform_writeTables {world : World} (h : world.store.Ready) (tables : Tables) :
    (writeTables tables).perform world = (.ok (), withTables tables world) := by
  have spent : spend.perform world = (.ok (), world) := by
    rw [perform_spend, h.faultless]
  rw [writeTables, Action.perform_bind_of_ok spent]
  rfl

/-- Within a transaction a change needs none of its own. -/
theorem perform_change {world : World}
    (inside : world.store.backing = .database → world.store.depth ≠ 0)
    (block : Action α) : (change block).perform world = block.perform world := by
  rw [change, Action.perform_get_bind, if_neg]
  exact fun outside => inside outside.1 outside.2

variable {world : World}

theorem perform_save (h : world.store.Working)
    (inside : world.store.backing = .database → world.store.depth ≠ 0)
    (projectId environment : String) (project : Project) :
    (save projectId environment project).perform world =
      (.ok (), withTables (saved world projectId environment project) world) := by
  have room : ¬world.store.full = some environment := by simp [h.room]
  rw [save, Action.perform_get_bind,
    Action.perform_bind_of_ok (Action.perform_refuseIf_of_not _ room world), perform_change inside,
    Action.perform_bind_of_ok (perform_readTables h.queued fun _ => h.present), Action.perform_get_bind,
    Action.perform_bind_of_ok (perform_writeTables h.toReady _)]
  simp only [saved]
  split
  · rw [perform_writeTables (h.withTables _).toReady]
    rfl
  · rfl

theorem perform_putEntry (h : world.store.Working)
    (inside : world.store.backing = .database → world.store.depth ≠ 0) (project : Project) :
    (putEntry project).perform world = (.ok (), withTables (entered world project) world) := by
  rw [putEntry, perform_change inside,
    Action.perform_bind_of_ok (perform_readTables h.queued fun _ => h.present), Action.perform_get_bind,
    perform_writeTables h.toReady]
  rfl

theorem perform_delete (h : world.store.Ready)
    (inside : world.store.backing = .database → world.store.depth ≠ 0) (projectId : String) :
    (delete projectId).perform world =
      if (world.store.tables.entryOf? projectId).isNone then (.error .projectUnknown, world)
      else (.ok (), withTables (world.store.tables.without projectId) world) := by
  rw [delete, perform_change inside,
    Action.perform_bind_of_ok (perform_readTables h.queued fun _ => h.present)]
  split
  · next none =>
    rw [Action.perform_bind_of_error (Action.perform_refuseIf_of _ none world)]
  · next some =>
    rw [Action.perform_bind_of_ok (Action.perform_refuseIf_of_not _ some world),
      perform_writeTables h]

theorem perform_note (note : AuditNote) (storable : ∃ actor, columnValue note.actor = .ok actor) :
    ∃ queued, (Store.note note).perform world =
      (.ok (), { world with store := { world.store with queued } }) := by
  obtain ⟨actor, storable⟩ := storable
  rw [Store.note, Action.perform_get_bind, storable]
  split
  · exact ⟨_, rfl⟩
  · exact ⟨world.store.queued, rfl⟩

/-- Tables that differ at most in their trail. -/
structure Tables.Match (a b : Tables) : Prop where
  copies : a.copies = b.copies
  catalogue : a.catalogue = b.catalogue

theorem perform_commit (present : world.store.lost = false) (faultless : world.store.fault = none) :
    ∃ after, commit.perform world = (.ok (), after) ∧
      after.store.tables.Match world.store.tables := by
  have written : writeQueued.perform world =
      (.ok (), { world with store := writeNotes world.clock world.store }) := by
    have spent : spend.perform world = (.ok (), world) := by
      rw [perform_spend, faultless]
    rw [writeQueued, Action.perform_bind_of_ok spent]
    rfl
  rw [commit, Action.perform_get_bind]
  split
  · next ends =>
    have there : ¬world.store.lost = true := by simp [present]
    rw [access, Action.perform_get_bind, if_pos ends.1,
      Action.perform_bind_of_ok (Action.perform_refuseIf_of_not _ there world), if_pos ends.2.2]
    exact ⟨_, written, rfl, rfl⟩
  · exact ⟨world, rfl, rfl, rfl⟩

theorem perform_transaction_of_ok {block : Action α} {mid : World} {value : α}
    (within : Within World.Frame block) (h : world.store.Ready)
    (performed : block.perform (withDepth (world.store.depth + 1) world) = (.ok value, mid)) :
    ∃ after, (transaction block).perform world = (.ok value, after) ∧
      after.store.tables.Match mid.store.tables := by
  have frame := within (withDepth (world.store.depth + 1) world)
  rw [performed] at frame
  obtain ⟨after, ended, same⟩ := @perform_commit (withDepth world.store.depth mid)
    (frame.lost.trans h.present) (frame.fault h.faultless)
  refine ⟨after, ?_, same⟩
  rw [perform_transaction, performed]
  simp only [ended]

theorem perform_transaction_of_error {block : Action α} {mid : World} {error : Error}
    (performed : block.perform (withDepth (world.store.depth + 1) world) = (.error error, mid)) :
    ((transaction block).perform world).1 = .error error := by
  rw [perform_transaction, performed]

end Sitewright.Store
