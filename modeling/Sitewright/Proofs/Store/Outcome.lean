import Mathlib.Logic.Basic
import Sitewright.Proofs.Store.Invariant
import Sitewright.Proofs.Store.Lookup

namespace Sitewright

namespace Action

variable {α β : Type} {world after : World}

theorem exists_of_isOk {result : Except Error α × World} (h : result.1.isOk = true) :
    ∃ a, result = (.ok a, result.2) := by
  rcases result with ⟨_ | a, after⟩
  · cases h
  · exact ⟨a, rfl⟩

theorem perform_ofExcept_bind_eq_ok {result : Except Error α} {second : α → Action β} {b : β} :
    (ofExcept result >>= second).perform world = (.ok b, after) ↔
      ∃ a, result = .ok a ∧ (second a).perform world = (.ok b, after) := by
  rw [perform_bind, perform_ofExcept]
  cases result <;> simp

@[simp] theorem perform_draw_bind (next : Random → α × Random) (second : α → Action β) (world : World) :
    (draw next >>= second).perform world =
      (second (next world.random).1).perform { world with random := (next world.random).2 } := rfl

theorem perform_mapError_eq_ok {action : Action α} {change : Error → Error} {a : α} :
    (action.mapError change).perform world = (.ok a, after) ↔
      action.perform world = (.ok a, after) := by
  rw [perform_mapError, Prod.ext_iff, Prod.ext_iff]
  exact and_congr mapError_eq_ok Iff.rfl

theorem perform_map_eq_ok {action : Action α} {f : α → β} {b : β} :
    (f <$> action).perform world = (.ok b, after) ↔
      ∃ a, action.perform world = (.ok a, after) ∧ f a = b := by
  rw [perform_map]
  rcases action.perform world with ⟨_ | a, mid⟩
  · simp [Except.map]
  · simp only [Except.map, Prod.mk.injEq, Except.ok.injEq]
    exact ⟨fun same => ⟨a, ⟨rfl, same.2⟩, same.1⟩, fun ⟨_, ⟨rfl, same⟩, answer⟩ => ⟨answer, same⟩⟩

end Action

namespace Store

variable {α : Type} {world after : World}

def withFault (fault : Option Fault) (world : World) : World :=
  { world with store := { world.store with fault } }

def withQueued (queued : List AuditNote) (world : World) : World :=
  { world with store := { world.store with queued } }

/-- No note waits, so that looking at the tables writes none. -/
def Idle (store : Store) : Prop := store.backing = .database → store.queued = []

/-- Within a transaction of a database, or in memory. -/
def Inside (store : Store) : Prop := store.backing = .database → store.depth ≠ 0

theorem perform_spend_eq_ok (h : spend.perform world = (.ok (), after)) :
    ∃ fault, after = withFault fault world := by
  rw [perform_spend] at h
  split at h
  · cases h
    exact ⟨world.store.fault, rfl⟩
  · cases h
  · cases h
    exact ⟨_, rfl⟩

theorem perform_writeTables_eq_ok {tables : Tables}
    (h : (writeTables tables).perform world = (.ok (), after)) :
    ∃ fault, after = withFault fault (withTables tables world) := by
  obtain ⟨_, mid, spent, written⟩ := Action.perform_bind_eq_ok.mp h
  obtain ⟨fault, rfl⟩ := perform_spend_eq_ok spent
  cases written
  exact ⟨fault, rfl⟩

theorem perform_access_eq_ok (idle : world.store.Idle)
    (h : access.perform world = (.ok (), after)) : after = world := by
  rw [access, Action.perform_get_bind] at h
  split at h
  · next database =>
    obtain ⟨_, mid, found, h⟩ := Action.perform_bind_eq_ok.mp h
    obtain ⟨-, rfl⟩ := Action.perform_refuseIf_eq_ok.mp found
    rw [if_neg (not_not.mpr (idle database))] at h
    cases h
    rfl
  · cases h
    rfl

theorem present_of_access (database : world.store.backing = .database)
    (h : access.perform world = (.ok (), after)) : world.store.lost = false := by
  rw [access, Action.perform_get_bind, if_pos database] at h
  obtain ⟨_, _, found, -⟩ := Action.perform_bind_eq_ok.mp h
  exact Bool.eq_false_iff.mpr (Action.perform_refuseIf_eq_ok.mp found).1

theorem perform_readTables_eq_ok {tables : Tables} (idle : world.store.Idle)
    (h : readTables.perform world = (.ok tables, after)) :
    tables = world.store.tables ∧ after = world := by
  obtain ⟨_, mid, accessed, read⟩ := Action.perform_bind_eq_ok.mp h
  obtain rfl := perform_access_eq_ok idle accessed
  cases read
  exact ⟨rfl, rfl⟩

theorem perform_writtenAt_eq_ok {projectId environment : String} {written? : Option Time.DateTime}
    (idle : world.store.Idle)
    (h : (writtenAt projectId environment).perform world = (.ok written?, after)) :
    after = world := by
  obtain ⟨_, _, found, answered⟩ := Action.perform_bind_eq_ok.mp h
  obtain ⟨_, _, read, picked⟩ := Action.perform_bind_eq_ok.mp found
  obtain ⟨-, rfl⟩ := perform_readTables_eq_ok idle read
  cases picked
  cases answered
  rfl

theorem perform_save_eq_ok {projectId environment : String} {project : Project}
    (idle : world.store.Idle) (inside : world.store.Inside)
    (h : (save projectId environment project).perform world = (.ok (), after)) :
    ∃ fault,
      after = withFault fault (withTables (saved world projectId environment project) world) := by
  rw [save, Action.perform_get_bind] at h
  obtain ⟨_, mid, room, saving⟩ := Action.perform_bind_eq_ok.mp h
  obtain ⟨-, rfl⟩ := Action.perform_refuseIf_eq_ok.mp room
  rw [perform_change inside] at saving
  obtain ⟨tables, mid, read, writing⟩ := Action.perform_bind_eq_ok.mp saving
  obtain ⟨rfl, rfl⟩ := perform_readTables_eq_ok idle read
  rw [Action.perform_get_bind] at writing
  obtain ⟨_, changed, written, entering⟩ := Action.perform_bind_eq_ok.mp writing
  obtain ⟨fault, rfl⟩ := perform_writeTables_eq_ok written
  simp only [saved]
  split at entering
  · next new =>
    obtain ⟨fault, rfl⟩ := perform_writeTables_eq_ok entering
    rw [if_pos new]
    exact ⟨fault, rfl⟩
  · next old =>
    cases entering
    rw [if_neg old]
    exact ⟨fault, rfl⟩

theorem present_of_save {projectId environment : String} {project : Project}
    (database : world.store.backing = .database) (inside : world.store.Inside)
    (h : (save projectId environment project).perform world = (.ok (), after)) :
    world.store.lost = false := by
  rw [save, Action.perform_get_bind] at h
  obtain ⟨_, _, room, saving⟩ := Action.perform_bind_eq_ok.mp h
  obtain ⟨-, rfl⟩ := Action.perform_refuseIf_eq_ok.mp room
  rw [perform_change inside] at saving
  obtain ⟨_, _, read, -⟩ := Action.perform_bind_eq_ok.mp saving
  obtain ⟨_, _, accessed, -⟩ := Action.perform_bind_eq_ok.mp read
  exact present_of_access database accessed

theorem perform_putEntry_eq_ok {project : Project} (idle : world.store.Idle)
    (inside : world.store.Inside) (h : (putEntry project).perform world = (.ok (), after)) :
    ∃ fault, after = withFault fault (withTables (entered world project) world) := by
  rw [putEntry, perform_change inside] at h
  obtain ⟨tables, mid, read, writing⟩ := Action.perform_bind_eq_ok.mp h
  obtain ⟨rfl, rfl⟩ := perform_readTables_eq_ok idle read
  exact perform_writeTables_eq_ok writing

theorem perform_delete_eq_ok {projectId : String} (idle : world.store.Idle)
    (inside : world.store.Inside) (h : (delete projectId).perform world = (.ok (), after)) :
    (world.store.tables.entryOf? projectId).isSome ∧
      ∃ fault,
        after = withFault fault (withTables (world.store.tables.without projectId) world) := by
  rw [delete, perform_change inside] at h
  obtain ⟨tables, mid, read, deleting⟩ := Action.perform_bind_eq_ok.mp h
  obtain ⟨rfl, rfl⟩ := perform_readTables_eq_ok idle read
  obtain ⟨_, mid, found, writing⟩ := Action.perform_bind_eq_ok.mp deleting
  obtain ⟨known, rfl⟩ := Action.perform_refuseIf_eq_ok.mp found
  exact ⟨Option.isSome_iff_ne_none.mpr (by simpa using known), perform_writeTables_eq_ok writing⟩

theorem perform_note_eq_ok {note : AuditNote}
    (h : (Store.note note).perform world = (.ok (), after)) :
    ∃ queued, after = withQueued queued world := by
  rw [Store.note, Action.perform_get_bind] at h
  split at h
  · split at h
    · cases h
      exact ⟨_, rfl⟩
    · cases h
  · cases h
    exact ⟨world.store.queued, rfl⟩

theorem perform_load_eq_ok [Machine] {projectId environment : String} {project : Project}
    (settled : world.store.Settled) (sound : world.Sound)
    (h : (load projectId environment).perform world = (.ok project, after)) :
    after = world ∧ world.store.tables.document? projectId environment = some project.toJson ∧
      project.StoredAs projectId environment := by
  rcases found : world.store.tables.copy? projectId environment with _ | copy
  · rw [perform_load_of_none settled sound.present found] at h
    cases h
  · obtain ⟨other, written, stored⟩ := sound.tables copy (Tables.mem_of_copy? found)
    obtain ⟨rfl, rfl⟩ := Tables.isOf_of_copy? found
    have read : Project.ofJson copy.document = .ok other :=
      written ▸ Project.ofJson_toJson stored.readable
    rw [perform_load settled sound.present found read] at h
    cases h
    exact ⟨rfl, by rw [Tables.document?, found, Option.map_some, written], stored⟩

theorem match_writeQueued (h : writeQueued.perform world = (.ok (), after)) :
    after.store.tables.Match world.store.tables := by
  obtain ⟨_, mid, spent, written⟩ := Action.perform_bind_eq_ok.mp h
  obtain ⟨fault, rfl⟩ := perform_spend_eq_ok spent
  cases written
  exact ⟨rfl, rfl⟩

theorem match_access (h : access.perform world = (.ok (), after)) :
    after.store.tables.Match world.store.tables := by
  rw [access, Action.perform_get_bind] at h
  split at h
  · obtain ⟨_, mid, found, h⟩ := Action.perform_bind_eq_ok.mp h
    obtain ⟨-, rfl⟩ := Action.perform_refuseIf_eq_ok.mp found
    split at h
    · exact match_writeQueued h
    · cases h
      exact ⟨rfl, rfl⟩
  · cases h
    exact ⟨rfl, rfl⟩

theorem match_transaction {block : Action α} {value : α}
    (h : (transaction block).perform world = (.ok value, after)) :
    ∃ mid, block.perform (withDepth (world.store.depth + 1) world) = (.ok value, mid) ∧
      after.store.tables.Match mid.store.tables := by
  have ends := ends_transaction block world
  rw [h] at ends
  cases ends with
  | @finished _ mid _ performed ended =>
    refine ⟨mid, performed, ?_⟩
    rw [commit, Action.perform_get_bind] at ended
    split at ended
    · exact @match_access (withDepth world.store.depth mid) after ended
    · cases ended
      exact ⟨rfl, rfl⟩

end Store

end Sitewright
