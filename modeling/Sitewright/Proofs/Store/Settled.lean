import Sitewright.Proofs.Store.Frame

/-!
Stores between operations. Looking at a settled store leaves it as it is, and a transaction that
fails takes back all it has written.
-/

namespace Sitewright

open Sitewright.Action (Within)

namespace Store

/-- A store as it stands between operations: changes that fail are taken back, and no note waits to
be written. -/
structure Settled (store : Store) : Prop where
  guarded : isGuarded store = true
  queued : store.backing = .database → store.queued = []

theorem Settled.depth {store : Store} (h : store.Settled) (database : store.backing = .database) :
    store.depth = 0 := by
  simpa [isGuarded, database] using h.guarded

theorem isGuarded_congr {a b : Store} (backing : b.backing = a.backing)
    (depth : b.depth = a.depth) : isGuarded b = isGuarded a := by
  simp only [isGuarded, backing, depth]

def Unchanged (before after : World) : Prop := before.store.Settled → after.store = before.store

instance : IsPreorder World Unchanged where
  refl _ _ := rfl
  trans before mid after first second settled := by
    have same := first settled
    rw [second (same ▸ settled), same]

theorem unchanged_access : Within Unchanged access := by
  intro world settled
  rw [access, Action.perform_get_bind]
  split
  · next database =>
    have looking : Within Unchanged
        (Action.refuseIf world.store.lost .tablesGone >>= fun _ => pure ()) :=
      (Action.within_refuseIf _ _).bind fun _ => Action.within_pure ()
    simpa only [settled.queued database, ne_eq, not_true_eq_false, if_false] using
      looking world settled
  · rfl

theorem unchanged_readTables : Within Unchanged readTables :=
  unchanged_access.bind fun _ => Action.within_get.bind fun _ => Action.within_pure _

theorem perform_access {world : World}
    (queued : world.store.backing = .database → world.store.queued = [])
    (present : world.store.backing = .database → world.store.lost = false) :
    access.perform world = (.ok (), world) := by
  rw [access, Action.perform_get_bind]
  split
  · next database => simp [Action.refuseIf, present database, queued database]
  · rfl

theorem perform_readTables {world : World}
    (queued : world.store.backing = .database → world.store.queued = [])
    (present : world.store.backing = .database → world.store.lost = false) :
    readTables.perform world = (.ok world.store.tables, world) := by
  rw [readTables, Action.perform_bind_of_ok (perform_access queued present)]
  rfl

theorem perform_copy? {world : World}
    (queued : world.store.backing = .database → world.store.queued = [])
    (present : world.store.backing = .database → world.store.lost = false)
    (projectId environment : String) :
    (copy? projectId environment).perform world =
      (.ok (world.store.tables.copy? projectId environment), world) := by
  rw [copy?, Action.perform_bind_of_ok (perform_readTables queued present)]
  rfl

theorem perform_catalogue {world : World}
    (queued : world.store.backing = .database → world.store.queued = [])
    (present : world.store.lost = false) :
    ∃ entries : List Entry, entries.Perm world.store.tables.catalogue ∧
      catalogue.perform world = (.ok entries, world) := by
  rw [catalogue, Action.perform_bind_of_ok (perform_readTables queued fun _ => present),
    Action.perform_get_bind, Action.perform_pure]
  refine ⟨_, ?_, rfl⟩
  split
  · exact List.mergeSort_perm _ _
  · exact .refl _

theorem perform_load_of_none [Machine] {world : World} (settled : world.store.Settled)
    (present : world.store.lost = false) {projectId environment : String}
    (none : world.store.tables.copy? projectId environment = none) :
    (load projectId environment).perform world = (.error (.copyUnknown environment), world) := by
  have document : (document? projectId environment).perform world = (.ok .none, world) := by
    rw [document?, Action.perform_bind_of_ok (perform_copy? settled.queued (fun _ => present) _ _),
      none]
    rfl
  rw [load, Action.perform_bind_of_ok document]
  rfl

theorem perform_load_of_some [Machine] {world : World} (settled : world.store.Settled)
    (present : world.store.backing = .database → world.store.lost = false)
    {projectId environment : String} {copy : Copy}
    (stored : world.store.tables.copy? projectId environment = some copy)
    (there : copy.document ≠ .null) :
    (load projectId environment).perform world =
      ((Project.ofJson copy.document).mapError (readingError world.store.backing), world) := by
  have document : (document? projectId environment).perform world =
      (.ok (some copy.document), world) := by
    rw [document?, Action.perform_bind_of_ok (perform_copy? settled.queued present _ _), stored,
      Action.perform_get_bind, Action.perform_pure]
    simp [there]
  rw [load, Action.perform_bind_of_ok document]
  rfl

theorem perform_load [Machine] {world : World} (settled : world.store.Settled)
    (present : world.store.lost = false) {projectId environment : String} {copy : Copy}
    (stored : world.store.tables.copy? projectId environment = some copy)
    {project : Project} (read : Project.ofJson copy.document = .ok project) :
    (load projectId environment).perform world = (.ok project, world) := by
  have there : copy.document ≠ .null := by
    intro null
    rw [null] at read
    cases read
  rw [perform_load_of_some settled (fun _ => present) stored there, read]
  rfl

theorem unchanged_load [Machine] (projectId environment : String) :
    Within Unchanged (load projectId environment) :=
  within_load unchanged_readTables projectId environment

theorem unchanged_catalogue : Within Unchanged catalogue :=
  unchanged_readTables.bind fun _ => Action.within_get.bind fun _ => Action.within_pure _

variable {α β : Type}

/-- On a settled store: the store is settled afterwards, and after a failure its tables are as they
were. -/
def Atomic (action : Action α) : Prop :=
  ∀ world, world.store.Settled → (action.perform world).2.store.Settled ∧
    ∀ error, (action.perform world).1 = .error error →
      (action.perform world).2.store.tables = world.store.tables

theorem atomic_of_unchanged {action : Action α} (h : Within Unchanged action) : Atomic action := by
  intro world settled
  rw [h world settled]
  exact ⟨settled, fun _ _ => rfl⟩

theorem Atomic.after {first : Action α} {second : α → Action β} (h : Within Unchanged first)
    (k : ∀ a, Atomic (second a)) : Atomic (first >>= second) := by
  intro world settled
  have same := h world settled
  rcases performed : first.perform world with ⟨_ | a, mid⟩
  · rw [performed] at same
    rw [Action.perform_bind_of_error performed, same]
    exact ⟨settled, fun _ _ => rfl⟩
  · rw [performed] at same
    rw [Action.perform_bind_of_ok performed, ← same]
    exact k a mid (same ▸ settled)

theorem Atomic.map {action : Action α} (h : Atomic action) (f : α → β) : Atomic (f <$> action) := by
  intro world settled
  obtain ⟨settled, tables⟩ := h world settled
  rw [Action.perform_map]
  refine ⟨settled, fun error failed => ?_⟩
  rcases performed : (action.perform world).1 with cause | a
  · exact tables cause performed
  · rw [performed] at failed
    cases failed

theorem Atomic.andThen_pure {action : Action α} (h : Atomic action) (f : α → β) :
    Atomic (action >>= fun a => pure (f a)) := by
  rw [bind_pure_comp]
  exact h.map f

theorem queued_writeQueued {before after : World}
    (h : writeQueued.perform before = (.ok (), after)) : after.store.queued = [] := by
  obtain ⟨_, mid, -, written⟩ := Action.perform_bind_eq_ok.mp h
  cases written
  rfl

theorem queued_access {before after : World} (database : before.store.backing = .database)
    (h : access.perform before = (.ok (), after)) : after.store.queued = [] := by
  rw [access, Action.perform_get_bind, if_pos database] at h
  obtain ⟨_, mid, found, h⟩ := Action.perform_bind_eq_ok.mp h
  obtain ⟨-, rfl⟩ := Action.perform_refuseIf_eq_ok.mp found
  split at h
  · exact queued_writeQueued h
  · next empty =>
    cases h
    simpa using empty

/-- The outermost transaction of a database ends well only when every note has been written. -/
theorem queued_commit {before after : World} (database : before.store.backing = .database)
    (outermost : before.store.depth = 0) (h : commit.perform before = (.ok (), after)) :
    after.store.queued = [] := by
  rw [commit, Action.perform_get_bind] at h
  split at h
  · exact queued_access database h
  · next idle =>
    cases h
    simpa [database, outermost] using idle

theorem backing_depth_transaction {block : Action α}
    (within : ∀ world, (block.perform world).2.store.backing = world.store.backing)
    (world : World) :
    ((transaction block).perform world).2.store.backing = world.store.backing ∧
      ((transaction block).perform world).2.store.depth = world.store.depth := by
  have same := within (withDepth (world.store.depth + 1) world)
  have ends := ends_transaction block world
  generalize (transaction block).perform world = result at ends
  have taken (after : World) : (undone world after).store.backing = after.store.backing ∧
      (undone world after).store.depth = after.store.depth := by
    simp only [undone]
    split <;> exact ⟨rfl, rfl⟩
  cases ends with
  | failed performed =>
    rw [performed] at same
    exact ⟨(taken _).1.trans same, (taken _).2⟩
  | @unfinished _ mid _ after performed ended =>
    rw [performed] at same
    have frame := frame_commit (withDepth world.store.depth mid)
    rw [ended] at frame
    exact ⟨(taken after).1.trans (frame.backing.trans same), (taken after).2.trans frame.depth⟩
  | @finished _ mid _ performed ended =>
    rw [performed] at same
    have frame := frame_commit (withDepth world.store.depth mid)
    rw [ended] at frame
    exact ⟨frame.backing.trans same, frame.depth⟩

/-- A transaction is atomic whatever its block does, as long as the tables stay where they are. -/
theorem atomic_transaction_of_backing {block : Action α}
    (within : ∀ world, (block.perform world).2.store.backing = world.store.backing) :
    Atomic (transaction block) := by
  intro world settled
  obtain ⟨backing, depth⟩ := backing_depth_transaction within world
  have guarded := (isGuarded_congr backing depth).trans settled.guarded
  have same := within (withDepth (world.store.depth + 1) world)
  have ends := ends_transaction block world
  generalize (transaction block).perform world = result at ends guarded backing
  cases ends with
  | failed | unfinished =>
    refine ⟨⟨guarded, fun _ => ?_⟩, fun _ _ => ?_⟩ <;>
      simp only [undone, settled.guarded, if_true]
  | @finished _ mid _ performed ended =>
    refine ⟨⟨guarded, fun database => ?_⟩, fun _ failed => by cases failed⟩
    rw [performed] at same
    have database : world.store.backing = .database := backing.symm.trans database
    exact @queued_commit (withDepth world.store.depth mid) _ (same.trans database)
      (settled.depth database) ended

theorem atomic_transaction {block : Action α} (within : Within World.Frame block) :
    Atomic (transaction block) :=
  atomic_transaction_of_backing fun world => (within world).backing

end Store

end Sitewright
