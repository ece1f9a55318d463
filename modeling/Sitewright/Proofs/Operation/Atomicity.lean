import Sitewright.Proofs.Store.Settled

namespace Sitewright

open Sitewright.Action (Within)
open Time (DateTime)

namespace Operation

open Store (Atomic Unchanged unchanged_readTables)
open World (Frame)

variable {α : Type}

theorem unchanged_currentTime (given : Option DateTime) : Within Unchanged (currentTime given) :=
  Action.within_get.bind fun _ => Action.within_pure _

theorem unchanged_draw (next : Random → α × Random) : Within Unchanged (Action.draw next) :=
  fun _ _ => rfl

theorem unchanged_mapError {action : Action α} (h : Within Unchanged action)
    (change : Error → Error) : Within Unchanged (action.mapError change) := h

theorem unchanged_rewritten [Machine] (prior : Project) (instruction : String)
    (transform : Transform) :
    Within Unchanged (rewritten prior instruction transform) := by
  refine Within.bind ?_ fun reply => Action.within_get.bind fun world =>
    (Action.within_ofExcept _).bind fun repaired => (unchanged_draw _).bind fun project =>
      Action.within_ofExcept _
  exact (Action.within_modify fun _ _ => rfl).bind fun _ => Action.within_ofExcept _

theorem frame_checkUnmodified (projectId environment : String) (known : Option DateTime) :
    Within Frame (checkUnmodified projectId environment known) := by
  cases known with
  | none => exact Action.within_pure ()
  | some known =>
    refine (Store.frame_writtenAt projectId environment).bind fun written? => ?_
    cases written? with
    | none => exact Action.within_pure ()
    | some written => exact (Action.within_ofExcept _).bind fun _ => Action.within_refuseIf _ _

theorem frame_writeCopy (projectId : String) (environment : Environment) (project : Project) :
    Within Frame (writeCopy projectId environment project) :=
  (Store.frame_save _ _ _).bind fun _ =>
    Action.within_ite (Store.frame_putEntry project) (Action.within_pure ())

theorem frame_noteCopy (projectId : String) (environment : Environment)
    (known : Option DateTime) (project : Project) (note : Store.AuditNote) :
    Within Frame (noteCopy projectId environment known project note) :=
  (frame_checkUnmodified _ _ _).bind fun _ => (frame_writeCopy _ _ _).bind fun _ =>
    Store.frame_note note

theorem frame_noteDeployment (projectId : String) (target : Target) (deployed synced : Project)
    (note : Store.AuditNote) :
    Within Frame (noteDeployment projectId target deployed synced note) :=
  (Store.frame_save _ _ _).bind fun _ => (Store.frame_save _ _ _).bind fun _ =>
    (Store.frame_putEntry _).bind fun _ => Store.frame_note note

theorem frame_noteDeletion (projectId : String) (actor : Json) :
    Within Frame (noteDeletion projectId actor) :=
  (Store.frame_delete projectId).bind fun _ => Store.frame_note _

theorem atomic_writeNoted (projectId : String) (environment : Environment)
    (known : Option DateTime) (project : Project) (note : Store.AuditNote) :
    Atomic (writeNoted projectId environment known project note) :=
  Store.atomic_transaction (frame_noteCopy _ _ _ _ _)

theorem atomic_createProject [Machine] (data actor : Json) (at? : Option DateTime) :
    Atomic (createProject data actor at?) :=
  .after (unchanged_currentTime at?) fun _ => .after (Action.within_ofExcept _) fun _ =>
    (atomic_writeNoted _ _ _ _ _).andThen_pure _

theorem atomic_saveCopy [Machine] (projectId : String) (environment data actor : Json)
    (at? known : Option DateTime) :
    Atomic (saveCopy projectId environment data actor at? known) :=
  .after (Action.within_ofExcept _) fun _ => .after (unchanged_currentTime at?) fun _ =>
    .after (Action.within_ofExcept _) fun _ => (atomic_writeNoted _ _ _ _ _).andThen_pure _

theorem atomic_writeDeployment (projectId : String) (target : Target) (deployed synced : Project)
    (note : Store.AuditNote) : Atomic (writeDeployment projectId target deployed synced note) :=
  Store.atomic_transaction (frame_noteDeployment _ _ _ _ _)

theorem atomic_promote [Machine] (projectId : String) (target message actor : Json)
    (at? : Option DateTime)
    (historyLimit : Int) : Atomic (promote projectId target message actor at? historyLimit) :=
  .after (Action.within_ofExcept _) fun _ => .after (Action.within_ofExcept _) fun _ =>
    .after (unchanged_mapError (Store.unchanged_load _ _) _) fun _ =>
      .after (Action.within_ofExcept _) fun _ => .after (unchanged_currentTime at?) fun _ =>
        .after (Action.within_ofExcept _) fun _ => .after Action.within_get fun _ =>
          .after (unchanged_draw _) fun _ => .after (Action.within_ofExcept _) fun _ =>
            (atomic_writeDeployment _ _ _ _ _).andThen_pure _

theorem atomic_saveRewritten [Machine] (project : Project) (environment : Environment)
    (instruction : String) (actor : Json) (at? : Option DateTime) :
    Atomic (saveRewritten project environment instruction actor at?) :=
  .after (unchanged_currentTime at?) fun _ => .after (Action.within_ofExcept _) fun _ =>
    .after (Action.within_ofExcept _) fun _ => (atomic_writeNoted _ _ _ _ _).andThen_pure _

theorem atomic_enhance [Machine] (prior : Project) (instruction : Json) (transform : Transform)
    (saves : Bool) (environment actor : Json) (at? : Option DateTime) :
    Atomic (enhance prior instruction transform saves environment actor at?) := by
  refine .after (Action.within_ofExcept _) fun instruction => .after (Action.within_ofExcept _)
    fun environment => .after (unchanged_rewritten prior instruction transform) fun project => ?_
  split
  · exact atomic_saveRewritten _ _ _ _ _
  · exact Store.atomic_of_unchanged (Action.within_pure _)

theorem atomic_deleteProject (projectId : String) (actor : Json) :
    Atomic (deleteProject projectId actor) :=
  Store.atomic_transaction (frame_noteDeletion projectId actor)

theorem unchanged_getProject [Machine] (projectId : String) :
    Within Unchanged (getProject projectId) :=
  unchanged_mapError (Store.unchanged_load _ _) _

theorem unchanged_loadCopy [Machine] (projectId : String) (environment : Json) :
    Within Unchanged (loadCopy projectId environment) :=
  (Action.within_ofExcept _).bind fun _ => Store.unchanged_load _ _

theorem unchanged_deployments [Machine] (projectId : String) :
    Within Unchanged (deployments projectId) :=
  (unchanged_getProject projectId).bind fun _ => Action.within_pure _

namespace Call

theorem atomic_perform [Machine] (call : Call) : Atomic call.perform := by
  cases call with
  | create data actor at? => exact (atomic_createProject data actor at?).map _
  | save => exact (atomic_saveCopy _ _ _ _ _ _).map _
  | promote => exact (atomic_promote _ _ _ _ _ _).andThen_pure _
  | enhance => exact (atomic_enhance _ _ _ _ _ _ _).map _
  | delete => exact (atomic_deleteProject _ _).andThen_pure _
  | get => exact (Store.atomic_of_unchanged (unchanged_getProject _)).map _
  | load => exact (Store.atomic_of_unchanged (unchanged_loadCopy _ _)).map _
  | deployments => exact (Store.atomic_of_unchanged (unchanged_deployments _)).map _
  | list => exact (Store.atomic_of_unchanged Store.unchanged_catalogue).andThen_pure _

/-- A call that fails, be it for what it was given or for a write that did not succeed, leaves the
copies with their times of writing, the catalogue and the audit trail as they were. -/
theorem tables_of_perform_eq_error [Machine] (call : Call) {world after : World} {error : Error}
    (settled : world.store.Settled) (failed : call.perform.perform world = (.error error, after)) :
    after.store.tables = world.store.tables := by
  have tables := (call.atomic_perform world settled).2 error
  rw [failed] at tables
  exact tables rfl

/-- A database with one project whose next write succeeds and the one after that does not. -/
def failingWorld : World where
  store := {
    backing := .database
    tables := {
      copies := [⟨"p1", "builder", Project.toJson { id := "p1", name := "" }, DateTime.ofInstant 0⟩]
      catalogue := [⟨"p1", "", [], 0⟩] }
    fault := some ⟨1, .diskFull⟩ }
  clock := 0
  random := default

theorem tables_of_perform_eq_error_delete :
    let performed := (Call.delete "p1" .null).perform.perform failingWorld
    failingWorld.store.Settled ∧ performed.1 = .error .diskFull ∧
      performed.2.store.tables = failingWorld.store.tables := by
  have settled : failingWorld.store.Settled := ⟨rfl, fun _ => rfl⟩
  have failed : ((Call.delete "p1" .null).perform.perform failingWorld).1 = .error .diskFull := rfl
  exact ⟨settled, failed, tables_of_perform_eq_error _ settled (Prod.ext failed rfl)⟩

end Call

end Operation

end Sitewright
