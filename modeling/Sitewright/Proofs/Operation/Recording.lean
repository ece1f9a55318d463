import Mathlib.Data.List.Forall2
import Sitewright.Proofs.Operation.Outcome
import Sitewright.Proofs.Store.Recording
import Sitewright.Session.Command

/-!
What operations add to the audit trail of a database: a row for each one that writes and succeeds,
and nothing else. A transaction around several operations adds their rows when it succeeds as a
whole.
-/

namespace Sitewright.Operation

open Sitewright.Action (Logging Silent Within)
open Store (Atomic AuditAction AuditNote AuditRow Keeping Logs withDepth)
open Time (DateTime Instant)

/-! What an operation does besides writing -/

theorem silent_currentTime (given : Option DateTime) : Silent (currentTime given) :=
  Action.silent_get.bind fun _ => Action.silent_pure _

theorem silent_checkUnmodified (projectId environment : String) (known : Option DateTime) :
    Silent (checkUnmodified projectId environment known) := by
  cases known with
  | none => exact Action.silent_pure ()
  | some known =>
    refine (Store.silent_writtenAt projectId environment).bind fun written? => ?_
    cases written? with
    | none => exact Action.silent_pure ()
    | some written => exact (Action.silent_ofExcept _).bind fun _ => Action.silent_refuseIf _ _

theorem silent_ask (transform : Transform) (project : Project) (instruction : String) :
    Silent (ask transform project instruction) := by
  refine Silent.bind ?_ fun _ => Action.silent_ofExcept _
  exact Action.silent_modify fun _ => Store.logs_of_eq rfl rfl rfl

theorem silent_rewritten [Machine] (prior : Project) (instruction : String)
    (transform : Transform) :
    Silent (rewritten prior instruction transform) :=
  (silent_ask transform prior instruction).bind fun _ => Action.silent_get.bind fun _ =>
    (Action.silent_ofExcept _).bind fun _ => (Action.silent_draw _).bind fun _ =>
      Action.silent_ofExcept _

theorem silent_getProject [Machine] (projectId : String) : Silent (getProject projectId) :=
  (Store.silent_load _ _).mapError _

theorem silent_loadCopy [Machine] (projectId : String) (environment : Json) :
    Silent (loadCopy projectId environment) :=
  (Action.silent_ofExcept _).bind fun _ => Store.silent_load _ _

/-! The transactions -/

theorem logging_writeNoted (projectId : String) (environment : Environment)
    (known : Option DateTime) (project : Project) (note : AuditNote) :
    Logging (Keeping note) (writeNoted projectId environment known project note) := by
  have written : Silent (writeCopy projectId environment project) :=
    (Store.silent_save _ _ _).bind fun _ =>
      Action.logging_ite (Store.silent_putEntry project) (Action.silent_pure ())
  exact Store.logging_transaction <| (silent_checkUnmodified _ _ _).bind fun _ =>
    written.bind fun _ => Store.logging_note note

theorem logging_writeDeployment (projectId : String) (target : Target) (deployed synced : Project)
    (note : AuditNote) :
    Logging (Keeping note) (writeDeployment projectId target deployed synced note) :=
  Store.logging_transaction <| (Store.silent_save _ _ _).bind fun _ =>
    (Store.silent_save _ _ _).bind fun _ => (Store.silent_putEntry _).bind fun _ =>
      Store.logging_note note

theorem logging_deleteProject (projectId : String) (actor : Json) :
    Logging (Keeping { action := .delete, projectId, actor }) (deleteProject projectId actor) :=
  Store.logging_transaction <| (Store.silent_delete projectId).bind fun _ => Store.logging_note _

namespace Call

/-- What a call is recorded as. An enhancement that is not saved is not recorded, and neither is a
call that only reads. -/
def recordedAs? : Call → Option AuditAction
  | .create .. | .save .. => some .save
  | .promote .. => some .promote
  | .enhance _ _ _ saves environment _ _ =>
    if saves = true ∧ environment ≠ .null then some .enhance else none
  | .delete .. => some .delete
  | _ => none

def actor : Call → Json
  | .create _ actor _ | .save _ _ _ actor _ _ | .promote _ _ _ actor _ _
  | .enhance _ _ _ _ _ actor _ | .delete _ actor => actor
  | _ => .null

structure Records (call : Call) (note : AuditNote) : Prop where
  action : call.recordedAs? = some note.action
  project : call.IsOn note.projectId
  actor : Store.columnValue call.actor = .ok note.actor

theorem Records.actor_eq {call : Call} {note : AuditNote} (h : call.Records note)
    (name? : Option String) (named : call.actor = .ofText? name?) :
    note.actor = .ofText? name? := by
  have stored := h.actor
  rw [named] at stored
  cases name? <;> exact (Except.ok.inj stored).symm

def recorded (calls : List Call) : List Call := calls.filter fun call => call.recordedAs?.isSome

@[simp] theorem recorded_append (calls others : List Call) :
    recorded (calls ++ others) = recorded calls ++ recorded others :=
  List.filter_append ..

def Noted (calls : List Call) (notes : List AuditNote) : Prop :=
  List.Forall₂ Records (recorded calls) notes

section

variable {α : Type} {action : Action α}

theorem logging_of_silent (call : Call) (h : action.Silent)
    (unrecorded : call.recordedAs? = none) :
    action.Logging (Noted [call]) := by
  refine h.imp fun notes none => ?_
  have left : recorded [call] = [] := by simp [recorded, unrecorded]
  rw [Noted, left, none]
  exact .nil

theorem logging_of_keeping (call : Call) {note : AuditNote} (h : action.Logging (Keeping note))
    (done : call.recordedAs? = some note.action) (project : call.IsOn note.projectId)
    (actor : call.actor = note.actor) : action.Logging (Noted [call]) := by
  refine h.imp fun notes keeping => ?_
  obtain ⟨stored, kept, rfl⟩ := keeping
  have left : recorded [call] = [call] := by simp [recorded, done]
  rw [Noted, left]
  exact .cons ⟨done, project, actor ▸ kept⟩ .nil

end

theorem logging_create [Machine] (data actor : Json) (at? : Option DateTime) :
    Logging (Noted [.create data actor at?]) (createProject data actor at?) := by
  refine (silent_currentTime at?).bind fun time =>
    (Action.silent_ofExcept _).bind_of_answer fun project answered => ?_
  obtain ⟨_, _, answered⟩ := answered
  have made : created data time = .ok project := congrArg Prod.fst answered
  refine (logging_of_keeping _ (logging_writeNoted _ _ _ _ _) ?_ ?_ ?_).andThen_pure _
  · rfl
  · exact id_of_created made
  · rfl

theorem logging_save [Machine] (projectId : String) (environment data actor : Json)
    (at? known : Option DateTime) :
    Logging (Noted [.save projectId environment data actor at? known])
      (saveCopy projectId environment data actor at? known) := by
  refine (Action.silent_ofExcept _).bind fun _ => (silent_currentTime at?).bind fun _ =>
    (Action.silent_ofExcept _).bind fun _ =>
      (logging_of_keeping _ (logging_writeNoted _ _ _ _ _) ?_ ?_ ?_).andThen_pure _
  · rfl
  · rfl
  · rfl

theorem logging_promote [Machine] (projectId : String) (target message actor : Json)
    (at? : Option DateTime) (limit : Int) :
    Logging (Noted [.promote projectId target message actor at? limit])
      (Operation.promote projectId target message actor at? limit) := by
  refine (Action.silent_ofExcept _).bind fun _ => (Action.silent_ofExcept _).bind fun _ =>
    ((Store.silent_load _ _).mapError _).bind fun _ => (Action.silent_ofExcept _).bind fun _ =>
      (silent_currentTime at?).bind fun _ => (Action.silent_ofExcept _).bind fun _ =>
        Action.silent_get.bind fun _ => (Action.silent_draw _).bind fun _ =>
          (Action.silent_ofExcept _).bind fun _ =>
            (logging_of_keeping _ (logging_writeDeployment _ _ _ _ _) ?_ ?_ ?_).andThen_pure _
  · rfl
  · rfl
  · rfl

theorem logging_enhance [Machine] (prior : Project) (instruction : Json) (transform : Transform)
    (saves : Bool) (environment actor : Json) (at? : Option DateTime) :
    Logging (Noted [.enhance prior instruction transform saves environment actor at?])
      (Operation.enhance prior instruction transform saves environment actor at?) := by
  refine (Action.silent_ofExcept _).bind fun instruction =>
    (Action.silent_ofExcept _).bind_of_answer fun place answered =>
      (silent_rewritten _ _ _).bind_of_answer fun project rewriting => ?_
  obtain ⟨_, _, answered⟩ := answered
  obtain ⟨_, _, rewriting⟩ := rewriting
  have label : environmentOf environment = .ok place := congrArg Prod.fst answered
  split
  · next place =>
    have named : environment ≠ .null := by
      rintro rfl
      cases label
    refine (silent_currentTime at?).bind fun _ => (Action.silent_ofExcept _).bind fun _ =>
      (Action.silent_ofExcept _).bind_of_answer fun copy copying => ?_
    obtain ⟨_, _, copying⟩ := copying
    obtain ⟨-, rfl⟩ := Project.eq_of_withMetadata_ok (congrArg Prod.fst copying)
    refine (logging_of_keeping _ (logging_writeNoted _ _ _ _ _) ?_ ?_ ?_).andThen_pure _
    · simp [recordedAs?, named, enhanceNote]
    · exact (id_of_rewritten rewriting).symm
    · rfl
  · next place other =>
    refine logging_of_silent _ (Action.silent_pure _) (if_neg fun both => ?_)
    obtain ⟨environment, rfl⟩ := exists_of_environmentOf label both.2
    exact other environment both.1 rfl

theorem logging_perform [Machine] (call : Call) : Logging (Noted [call]) call.perform := by
  cases call with
  | create => exact (logging_create _ _ _).map _
  | save => exact (logging_save _ _ _ _ _ _).map _
  | promote => exact (logging_promote _ _ _ _ _ _).andThen_pure _
  | enhance => exact (logging_enhance _ _ _ _ _ _ _).map _
  | delete projectId actor =>
    exact (logging_of_keeping (.delete projectId actor) (logging_deleteProject projectId actor)
      rfl rfl rfl).andThen_pure _
  | get projectId => exact logging_of_silent _ ((silent_getProject projectId).map _) rfl
  | load projectId environment =>
    exact logging_of_silent _ ((silent_loadCopy projectId environment).map _) rfl
  | deployments projectId =>
    exact logging_of_silent _ (((silent_getProject projectId).andThen_pure _).map _) rfl
  | list => exact logging_of_silent _ (Store.silent_catalogue.andThen_pure _) rfl

end Call

/-! Runs -/

/-- What may be asked of a store at once: an operation, several operations in one transaction, which
may fail at its end, or a page of the audit trail. -/
inductive Step
  | operation (call : Call)
  | block (calls : List Call) (aborts : Bool)
  | page (limit : Int) (cursor : Option String)

namespace Step

def command : Step → Session.Command
  | .operation call => .operation call
  | .block calls aborts => .transaction (calls.map .operation) aborts
  | .page limit cursor => .audit limit cursor

def calls : Step → List Call
  | .operation call => [call]
  | .block calls _ => calls
  | .page _ _ => []

end Step

theorem logging_performAll [Machine] (calls : List Call) :
    Logging (Call.Noted calls) (Session.Command.performAll (calls.map .operation)) := by
  induction calls with
  | nil =>
    rw [List.map_nil, Session.Command.performAll]
    refine (Action.silent_pure _).imp fun notes none => ?_
    rw [none]
    exact .nil
  | cons call rest ih =>
    rw [List.map_cons, Session.Command.performAll, Session.Command.perform]
    intro world answers after database performed
    obtain ⟨_, mid, performed, others⟩ := Action.perform_bind_eq_ok.mp performed
    obtain ⟨notes, noted, logs⟩ := call.logging_perform world _ _ database performed
    obtain ⟨more, noted', logs'⟩ :=
      ih.andThen_pure _ mid _ _ (logs.backing.trans database) others
    refine ⟨notes ++ more, ?_, logs.trans logs'⟩
    rw [Call.Noted, ← List.singleton_append, Call.recorded_append]
    exact List.rel_append noted noted'

theorem logging_command [Machine] (step : Step) :
    Logging (Call.Noted step.calls) step.command.perform := by
  cases step with
  | operation call =>
    rw [Step.command, Session.Command.perform]
    exact call.logging_perform
  | block calls aborts =>
    rw [Step.command, Session.Command.perform]
    refine (Store.logging_transaction ((logging_performAll calls).andThen fun answers => ?_)).map _
    exact Action.logging_ite (Action.logging_throw _) (Action.silent_pure _)
  | page limit cursor =>
    rw [Step.command, Session.Command.perform]
    refine ((Store.silent_auditPage _ _ _).map _).imp fun notes none => ?_
    rw [none]
    exact .nil

/-! What a step leaves of a settled store -/

theorem sameBacking_block [Machine] (calls : List Call) (aborts : Bool) :
    Within SameBacking do
      let answers ← Session.Command.performAll (calls.map .operation)
      if aborts then throw .blockAborted
      return answers := by
  have all : Within SameBacking (Session.Command.performAll (calls.map .operation)) := by
    induction calls with
    | nil =>
      rw [List.map_nil, Session.Command.performAll]
      exact Action.within_pure _
    | cons call rest ih =>
      rw [List.map_cons, Session.Command.performAll, Session.Command.perform]
      exact (sameBacking_perform call).bind fun _ => ih.bind fun _ => Action.within_pure _
  exact all.bind fun _ => Action.within_ite (Action.within_throw _) (Action.within_pure _)

theorem sameBacking_command [Machine] (step : Step) : Within SameBacking step.command.perform := by
  cases step with
  | operation call =>
    rw [Step.command, Session.Command.perform]
    exact sameBacking_perform call
  | block calls aborts =>
    rw [Step.command, Session.Command.perform]
    exact Within.map (fun world =>
      (Store.backing_depth_transaction (sameBacking_block calls aborts) world).1) _
  | page limit cursor =>
    rw [Step.command, Session.Command.perform]
    exact (sameBacking_of_frame (Store.frame_auditPage _ _ _)).map _

theorem atomic_command [Machine] (step : Step) : Atomic step.command.perform := by
  cases step with
  | operation call =>
    rw [Step.command, Session.Command.perform]
    exact call.atomic_perform
  | block calls aborts =>
    rw [Step.command, Session.Command.perform]
    exact (Store.atomic_transaction_of_backing (sameBacking_block calls aborts)).map _
  | page limit cursor =>
    rw [Step.command, Session.Command.perform]
    exact (Store.atomic_of_unchanged (Store.unchanged_auditPage _ _ _)).map _

def Recorded (calls : List Call) (rows : List AuditRow) : Prop :=
  List.Forall₂ (fun call row => call.Records row.note) (Call.recorded calls) rows

/-- What a step does to the trail of a settled database: nothing if it fails, and otherwise it adds
the rows of its calls. -/
theorem audit_of_step [Machine] (step : Step) {world : World} (settled : world.store.Settled)
    (database : world.store.backing = .database) :
    let performed := step.command.perform.perform world
    ∃ rows, performed.2.store.tables.audit = world.store.tables.audit ++ rows ∧
      Recorded (if performed.1.isOk then step.calls else []) rows := by
  obtain ⟨settled', failed⟩ := atomic_command step world settled
  rcases performed : step.command.perform.perform world with ⟨error | answer, after⟩
  · rw [performed] at failed
    refine ⟨[], ?_, .nil⟩
    rw [List.append_nil]
    exact congrArg _ (failed error rfl)
  · rw [performed] at settled'
    obtain ⟨notes, noted, logs⟩ := logging_command step world answer after database performed
    obtain ⟨rows, audit, queued⟩ := logs.trail
    rw [settled.queued database, settled'.queued (logs.backing.trans database), List.append_nil,
      List.nil_append] at queued
    rw [← queued, Call.Noted, List.forall₂_map_right_iff] at noted
    exact ⟨rows, audit, noted⟩

/-- A run of steps, with the calls that have succeeded and have not been taken back, in their order.
Between two steps time goes on, and writes begin to fail or to succeed again. -/
inductive Logged [Machine] (start : World) : World → List Call → Prop
  | start : Logged start start []
  | between {world : World} {calls : List Call} (clock : Instant) (random : Random)
    (full : Option String) (fault : Option Store.Fault) : Logged start world calls →
    Logged start { world with clock, random, store := { world.store with full, fault } } calls
  | step {world : World} {calls : List Call} (step : Step) : Logged start world calls →
    Logged start (step.command.perform.perform world).2
      (calls ++ if (step.command.perform.perform world).1.isOk then step.calls else [])

theorem settled_of_logged [Machine] {start world : World} {calls : List Call}
    (settled : start.store.Settled) (run : Logged start world calls) : world.store.Settled := by
  induction run with
  | start => exact settled
  | between _ _ _ _ _ ih => exact ⟨ih.guarded, ih.queued⟩
  | step step _ ih => exact (atomic_command step _ ih).1

theorem database_of_logged [Machine] {start world : World} {calls : List Call}
    (database : start.store.backing = .database) (run : Logged start world calls) :
    world.store.backing = .database := by
  induction run with
  | start => exact database
  | between _ _ _ _ _ ih => exact ih
  | step step run ih => exact (sameBacking_command step _).trans ih

theorem Logged.operation [Machine] {start world after : World} {calls : List Call} {call : Call}
    {answer : Json} (run : Logged start world calls)
    (performed : call.perform.perform world = (.ok answer, after)) :
    Logged start after (calls ++ [call]) := by
  have next := run.step (.operation call)
  rw [Step.command, Session.Command.perform, performed] at next
  exact next

theorem recorded_of_logged [Machine] {start world : World} {calls : List Call}
    (settled : start.store.Settled) (database : start.store.backing = .database)
    (run : Logged start world calls) :
    ∃ rows, world.store.tables.audit = start.store.tables.audit ++ rows ∧ Recorded calls rows := by
  induction run with
  | start => exact ⟨[], (List.append_nil _).symm, .nil⟩
  | between _ _ _ _ _ ih => exact ih
  | step step run ih =>
    obtain ⟨rows, audit, recorded⟩ := ih
    obtain ⟨more, added, recorded'⟩ := audit_of_step step (settled_of_logged settled run)
      (database_of_logged database run)
    refine ⟨rows ++ more, ?_, ?_⟩
    · rw [added, audit, List.append_assoc]
    · rw [Recorded, Call.recorded_append]
      exact List.rel_append recorded recorded'

/-- Over every run on a database the audit trail only grows, by one row for each recorded call that
has succeeded and has not been taken back. Whatever call comes next, it adds one row if it is to be
recorded and succeeds, and otherwise none: the row names what was done, the project and the actor.
-/
theorem audit_of_run [Machine] {start world : World} {calls : List Call}
    (settled : start.store.Settled)
    (database : start.store.backing = .database) (run : Logged start world calls) :
    (∃ rows, world.store.tables.audit = start.store.tables.audit ++ rows ∧ Recorded calls rows) ∧
      ∀ call : Call, match call.recordedAs?, call.perform.perform world with
        | some action, (.ok _, after) =>
          ∃ row, after.store.tables.audit = world.store.tables.audit ++ [row] ∧
            row.note.action = action ∧ call.IsOn row.note.projectId ∧
            Store.columnValue call.actor = .ok row.note.actor
        | _, (_, after) => after.store.tables.audit = world.store.tables.audit := by
  refine ⟨recorded_of_logged settled database run, fun call => ?_⟩
  obtain ⟨rows, added, recorded⟩ := audit_of_step (.operation call)
    (settled_of_logged settled run) (database_of_logged database run)
  rw [Step.command, Session.Command.perform] at added recorded
  rcases performed : call.perform.perform world with ⟨error | answer, after⟩
  · rw [performed] at added recorded
    rw [List.forall₂_nil_left_iff.mp recorded, List.append_nil] at added
    cases call.recordedAs? <;> exact added
  · rw [performed] at added recorded
    have recorded : List.Forall₂ (fun call row => call.Records row.note)
      (Call.recorded [call]) rows := recorded
    rcases action : call.recordedAs? with _ | action
    · have left : Call.recorded [call] = [] := by simp [Call.recorded, action]
      rw [left, List.forall₂_nil_left_iff] at recorded
      rw [recorded, List.append_nil] at added
      exact added
    · have left : Call.recorded [call] = [call] := by simp [Call.recorded, action]
      rw [left] at recorded
      obtain ⟨row, rest, said, none, rfl⟩ := List.forall₂_cons_left_iff.mp recorded
      rw [List.forall₂_nil_left_iff.mp none] at added
      exact ⟨row, added, Option.some.inj (said.action.symm.trans action), said.project, said.actor⟩

theorem audit_of_run_deleted :
    let empty : World := { store := { backing := .database }, clock := 0, random := default }
    let saved := Call.save "p1" (.str "staging") (.obj [("id", .str "p1"), ("name", .str "Home")])
      (.str "ann") none none
    let deleted := Call.delete "p1" (.str "bob")
    ∃ world, Logged empty world [saved, deleted] ∧
      ∃ first last, world.store.tables.audit = [first, last] ∧
        first.note.action = .save ∧ first.note.projectId = "p1" ∧ first.note.actor = .str "ann" ∧
        last.note.action = .delete ∧ last.note.projectId = "p1" ∧ last.note.actor = .str "bob" := by
  intro empty saved deleted
  obtain ⟨answer, performed⟩ := Action.exists_of_isOk
    (by decide +kernel : (saved.perform.perform empty).1.isOk = true)
  obtain ⟨answer', performed'⟩ := Action.exists_of_isOk
    (by decide +kernel : (deleted.perform.perform (saved.perform.perform empty).2).1.isOk = true)
  have run : Logged empty _ [saved, deleted] :=
    (Logged.start.operation performed).operation performed'
  obtain ⟨⟨rows, audit, recorded⟩, -⟩ := audit_of_run (settled_empty (by decide)) rfl run
  obtain ⟨first, rest, said, others, rfl⟩ := List.forall₂_cons_left_iff.mp recorded
  obtain ⟨last, rest, said', none, rfl⟩ := List.forall₂_cons_left_iff.mp others
  rw [List.forall₂_nil_left_iff.mp none] at audit
  refine ⟨_, run, first, last, audit, ?_, ?_, said.actor_eq (some "ann") rfl, ?_, ?_,
    said'.actor_eq (some "bob") rfl⟩
  · exact (Option.some.inj said.action).symm
  · exact said.project.symm
  · exact (Option.some.inj said'.action).symm
  · exact said'.project.symm

end Sitewright.Operation
