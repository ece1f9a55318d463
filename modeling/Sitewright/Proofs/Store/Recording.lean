import Sitewright.Proofs.Store.Paging

/-!
What actions that succeed add to the audit trail of a database. A note waits in the queue until it
is written as a row, so what counts is the trail followed by the queue: only noting something makes
it longer, and writing the queue moves its notes without losing one.
-/

namespace Sitewright

namespace Store

variable {α β : Type}

/-- Of notes: this one alone, with its actor as a database keeps it. -/
def Keeping (note : AuditNote) (notes : List AuditNote) : Prop :=
  ∃ actor, columnValue note.actor = .ok actor ∧ notes = [{ note with actor }]

/-- Rows are added at the end of the trail, and they and the notes that still wait are the notes
that waited before followed by these. -/
structure Logs (notes : List AuditNote) (before after : World) : Prop where
  backing : after.store.backing = before.store.backing
  trail : ∃ rows, after.store.tables.audit = before.store.tables.audit ++ rows ∧
    rows.map AuditRow.note ++ after.store.queued = before.store.queued ++ notes

theorem logs_of_eq {before after : World} (backing : after.store.backing = before.store.backing)
    (audit : after.store.tables.audit = before.store.tables.audit)
    (queued : after.store.queued = before.store.queued) : Logs [] before after where
  backing := backing
  trail := by
    refine ⟨[], ?_, ?_⟩
    · rw [audit, List.append_nil]
    · rw [queued, List.append_nil, List.map_nil, List.nil_append]

theorem Logs.refl (world : World) : Logs [] world world := logs_of_eq rfl rfl rfl

theorem Logs.trans {notes others : List AuditNote} {before mid after : World}
    (h : Logs notes before mid) (k : Logs others mid after) :
    Logs (notes ++ others) before after where
  backing := k.backing.trans h.backing
  trail := by
    obtain ⟨rows, audit, queued⟩ := h.trail
    obtain ⟨more, audit', queued'⟩ := k.trail
    refine ⟨rows ++ more, ?_, ?_⟩
    · rw [audit', audit, List.append_assoc]
    · rw [List.map_append, List.append_assoc, queued', ← List.append_assoc, queued,
        List.append_assoc]

end Store

namespace Action

open Store (AuditNote Logs)

variable {α β : Type} {P Q : List AuditNote → Prop}

def Logging (P : List AuditNote → Prop) (action : Action α) : Prop :=
  ∀ world a after, world.store.backing = .database → action.perform world = (.ok a, after) →
    ∃ notes, P notes ∧ Logs notes world after

def Silent (action : Action α) : Prop := action.Logging (· = [])

theorem silent_of_logs {action : Action α}
    (h : ∀ world a after, action.perform world = (.ok a, after) → Logs [] world after) :
    Silent action :=
  fun world a after _ performed => ⟨[], rfl, h world a after performed⟩

theorem silent_pure (a : α) : Silent (pure a) := by
  refine silent_of_logs fun world b after performed => ?_
  cases performed
  exact .refl world

theorem logging_throw (error : Error) : Logging P (throw error : Action α) := by
  intro world a after _ performed
  cases performed

theorem silent_ofExcept (result : Except Error α) : Silent (ofExcept result) := by
  refine silent_of_logs fun world a after performed => ?_
  cases performed
  exact .refl world

theorem silent_get : Silent (get : Action World) := by
  refine silent_of_logs fun world a after performed => ?_
  cases performed
  exact .refl world

theorem silent_modify {change : World → World} (h : ∀ world, Logs [] world (change world)) :
    Silent (modify change : Action Unit) := by
  refine silent_of_logs fun world a after performed => ?_
  cases performed
  exact h world

theorem silent_draw (next : Random → α × Random) : Silent (draw next) := by
  refine silent_of_logs fun world a after performed => ?_
  cases performed
  exact Store.logs_of_eq rfl rfl rfl

theorem logging_ite {condition : Prop} [Decidable condition] {first second : Action α}
    (h : first.Logging P) (k : second.Logging P) :
    Logging P (if condition then first else second) := by
  split
  · exact h
  · exact k

theorem silent_refuseIf (condition : Prop) [Decidable condition] (error : Error) :
    Silent (refuseIf condition error) :=
  logging_ite (logging_throw error) (silent_pure ())

theorem Logging.imp {action : Action α} (h : action.Logging P) (k : ∀ notes, P notes → Q notes) :
    action.Logging Q := by
  intro world a after database performed
  obtain ⟨notes, holds, logs⟩ := h world a after database performed
  exact ⟨notes, k notes holds, logs⟩

theorem Silent.bind_of_answer {first : Action α} {second : α → Action β} (h : first.Silent)
    (k : ∀ a, (∃ world after, first.perform world = (.ok a, after)) → (second a).Logging P) :
    (first >>= second).Logging P := by
  intro world b after database performed
  obtain ⟨a, mid, begun, ended⟩ := perform_bind_eq_ok.mp performed
  obtain ⟨_, rfl, logs⟩ := h world a mid database begun
  obtain ⟨notes, holds, logs'⟩ :=
    k a ⟨world, mid, begun⟩ mid b after (logs.backing.trans database) ended
  exact ⟨notes, holds, logs.trans logs'⟩

theorem Silent.bind {first : Action α} {second : α → Action β} (h : first.Silent)
    (k : ∀ a, (second a).Logging P) : (first >>= second).Logging P :=
  h.bind_of_answer fun a _ => k a

theorem Logging.andThen {first : Action α} {second : α → Action β} (h : first.Logging P)
    (k : ∀ a, (second a).Silent) : (first >>= second).Logging P := by
  intro world b after database performed
  obtain ⟨a, mid, begun, ended⟩ := perform_bind_eq_ok.mp performed
  obtain ⟨notes, holds, logs⟩ := h world a mid database begun
  obtain ⟨_, rfl, logs'⟩ := k a mid b after (logs.backing.trans database) ended
  have whole := logs.trans logs'
  rw [List.append_nil] at whole
  exact ⟨notes, holds, whole⟩

theorem Logging.andThen_pure {action : Action α} (h : action.Logging P) (f : α → β) :
    Logging P (action >>= fun a => pure (f a)) :=
  h.andThen fun a => silent_pure (f a)

theorem Logging.map {action : Action α} (h : action.Logging P) (f : α → β) :
    (f <$> action).Logging P := by
  rw [← bind_pure_comp]
  exact h.andThen_pure f

theorem Silent.mapError {action : Action α} (h : action.Silent) (change : Error → Error) :
    (action.mapError change).Silent :=
  fun world a after database performed =>
    h world a after database (perform_mapError_eq_ok.mp performed)

end Action

namespace Store

open Sitewright.Action (Logging Silent)

variable {α : Type} {P : List AuditNote → Prop}

theorem logs_writeNotes (world : World) :
    Logs [] world { world with store := writeNotes world.clock world.store } where
  backing := rfl
  trail := by
    refine ⟨_, rfl, ?_⟩
    simp [writeNotes, List.map_map, Function.comp_def]

theorem silent_spend : Silent spend := by
  refine Action.silent_of_logs fun world a after performed => ?_
  obtain ⟨fault, rfl⟩ := perform_spend_eq_ok performed
  exact logs_of_eq rfl rfl rfl

theorem silent_writeQueued : Silent writeQueued :=
  silent_spend.bind fun _ => Action.silent_modify logs_writeNotes

theorem silent_access : Silent access :=
  Action.silent_get.bind fun _ => Action.logging_ite
    ((Action.silent_refuseIf _ _).bind fun _ =>
      Action.logging_ite silent_writeQueued (Action.silent_pure ()))
    (Action.silent_pure ())

theorem silent_commit : Silent commit :=
  Action.silent_get.bind fun _ => Action.logging_ite silent_access (Action.silent_pure ())

theorem silent_readTables : Silent readTables :=
  silent_access.bind fun _ => Action.silent_get.bind fun _ => Action.silent_pure _

theorem silent_readTables_bind {rest : Tables → Action α}
    (h : ∀ world a after, (rest world.store.tables).perform world = (.ok a, after) →
      Logs [] world after) : Silent (readTables >>= rest) := by
  intro world a after database performed
  obtain ⟨tables, mid, looked, performed⟩ := Action.perform_bind_eq_ok.mp performed
  obtain ⟨_, mid', accessed, read⟩ := Action.perform_bind_eq_ok.mp looked
  cases read
  obtain ⟨_, rfl, logs⟩ := silent_access world _ _ database accessed
  exact ⟨[], rfl, logs.trans (h _ a after performed)⟩

theorem logs_writeTables {tables : Tables} {world after : World}
    (h : (writeTables tables).perform world = (.ok (), after))
    (audit : tables.audit = world.store.tables.audit) : Logs [] world after := by
  obtain ⟨fault, rfl⟩ := perform_writeTables_eq_ok h
  exact logs_of_eq rfl audit rfl

theorem logs_of_transaction {block : Action α} {world after : World} {a : α}
    (database : world.store.backing = .database)
    (h : (transaction block).perform world = (.ok a, after)) :
    ∃ mid, block.perform (withDepth (world.store.depth + 1) world) = (.ok a, mid) ∧
      ∀ notes, Logs notes (withDepth (world.store.depth + 1) world) mid →
        Logs notes world after := by
  have ends := ends_transaction block world
  rw [h] at ends
  cases ends with
  | @finished _ mid _ performed ended =>
    refine ⟨mid, performed, fun notes logs => ?_⟩
    obtain ⟨_, rfl, last⟩ := silent_commit (withDepth world.store.depth mid) () after
      (logs.backing.trans database) ended
    have whole := logs.trans ⟨last.backing, last.trail⟩
    rw [List.append_nil] at whole
    exact ⟨whole.backing, whole.trail⟩

theorem logging_transaction {block : Action α} (h : block.Logging P) :
    (transaction block).Logging P := by
  intro world a after database performed
  obtain ⟨mid, performed, logs⟩ := logs_of_transaction database performed
  obtain ⟨notes, holds, added⟩ :=
    h (withDepth (world.store.depth + 1) world) a mid database performed
  exact ⟨notes, holds, logs notes added⟩

theorem logging_change {block : Action α} (h : block.Logging P) :
    (change block).Logging P :=
  Action.silent_get.bind fun _ => Action.logging_ite (logging_transaction h) h

theorem silent_save (projectId environment : String) (project : Project) :
    Silent (save projectId environment project) := by
  refine Action.silent_get.bind fun _ => (Action.silent_refuseIf _ _).bind fun _ =>
    logging_change (silent_readTables_bind fun world _ after performed => ?_)
  rw [Action.perform_get_bind] at performed
  obtain ⟨_, mid, copied, entered⟩ := Action.perform_bind_eq_ok.mp performed
  obtain ⟨fault, rfl⟩ := perform_writeTables_eq_ok copied
  have first := logs_writeTables copied rfl
  split at entered
  · exact first.trans (logs_writeTables entered rfl)
  · cases entered
    exact first

theorem silent_putEntry (project : Project) : Silent (putEntry project) := by
  refine logging_change (silent_readTables_bind fun world _ after performed => ?_)
  rw [Action.perform_get_bind] at performed
  exact logs_writeTables performed rfl

theorem silent_delete (projectId : String) : Silent (delete projectId) := by
  refine logging_change (silent_readTables_bind fun world _ after performed => ?_)
  obtain ⟨_, mid, found, deleted⟩ := Action.perform_bind_eq_ok.mp performed
  obtain ⟨-, rfl⟩ := Action.perform_refuseIf_eq_ok.mp found
  exact logs_writeTables deleted rfl

theorem silent_copy? (projectId environment : String) :
    Silent (copy? projectId environment) :=
  silent_readTables.bind fun _ => Action.silent_pure _

theorem silent_writtenAt (projectId environment : String) :
    Silent (writtenAt projectId environment) :=
  (silent_copy? projectId environment).bind fun _ => Action.silent_pure _

theorem silent_load [Machine] (projectId environment : String) :
    Silent (load projectId environment) := by
  have found : Silent (document? projectId environment) :=
    (silent_copy? projectId environment).bind fun _ => Action.silent_get.bind fun _ =>
      Action.silent_pure _
  refine found.bind fun document => ?_
  cases document with
  | none => exact Action.logging_throw _
  | some document => exact Action.silent_get.bind fun _ => Action.silent_ofExcept _

theorem silent_catalogue : Silent catalogue :=
  silent_readTables.bind fun _ => Action.silent_get.bind fun _ => Action.silent_pure _

theorem logging_note (note : AuditNote) : Logging (Keeping note) (Store.note note) := by
  intro world a after database performed
  rw [Store.note, Action.perform_get_bind, if_pos database] at performed
  split at performed
  · next actor stored =>
    cases performed
    refine ⟨_, ⟨actor, stored, rfl⟩, rfl, [], ?_, ?_⟩
    · rw [List.append_nil]
      rfl
    · rw [List.map_nil, List.nil_append]
      rfl
  · cases performed

theorem silent_auditPage (filter : AuditFilter) (cursor : Option String) (limit : Int) :
    Silent (auditPage filter cursor limit) := by
  rw [auditPage_eq]
  exact (Action.silent_refuseIf _ _).bind fun _ => (Action.silent_ofExcept _).bind fun _ =>
    silent_access.bind fun _ => (Action.silent_refuseIf _ _).bind fun _ =>
      Action.silent_get.bind fun _ => Action.silent_pure _

end Store

end Sitewright
