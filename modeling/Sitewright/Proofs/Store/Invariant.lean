import Sitewright.Proofs.Document.Reading
import Sitewright.Proofs.Store.Frame

namespace Sitewright

namespace Action

variable {α β : Type} {invariant : World → Prop}

/-- An action keeps an invariant, and what it answers has a property. -/
def Keeps (invariant : World → Prop) (action : Action α) (answer : α → Prop) : Prop :=
  ∀ world, invariant world → invariant (action.perform world).2 ∧
    ∀ a, (action.perform world).1 = .ok a → answer a

theorem keeps_pure {a : α} {answer : α → Prop} (h : answer a) :
    Keeps invariant (pure a) answer := by
  intro world holds
  refine ⟨holds, fun _ answered => ?_⟩
  cases answered
  exact h

theorem keeps_throw (error : Error) (answer : α → Prop) :
    Keeps invariant (throw error) answer := by
  intro world holds
  exact ⟨holds, fun _ answered => by cases answered⟩

theorem keeps_ofExcept {result : Except Error α} {answer : α → Prop}
    (h : ∀ a, result = .ok a → answer a) : Keeps invariant (ofExcept result) answer :=
  fun _ holds => ⟨holds, h⟩

theorem keeps_get : Keeps invariant get invariant := by
  intro world holds
  refine ⟨holds, fun _ answered => ?_⟩
  cases answered
  exact holds

theorem keeps_modify {change : World → World}
    (h : ∀ world, invariant world → invariant (change world)) :
    Keeps invariant (modify change) fun _ => True :=
  fun world holds => ⟨h world holds, fun _ _ => trivial⟩

theorem keeps_changeStore {change : Store → Store}
    (h : ∀ world, invariant world → invariant { world with store := change world.store }) :
    Keeps invariant (changeStore change) fun _ => True :=
  keeps_modify h

theorem keeps_refuseIf (condition : Prop) [Decidable condition] (error : Error) :
    Keeps invariant (refuseIf condition error) fun _ => True := by
  simp only [refuseIf]
  split
  · exact keeps_throw error _
  · exact keeps_pure trivial

theorem keeps_ite {condition : Prop} [Decidable condition] {first second : Action α}
    {answer : α → Prop} (h : first.Keeps invariant answer) (k : second.Keeps invariant answer) :
    Keeps invariant (if condition then first else second) answer := by
  split
  · exact h
  · exact k

theorem Keeps.imp {action : Action α} {answer other : α → Prop} (h : action.Keeps invariant answer)
    (k : ∀ a, answer a → other a) : action.Keeps invariant other := fun world holds =>
  ⟨(h world holds).1, fun a answered => k a ((h world holds).2 a answered)⟩

theorem Keeps.bind {first : Action α} {second : α → Action β} {answer : α → Prop}
    {last : β → Prop} (h : first.Keeps invariant answer)
    (k : ∀ a, answer a → (second a).Keeps invariant last) :
    (first >>= second).Keeps invariant last := by
  intro world holds
  have step := h world holds
  rcases performed : first.perform world with ⟨error | a, mid⟩
  · rw [performed] at step
    rw [perform_bind_of_error performed]
    exact ⟨step.1, fun _ answered => by cases answered⟩
  · rw [performed] at step
    rw [perform_bind_of_ok performed]
    exact k a (step.2 a rfl) mid step.1

theorem Keeps.andThen {first : Action α} {second : α → Action β} {answer : α → Prop}
    {last : β → Prop} (h : first.Keeps invariant answer)
    (k : ∀ a, (second a).Keeps invariant last) : (first >>= second).Keeps invariant last :=
  h.bind fun a _ => k a

theorem Keeps.map {action : Action α} {answer : α → Prop} (h : action.Keeps invariant answer)
    (f : α → β) : (f <$> action).Keeps invariant fun _ => True := by
  rw [← bind_pure_comp]
  exact h.andThen fun _ => keeps_pure trivial

theorem keeps_mapError {action : Action α} {answer : α → Prop} (h : action.Keeps invariant answer)
    (change : Error → Error) : (action.mapError change).Keeps invariant answer := by
  intro world holds
  obtain ⟨kept, answers⟩ := h world holds
  rw [perform_mapError]
  refine ⟨kept, fun a answered => answers a ?_⟩
  rcases performed : (action.perform world).1 with error | b
  · rw [performed] at answered
    cases answered
  · rw [performed] at answered
    exact answered

theorem keeps_draw {next : Random → α × Random}
    (h : ∀ world random, invariant world → invariant { world with random }) :
    Keeps invariant (draw next) fun a => ∃ random, a = (next random).1 := by
  intro world holds
  refine ⟨h world _ holds, fun a answered => ⟨world.random, ?_⟩⟩
  cases answered
  rfl

end Action

/-- A valid project that belongs where a copy of it is stored. -/
structure Project.StoredAs [Machine] (projectId environment : String) (project : Project) :
    Prop where
  readable : project.Readable
  id : project.id = projectId
  environment : project.metadata.environment = .str environment
  valid : ∃ warnings, project.check = .ok warnings

theorem Project.StoredAs.exists_environment [Machine] {projectId place : String} {project : Project}
    (h : project.StoredAs projectId place) :
    ∃ environment : Environment, environment.name = place := by
  rcases h.readable.metadata.environment with none | ⟨environment, label⟩
  · rw [h.environment] at none
    cases none
  · rw [h.environment] at label
    exact ⟨environment, (Json.str.inj label).symm⟩

namespace Store

open Sitewright.Action (Keeps)

def Copy.Sound [Machine] (copy : Copy) : Prop :=
  ∃ project : Project, copy.document = project.toJson ∧
    project.StoredAs copy.projectId copy.environment

def Tables.Sound [Machine] (tables : Tables) : Prop := ∀ copy ∈ tables.copies, copy.Sound

theorem Copy.sound_of_toJson [Machine] {project : Project} {projectId environment : String}
    (h : project.StoredAs projectId environment) (writtenAt : Time.DateTime) :
    Copy.Sound { projectId, environment, document := project.toJson, writtenAt } :=
  ⟨project, rfl, h⟩

namespace Tables

theorem sound_withCopy [Machine] {tables : Tables} {new : Copy} (h : tables.Sound) (k : new.Sound) :
    (tables.withCopy new).Sound := by
  intro copy hCopy
  rcases mem_putCopy hCopy with rfl | old
  · exact k
  · exact h copy old

theorem sound_without [Machine] {tables : Tables} (h : tables.Sound) (projectId : String) :
    (tables.without projectId).Sound :=
  fun copy hCopy => h copy (List.mem_filter.mp hCopy).1

end Tables

/-- A document that stays because it is alike is as sound as it was. -/
theorem sound_written [Machine] {tables : Tables} {new : Copy} (backing : Backing)
    (h : tables.Sound) (k : new.Sound) :
    (written backing (tables.copy? new.projectId new.environment) new).Sound := by
  rcases found : tables.copy? new.projectId new.environment with _ | old
  · exact k
  · simp only [written]
    split
    · obtain ⟨project, document, stored⟩ := h old (Tables.mem_of_copy? found)
      obtain ⟨sameProject, sameEnvironment⟩ := Tables.isOf_of_copy? found
      exact ⟨project, document, sameProject ▸ sameEnvironment ▸ stored⟩
    · exact k

end Store

structure World.Sound [Machine] (world : World) : Prop where
  tables : world.store.tables.Sound
  present : world.store.lost = false

namespace Store

open Sitewright.Action (Keeps)
open World (Sound)

variable {α : Type}

theorem keeps_spend [Machine] : Keeps Sound spend fun _ => True := by
  intro world sound
  rw [perform_spend]
  refine ⟨?_, fun _ _ => trivial⟩
  split
  · exact sound
  · exact ⟨sound.tables, sound.present⟩
  · exact ⟨sound.tables, sound.present⟩

theorem keeps_access [Machine] : Keeps Sound access fun _ => True :=
  Action.keeps_get.andThen fun _ => Action.keeps_ite
    ((Action.keeps_refuseIf _ _).andThen fun _ => Action.keeps_ite
      (keeps_spend.andThen fun _ => Action.keeps_modify fun _ sound =>
        ⟨sound.tables, sound.present⟩)
      (Action.keeps_pure trivial))
    (Action.keeps_pure trivial)

theorem keeps_readTables [Machine] : Keeps Sound readTables Tables.Sound :=
  keeps_access.andThen fun _ => Action.keeps_get.bind fun _ sound => Action.keeps_pure sound.tables

theorem keeps_writeTables [Machine] {tables : Tables} (h : tables.Sound) :
    Keeps Sound (writeTables tables) fun _ => True :=
  keeps_spend.andThen fun _ => Action.keeps_changeStore fun _ sound => ⟨h, sound.present⟩

theorem keeps_note [Machine] (note : AuditNote) : Keeps Sound (Store.note note) fun _ => True := by
  refine Action.keeps_get.andThen fun _ => Action.keeps_ite ?_ (Action.keeps_pure trivial)
  split
  · exact Action.keeps_changeStore fun _ sound => ⟨sound.tables, sound.present⟩
  · exact (Action.keeps_changeStore fun _ sound => ⟨sound.tables, sound.present⟩).andThen
      fun _ => Action.keeps_throw _ _

theorem keeps_commit [Machine] : Keeps Sound commit fun _ => True :=
  Action.keeps_get.andThen fun _ => Action.keeps_ite keeps_access (Action.keeps_pure trivial)

theorem sound_withDepth [Machine] {world : World} (depth : Nat) (h : world.Sound) :
    (withDepth depth world).Sound := ⟨h.tables, h.present⟩

theorem sound_undone [Machine] {before after : World} (h : before.Sound) (k : after.Sound) :
    (undone before after).Sound := by
  simp only [undone]
  split
  · exact ⟨h.tables, k.present⟩
  · exact k

theorem keeps_transaction [Machine] {block : Action α} {answer : α → Prop}
    (h : block.Keeps Sound answer) :
    Keeps Sound (transaction block) answer := by
  intro before sound
  have inner := h (withDepth (before.store.depth + 1) before) (sound_withDepth _ sound)
  have ends := ends_transaction block before
  generalize (transaction block).perform before = result at ends
  cases ends with
  | failed performed =>
    rw [performed] at inner
    exact ⟨sound_undone sound (sound_withDepth _ inner.1), fun _ answered => by cases answered⟩
  | unfinished performed ended =>
    rw [performed] at inner
    have last := keeps_commit _ (sound_withDepth before.store.depth inner.1)
    rw [ended] at last
    exact ⟨sound_undone sound last.1, fun _ answered => by cases answered⟩
  | finished performed ended =>
    rw [performed] at inner
    have last := keeps_commit _ (sound_withDepth before.store.depth inner.1)
    rw [ended] at last
    exact ⟨last.1, inner.2⟩

theorem keeps_change [Machine] {block : Action α} {answer : α → Prop}
    (h : block.Keeps Sound answer) :
    Keeps Sound (change block) answer :=
  Action.keeps_get.andThen fun _ => Action.keeps_ite (keeps_transaction h) h

theorem keeps_save [Machine] {projectId environment : String} {project : Project}
    (h : project.StoredAs projectId environment) :
    Keeps Sound (save projectId environment project) fun _ => True := by
  refine Action.keeps_get.andThen fun _ => (Action.keeps_refuseIf _ _).andThen fun _ =>
    keeps_change <| keeps_readTables.bind fun tables sound =>
      Action.keeps_get.andThen fun world => ?_
  have changed := Tables.sound_withCopy sound
    (sound_written world.store.backing sound (Copy.sound_of_toJson h (writeTime world)))
  exact (keeps_writeTables changed).andThen fun _ =>
    Action.keeps_ite (keeps_writeTables changed) (Action.keeps_pure trivial)

theorem keeps_putEntry [Machine] (project : Project) :
    Keeps Sound (putEntry project) fun _ => True :=
  keeps_change <| keeps_readTables.bind fun _ sound => Action.keeps_get.andThen fun _ =>
    keeps_writeTables sound

theorem keeps_delete [Machine] (projectId : String) :
    Keeps Sound (delete projectId) fun _ => True :=
  keeps_change <| keeps_readTables.bind fun _ sound => (Action.keeps_refuseIf _ _).andThen fun _ =>
    keeps_writeTables (Tables.sound_without sound projectId)

theorem keeps_copy? [Machine] (projectId environment : String) :
    Keeps Sound (copy? projectId environment) fun found => ∀ copy, found = some copy →
      copy.Sound ∧ copy.projectId = projectId ∧ copy.environment = environment :=
  keeps_readTables.bind fun _ sound => Action.keeps_pure fun copy found =>
    ⟨sound copy (Tables.mem_of_copy? found), Tables.isOf_of_copy? found⟩

theorem keeps_document? [Machine] (projectId environment : String) :
    Keeps Sound (document? projectId environment) fun found => ∀ document, found = some document →
      ∃ project, document = Project.toJson project ∧ project.StoredAs projectId environment := by
  refine (keeps_copy? projectId environment).bind fun copy? sound =>
    Action.keeps_get.andThen fun _ => Action.keeps_pure fun document found => ?_
  obtain ⟨copy, rfl, rfl⟩ := Option.map_eq_some_iff.mp (Option.filter_eq_some_iff.mp found).1
  obtain ⟨⟨project, written, stored⟩, rfl, rfl⟩ := sound copy rfl
  exact ⟨project, written, stored⟩

theorem keeps_load [Machine] (projectId environment : String) :
    Keeps Sound (load projectId environment) (Project.StoredAs projectId environment) := by
  refine (keeps_document? projectId environment).bind fun document? sound => ?_
  cases document? with
  | none => exact Action.keeps_throw _ _
  | some document =>
    obtain ⟨project, rfl, stored⟩ := sound document rfl
    refine Action.keeps_get.andThen fun _ => Action.keeps_ofExcept fun found loaded => ?_
    rw [Project.ofJson_toJson stored.readable] at loaded
    cases loaded
    exact stored

theorem keeps_catalogue [Machine] : Keeps Sound catalogue fun _ => True :=
  keeps_readTables.andThen fun _ => Action.keeps_get.andThen fun _ => Action.keeps_pure trivial

theorem keeps_writtenAt [Machine] (projectId environment : String) :
    Keeps Sound (writtenAt projectId environment) fun _ => True :=
  (keeps_copy? projectId environment).andThen fun _ => Action.keeps_pure trivial

end Store

end Sitewright
