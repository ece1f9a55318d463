import Sitewright.Proofs.Store.Agreement
import Sitewright.Proofs.Store.Catalogue

/-!
Two stores that hold the same of one project, whatever else they hold. Actions on that project
cannot tell them apart, and what they leave behind holds the same of it again.
-/

namespace Sitewright

namespace Store

structure Tables.AgreeOn (projectId : String) (a b : Tables) : Prop where
  copy? : ∀ environment : Environment,
    b.copy? projectId environment.name = a.copy? projectId environment.name
  entry : (b.entryOf? projectId).map Entry.toFields = (a.entryOf? projectId).map Entry.toFields

end Store

/-- Worlds of one kind of store that agree on a project, at the same time and with the same random
characters to come. The same writes are going to fail in both. -/
structure World.AgreeOn (projectId : String) (a b : World) : Prop where
  backing : b.store.backing = a.store.backing
  clock : b.clock = a.clock
  random : b.random = a.random
  full : b.store.full = a.store.full
  fault : b.store.fault = a.store.fault
  tables : a.store.tables.AgreeOn projectId b.store.tables

/-- Worlds that agree on a project while an action is under way. Only a database counts transactions
and queues notes. -/
structure World.InStep (kind : Store.Backing) (projectId : String) (a b : World) : Prop
    extends a.AgreeOn projectId b where
  ofKind : a.store.backing = kind
  lost : b.store.lost = a.store.lost
  depth : kind = .database → b.store.depth = a.store.depth
  queued : kind = .database → b.store.queued = a.store.queued

theorem Agree.eq {α : Type} {first second : Except Error α} (h : Agree Eq first second) :
    first = second := by
  cases h with
  | ok same => rw [same]
  | error error => rfl

namespace Action

variable {α β γ δ : Type} {pre mid post : World → World → Prop} {R : α → β → Prop}
  {S : γ → δ → Prop}

/-- Two actions on related worlds: the same error or related answers, and related worlds
afterwards. -/
def Coupled (pre post : World → World → Prop) (R : α → β → Prop) (first : Action α)
    (second : Action β) : Prop :=
  ∀ a b, pre a b →
    Agree R (first.perform a).1 (second.perform b).1 ∧ post (first.perform a).2 (second.perform b).2

theorem coupled_ofExcept {first : Except Error α} {second : Except Error β}
    (h : Agree R first second) : Coupled pre pre R (ofExcept first) (ofExcept second) :=
  fun _ _ related => ⟨h, related⟩

theorem coupled_pure {a : α} {b : β} (h : R a b) : Coupled pre pre R (pure a) (pure b) :=
  fun _ _ related => ⟨.ok h, related⟩

theorem coupled_throw (error : Error) :
    Coupled pre pre R (throw error : Action α) (throw error : Action β) :=
  fun _ _ related => ⟨.error error, related⟩

theorem coupled_get : Coupled pre pre pre get get := fun _ _ related => ⟨.ok related, related⟩

theorem coupled_modify {change change' : World → World}
    (h : ∀ a b, pre a b → post (change a) (change' b)) :
    Coupled pre post Eq (modify change : Action Unit) (modify change') :=
  fun a b related => ⟨.ok rfl, h a b related⟩

theorem coupled_refuseIf {condition condition' : Prop} [Decidable condition] [Decidable condition']
    (same : condition' ↔ condition) (error : Error) :
    Coupled pre pre Eq (refuseIf condition error) (refuseIf condition' error) := by
  by_cases holds : condition
  · rw [refuseIf, refuseIf, if_pos holds, if_pos (same.mpr holds)]
    exact coupled_throw error
  · rw [refuseIf, refuseIf, if_neg holds, if_neg fun other => holds (same.mp other)]
    exact coupled_pure rfl

theorem coupled_ite {condition condition' : Prop} [Decidable condition] [Decidable condition']
    (same : condition' ↔ condition) {first third : Action α} {second fourth : Action β}
    (h : condition → Coupled pre post R first second)
    (k : ¬condition → Coupled pre post R third fourth) :
    Coupled pre post R (if condition then first else third)
      (if condition' then second else fourth) := by
  by_cases holds : condition
  · rw [if_pos holds, if_pos (same.mpr holds)]
    exact h holds
  · rw [if_neg holds, if_neg fun other => holds (same.mp other)]
    exact k holds

theorem Coupled.of_le {first : Action α} {second : Action β} (le : ∀ a b, pre a b → mid a b)
    (h : Coupled mid post R first second) : Coupled pre post R first second :=
  fun a b related => h a b (le a b related)

/-- The worlds that a failure of the first action leaves are related as those at the end are. -/
theorem Coupled.bind_of_le {first : Action α} {second : Action β} {third : α → Action γ}
    {fourth : β → Action δ} (le : ∀ a b, mid a b → post a b) (h : Coupled pre mid R first second)
    (k : ∀ x y, R x y → Coupled mid post S (third x) (fourth y)) :
    Coupled pre post S (first >>= third) (second >>= fourth) := by
  intro a b related
  obtain ⟨answers, related⟩ := h a b related
  rcases performed : first.perform a with ⟨result, a'⟩
  rcases performed' : second.perform b with ⟨result', b'⟩
  rw [performed, performed'] at answers related
  cases answers with
  | error error =>
    rw [perform_bind_of_error performed, perform_bind_of_error performed']
    exact ⟨.error error, le a' b' related⟩
  | ok answered =>
    rw [perform_bind_of_ok performed, perform_bind_of_ok performed']
    exact k _ _ answered a' b' related

theorem Coupled.bind {first : Action α} {second : Action β} {third : α → Action γ}
    {fourth : β → Action δ} (h : Coupled pre post R first second)
    (k : ∀ x y, R x y → Coupled post post S (third x) (fourth y)) :
    Coupled pre post S (first >>= third) (second >>= fourth) :=
  h.bind_of_le (fun _ _ => id) k

theorem Coupled.bind_eq {first : Action α} {third : α → Action γ} {fourth : α → Action δ}
    (h : Coupled pre post Eq first first) (k : ∀ x, Coupled post post S (third x) (fourth x)) :
    Coupled pre post S (first >>= third) (first >>= fourth) := by
  refine h.bind fun x y same => ?_
  rw [same]
  exact k y

theorem Coupled.map {first : Action α} {second : Action β} (h : Coupled pre post R first second)
    {f : α → γ} {g : β → δ} (k : ∀ x y, R x y → S (f x) (g y)) :
    Coupled pre post S (f <$> first) (g <$> second) := by
  intro a b related
  obtain ⟨answers, related⟩ := h a b related
  rw [perform_map, perform_map]
  exact ⟨answers.map k, related⟩

theorem Coupled.mapError {first : Action α} {second : Action β}
    (h : Coupled pre post R first second) (change : Error → Error) :
    Coupled pre post R (first.mapError change) (second.mapError change) := by
  intro a b related
  obtain ⟨answers, related⟩ := h a b related
  rw [perform_mapError, perform_mapError]
  exact ⟨answers.mapError change, related⟩

theorem Coupled.answering {action : Action α} {answer : α → Prop}
    (h : Coupled pre post Eq action action)
    (known : ∀ a b, pre a b → ∀ x, (action.perform a).1 = .ok x → answer x) :
    Coupled pre post (fun x y => x = y ∧ answer x) action action := by
  intro a b related
  have known := known a b related
  obtain ⟨answers, related⟩ := h a b related
  refine ⟨?_, related⟩
  generalize (action.perform a).1 = result at answers known
  generalize (action.perform b).1 = result' at answers
  cases answers with
  | error error => exact .error error
  | ok same => exact .ok ⟨same, known _ rfl⟩

def Keeping (related : World → World → Prop) (invariant : World → Prop) (a b : World) : Prop :=
  related a b ∧ invariant a

theorem Coupled.keeping {action : Action α} {invariant : World → Prop} {answer : α → Prop}
    (h : Coupled pre post Eq action action) (keeps : action.Keeps invariant answer) :
    Coupled (Keeping pre invariant) (Keeping post invariant) (fun x y => x = y ∧ answer x)
      action action := by
  have known : Coupled (Keeping pre invariant) post (fun x y => x = y ∧ answer x) action action :=
    Coupled.answering (fun a b both => h a b both.1) fun a b both => (keeps a both.2).2
  exact fun a b both => ⟨(known a b both).1, (known a b both).2, (keeps a both.2).1⟩

end Action

namespace Store

open Sitewright.Action (Coupled)
open World (InStep)

variable {kind : Backing} {projectId : String} {α β : Type} {R : α → β → Prop}

theorem Tables.AgreeOn.isNone_entryOf? {a b : Tables} (h : a.AgreeOn projectId b) :
    (b.entryOf? projectId).isNone = (a.entryOf? projectId).isNone := by
  have same := congrArg Option.isNone h.entry
  rwa [Option.isNone_map, Option.isNone_map] at same

theorem Tables.AgreeOn.withCopy {a b : Tables} (h : a.AgreeOn projectId b) (new : Copy) :
    (a.withCopy new).AgreeOn projectId (b.withCopy new) where
  copy? environment := by
    rw [copy?_withCopy, copy?_withCopy, h.copy? environment]
  entry := h.entry

theorem Tables.AgreeOn.without {a b : Tables} (h : a.AgreeOn projectId b) (id : String) :
    (a.without id).AgreeOn projectId (b.without id) where
  copy? environment := by
    rw [copy?_without, copy?_without, h.copy? environment]
  entry := by
    rw [entryOf?_without, entryOf?_without]
    split
    · rfl
    · exact h.entry

theorem toFields_eq_iff {a b : Entry} :
    a.toFields = b.toFields ↔ a.id = b.id ∧ a.name = b.name ∧ a.metadata = b.metadata := by
  simp [Entry.toFields]

/-- The time of an entry is not seen in the catalogue. -/
theorem Tables.AgreeOn.withEntry {a b : Tables} (h : a.AgreeOn projectId b) {new new' : Entry}
    (same : new'.toFields = new.toFields) :
    (a.withEntry new).AgreeOn projectId (b.withEntry new') where
  copy? := h.copy?
  entry := by
    rw [entryOf?_withEntry, entryOf?_withEntry, (toFields_eq_iff.mp same).1]
    split
    · exact congrArg some (toFields_eq_iff.mpr ⟨rfl, (toFields_eq_iff.mp same).2⟩)
    · exact h.entry

theorem toFields_writtenEntry {a b : Tables} (h : a.AgreeOn projectId b) (backing : Backing)
    (new : Entry) :
    (writtenEntry backing (b.entryOf? projectId) new).toFields =
      (writtenEntry backing (a.entryOf? projectId) new).toFields := by
  have same := h.entry
  rcases found : a.entryOf? projectId with _ | old
  · rw [found] at same
    rw [Option.map_eq_none_iff.mp same]
  · rw [found] at same
    obtain ⟨old', found', same⟩ := Option.map_eq_some_iff.mp same
    rw [found']
    simp only [writtenEntry, (toFields_eq_iff.mp same).2.2]

/-! Writing -/

theorem coupled_spend : Coupled (InStep kind projectId) (InStep kind projectId) Eq spend spend := by
  intro a b related
  rw [perform_spend, perform_spend, related.fault]
  split
  · exact ⟨.ok rfl, related⟩
  · exact ⟨.error _, { related with fault := rfl }⟩
  · exact ⟨.ok rfl, { related with fault := rfl }⟩

theorem coupled_writeQueued :
    Coupled (InStep kind projectId) (InStep kind projectId) Eq writeQueued writeQueued :=
  coupled_spend.bind_eq fun _ => Action.coupled_modify fun _ _ related =>
    { related with tables := ⟨related.tables.copy?, related.tables.entry⟩, queued := fun _ => rfl }

theorem coupled_access :
    Coupled (InStep kind projectId) (InStep kind projectId) Eq access access := by
  refine Action.coupled_get.bind fun a b related => ?_
  rw [related.backing, related.ofKind, related.lost]
  refine Action.coupled_ite Iff.rfl (fun database => ?_) fun _ => Action.coupled_pure rfl
  rw [related.queued database]
  exact (Action.coupled_refuseIf Iff.rfl _).bind_eq fun _ =>
    Action.coupled_ite Iff.rfl (fun _ => coupled_writeQueued) fun _ => Action.coupled_pure rfl

theorem coupled_commit :
    Coupled (InStep kind projectId) (InStep kind projectId) Eq commit commit := by
  refine Action.coupled_get.bind fun a b related => ?_
  rw [related.backing, related.ofKind]
  refine Action.coupled_ite (and_congr_right fun database => ?_) (fun _ => coupled_access)
    fun _ => Action.coupled_pure rfl
  rw [related.depth database, related.queued database]

theorem coupled_readTables : Coupled (InStep kind projectId) (InStep kind projectId)
    (Tables.AgreeOn projectId) readTables readTables :=
  coupled_access.bind_eq fun _ => Action.coupled_get.bind fun _ _ related =>
    Action.coupled_pure related.tables

theorem coupled_writeTables {tables tables' : Tables} (h : tables.AgreeOn projectId tables') :
    Coupled (InStep kind projectId) (InStep kind projectId) Eq
      (writeTables tables) (writeTables tables') :=
  coupled_spend.bind_eq fun _ =>
    Action.coupled_modify fun _ _ related => { related with tables := h }

theorem coupled_note (note : AuditNote) :
    Coupled (InStep kind projectId) (InStep kind projectId) Eq
      (Store.note note) (Store.note note) := by
  refine Action.coupled_get.bind fun a b related => ?_
  rw [related.backing]
  refine Action.coupled_ite Iff.rfl (fun _ => ?_) fun _ => Action.coupled_pure rfl
  split
  · refine Action.coupled_modify fun _ _ related => ?_
    exact { related with
      queued := fun database => by simp only [queue, related.queued database] }
  · refine Coupled.bind_eq (Action.coupled_modify fun _ _ related => ?_) fun _ =>
      Action.coupled_throw _
    exact { related with }

/-! Transactions -/

theorem inStep_withDepth {a b : World} (h : a.InStep kind projectId b) {depth depth' : Nat}
    (same : kind = .database → depth' = depth) :
    (withDepth depth a).InStep kind projectId (withDepth depth' b) := { h with depth := same }

theorem isGuarded_of_inStep {a b : World} (h : a.InStep kind projectId b) :
    isGuarded b.store = isGuarded a.store := by
  simp only [isGuarded, h.backing, h.ofKind]
  split
  · rfl
  · rfl
  · rw [h.depth rfl]

theorem inStep_undone {a b a' b' : World} (h : a.InStep kind projectId b)
    (k : a'.InStep kind projectId b') :
    (undone a a').InStep kind projectId (undone b b') := by
  simp only [undone, isGuarded_of_inStep h]
  split
  · exact { k with tables := h.tables, queued := fun _ => rfl }
  · exact k

theorem coupled_transaction {first : Action α} {second : Action β}
    (h : Coupled (InStep kind projectId) (InStep kind projectId) R first second) :
    Coupled (InStep kind projectId) (InStep kind projectId) R
      (transaction first) (transaction second) := by
  intro a b related
  rw [perform_transaction, perform_transaction]
  have within : (withDepth (a.store.depth + 1) a).InStep kind projectId
      (withDepth (b.store.depth + 1) b) :=
    inStep_withDepth related fun database => by rw [related.depth database]
  obtain ⟨answers, inside⟩ := h _ _ within
  rcases performed : first.perform (withDepth (a.store.depth + 1) a) with ⟨result, a'⟩
  rcases performed' : second.perform (withDepth (b.store.depth + 1) b) with ⟨result', b'⟩
  rw [performed, performed'] at answers inside
  have outside : (withDepth a.store.depth a').InStep kind projectId (withDepth b.store.depth b') :=
    inStep_withDepth inside related.depth
  cases answers with
  | error error => exact ⟨.error error, inStep_undone related outside⟩
  | ok answered =>
    obtain ⟨ends, closed⟩ := coupled_commit _ _ outside
    rcases ended : commit.perform (withDepth a.store.depth a') with ⟨result, a''⟩
    rcases ended' : commit.perform (withDepth b.store.depth b') with ⟨result', b''⟩
    rw [ended, ended'] at ends closed
    simp only [ended, ended']
    cases ends with
    | error error => exact ⟨.error error, inStep_undone related closed⟩
    | ok => exact ⟨.ok answered, closed⟩

theorem coupled_change {first : Action α} {second : Action β}
    (h : Coupled (InStep kind projectId) (InStep kind projectId) R first second) :
    Coupled (InStep kind projectId) (InStep kind projectId) R (change first) (change second) := by
  refine Action.coupled_get.bind fun a b related => ?_
  rw [related.backing, related.ofKind]
  refine Action.coupled_ite (and_congr_right fun database => ?_) (fun _ => coupled_transaction h)
    fun _ => h
  rw [related.depth database]

/-! What is done to the project -/

theorem coupled_save (environment : Environment) (project : Project) :
    Coupled (InStep kind project.id) (InStep kind project.id) Eq
      (save project.id environment.name project) (save project.id environment.name project) := by
  refine Action.coupled_get.bind fun a b related => ?_
  rw [related.full]
  refine (Action.coupled_refuseIf Iff.rfl _).bind_eq fun _ => coupled_change ?_
  refine coupled_readTables.bind fun tables tables' agree => ?_
  refine Action.coupled_get.bind fun a b related => ?_
  have time : writeTime b = writeTime a := by
    simp only [writeTime, World.now, related.backing, related.clock]
  have entry (id : String) : entryOf b id project = entryOf a id project := by
    simp only [entryOf, related.clock]
  rw [time, related.backing, agree.copy? environment, agree.isNone_entryOf?]
  have copied := agree.withCopy (written a.store.backing
    (tables.copy? project.id environment.name) {
      projectId := project.id, environment := environment.name, document := project.toJson
      writtenAt := writeTime a })
  refine (coupled_writeTables copied).bind fun _ _ _ => ?_
  refine Action.coupled_ite Iff.rfl (fun _ => ?_) fun _ => Action.coupled_pure rfl
  exact coupled_writeTables (copied.withEntry (by rw [entry]))

theorem coupled_putEntry (project : Project) :
    Coupled (InStep kind project.id) (InStep kind project.id) Eq
      (putEntry project) (putEntry project) := by
  refine coupled_change (coupled_readTables.bind fun tables tables' agree => ?_)
  refine Action.coupled_get.bind fun a b related => ?_
  have entry : entryOf b project.id project = entryOf a project.id project := by
    simp only [entryOf, related.clock]
  rw [related.backing, entry]
  exact coupled_writeTables (agree.withEntry (toFields_writtenEntry agree _ _))

theorem coupled_delete (projectId : String) :
    Coupled (InStep kind projectId) (InStep kind projectId) Eq
      (delete projectId) (delete projectId) := by
  refine coupled_change (coupled_readTables.bind fun tables tables' agree => ?_)
  rw [agree.isNone_entryOf?]
  exact (Action.coupled_refuseIf Iff.rfl _).bind_eq fun _ =>
    coupled_writeTables (agree.without projectId)

theorem coupled_copy? (environment : Environment) :
    Coupled (InStep kind projectId) (InStep kind projectId) Eq
      (copy? projectId environment.name) (copy? projectId environment.name) :=
  coupled_readTables.bind fun _ _ agree => Action.coupled_pure (agree.copy? environment).symm

theorem coupled_writtenAt (environment : Environment) :
    Coupled (InStep kind projectId) (InStep kind projectId) Eq
      (writtenAt projectId environment.name) (writtenAt projectId environment.name) :=
  (coupled_copy? environment).bind_eq fun _ => Action.coupled_pure rfl

theorem coupled_load [Machine] (environment : Environment) :
    Coupled (InStep kind projectId) (InStep kind projectId) Eq
      (load projectId environment.name) (load projectId environment.name) := by
  have found : Coupled (InStep kind projectId) (InStep kind projectId) Eq
      (document? projectId environment.name) (document? projectId environment.name) :=
    (coupled_copy? environment).bind_eq fun copy => Action.coupled_get.bind fun a b related => by
      rw [related.backing]
      exact Action.coupled_pure rfl
  refine found.bind_eq fun document => ?_
  cases document with
  | none => exact Action.coupled_throw _
  | some document =>
    refine Action.coupled_get.bind fun a b related => ?_
    rw [related.backing]
    exact Action.coupled_ofExcept (.refl _)

/-! What is left of other projects -/

/-- The copies of a project with their times of writing, and its entry in the catalogue, are as they
were. -/
structure Tables.Spares (projectId : String) (before after : Tables) : Prop where
  copy? : ∀ environment, after.copy? projectId environment = before.copy? projectId environment
  entryOf? : after.entryOf? projectId = before.entryOf? projectId

theorem Tables.Spares.refl (projectId : String) (tables : Tables) :
    tables.Spares projectId tables := ⟨fun _ => rfl, rfl⟩

theorem Tables.Spares.trans {a b c : Tables} (h : a.Spares projectId b) (k : b.Spares projectId c) :
    a.Spares projectId c where
  copy? environment := (k.copy? environment).trans (h.copy? environment)
  entryOf? := k.entryOf?.trans h.entryOf?

theorem Tables.Spares.of_match {a b c : Tables} (h : c.Match b) (k : a.Spares projectId b) :
    a.Spares projectId c where
  copy? environment := (h.copy?_eq _ environment).trans (k.copy? environment)
  entryOf? := by rw [← k.entryOf?, Tables.entryOf?, h.catalogue, Tables.entryOf?]

variable {world : World} {project : Project}

theorem spares_saved (other : projectId ≠ project.id) (environment : String) :
    world.store.tables.Spares projectId (saved world project.id environment project) where
  copy? place := by
    have elsewhere : ¬(written world.store.backing
        (world.store.tables.copy? project.id environment)
        { projectId := project.id, environment, document := project.toJson
          writtenAt := writeTime world }).isOf projectId place = true := by
      rw [written_eq]
      exact fun here => other (Copy.eq_of_isOf here).1.symm
    have copied : (copied world project.id environment project).copy? projectId place =
        world.store.tables.copy? projectId place := by
      rw [Store.copied, Tables.copy?_withCopy, if_neg elsewhere]
    simp only [saved]
    split
    · rw [Tables.copy?_withEntry, copied]
    · exact copied
  entryOf? := entryOf?_saved (.inl other)

theorem spares_entered (other : projectId ≠ project.id) :
    world.store.tables.Spares projectId (entered world project) where
  copy? _ := rfl
  entryOf? := entryOf?_entered_of_ne other

theorem spares_without {tables : Tables} {id : String} (other : projectId ≠ id) :
    tables.Spares projectId (tables.without id) where
  copy? environment := by rw [Tables.copy?_without, if_neg other]
  entryOf? := by rw [Tables.entryOf?_without, if_neg other]

end Store

end Sitewright
