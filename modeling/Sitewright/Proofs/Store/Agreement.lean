import Mathlib.Data.List.Perm.Basic
import Sitewright.Proofs.Store.Index
import Sitewright.Proofs.Store.Invariant
import Sitewright.Proofs.Store.Twin

namespace Sitewright

namespace Store

structure Healthy [Machine] (store : Store) : Prop where
  settled : store.Settled
  working : store.Working
  sound : store.tables.Sound
  indexed : store.tables.Indexed

end Store

/-- A world with a store in memory and one with a database that holds the same, or what is alike. -/
structure World.Twin [Machine] (exact : Prop) (m d : World) : Prop where
  memory : m.store.backing = .memory
  database : d.store.backing = .database
  clock : m.clock = d.clock
  random : m.random = d.random
  healthy : m.store.Healthy
  healthy' : d.store.Healthy
  tables : m.store.tables.Twin exact d.store.tables

theorem World.Twin.imp [Machine] {exact other : Prop} {m d : World} (h : m.Twin exact d)
    (k : other → exact) : m.Twin other d := { h with tables := h.tables.imp k }

theorem World.Twin.millis_eq [Machine] {exact : Prop} {m d : World} (h : m.Twin exact d) :
    m.millis = d.millis := by
  simp only [millis, h.clock]

inductive Agree {α β : Type} (R : α → β → Prop) : Except Error α → Except Error β → Prop
  | ok {a : α} {b : β} : R a b → Agree R (.ok a) (.ok b)
  | error (error : Error) : Agree R (.error error) (.error error)

namespace Agree

variable {α β γ δ : Type} {R : α → β → Prop} {S : γ → δ → Prop}

theorem of_eq {R : α → α → Prop} (result : Except Error α) (h : ∀ a, result = .ok a → R a a) :
    Agree R result result := by
  cases result with
  | error error => exact .error error
  | ok a => exact .ok (h a rfl)

theorem refl (result : Except Error α) : Agree Eq result result := of_eq result fun _ _ => rfl

theorem imp {S : α → β → Prop} {first : Except Error α} {second : Except Error β}
    (h : Agree R first second) (k : ∀ a b, R a b → S a b) : Agree S first second := by
  cases h with
  | ok related => exact .ok (k _ _ related)
  | error error => exact .error error

theorem map {first : Except Error α} {second : Except Error β} {f : α → γ} {g : β → δ}
    (h : Agree R first second) (k : ∀ a b, R a b → S (f a) (g b)) :
    Agree S (first.map f) (second.map g) := by
  cases h with
  | ok related => exact .ok (k _ _ related)
  | error error => exact .error error

theorem mapError {first : Except Error α} {second : Except Error β} (h : Agree R first second)
    (change : Error → Error) : Agree R (first.mapError change) (second.mapError change) := by
  cases h with
  | ok related => exact .ok related
  | error error => exact .error (change error)

end Agree

namespace Action

variable {α β γ δ : Type} {exact : Prop} {R : α → β → Prop} {S : γ → δ → Prop}

def Reads [Machine] (exact : Prop) (R : α → β → Prop) (first : Action α) (second : Action β) :
    Prop :=
  ∀ m d, World.Twin exact m d →
    Agree R (first.perform m).1 (second.perform d).1 ∧
    World.Twin exact (first.perform m).2 (second.perform d).2 ∧
    (first.perform m).2.store = m.store ∧ (second.perform d).2.store = d.store

theorem reads_ofExcept [Machine] {first : Except Error α} {second : Except Error β}
    (h : Agree R first second) : Reads exact R (ofExcept first) (ofExcept second) :=
  fun _ _ twin => ⟨h, twin, rfl, rfl⟩

theorem reads_pure [Machine] {a : α} {b : β} (h : R a b) : Reads exact R (pure a) (pure b) :=
  fun _ _ twin => ⟨.ok h, twin, rfl, rfl⟩

theorem reads_get [Machine] : Reads exact (World.Twin exact) get get :=
  fun _ _ twin => ⟨.ok twin, twin, rfl, rfl⟩

theorem reads_draw [Machine] (next : Random → α × Random) :
    Reads exact Eq (draw next) (draw next) := by
  intro m d twin
  rw [perform_draw, perform_draw, twin.random]
  exact ⟨.ok rfl, { twin with random := rfl }, rfl, rfl⟩

theorem Reads.imp [Machine] {S : α → β → Prop} {first : Action α} {second : Action β}
    (h : Reads exact R first second) (k : ∀ a b, R a b → S a b) : Reads exact S first second := by
  intro m d twin
  obtain ⟨answers, rest⟩ := h m d twin
  exact ⟨answers.imp k, rest⟩

theorem Reads.bind [Machine] {first : Action α} {second : Action β} {third : α → Action γ}
    {fourth : β → Action δ} (h : Reads exact R first second)
    (k : ∀ a b, R a b → Reads exact S (third a) (fourth b)) :
    Reads exact S (first >>= third) (second >>= fourth) := by
  intro m d twin
  obtain ⟨answers, twin, same, same'⟩ := h m d twin
  rcases performed : first.perform m with ⟨result, m'⟩
  rcases performed' : second.perform d with ⟨result', d'⟩
  rw [performed] at answers twin same
  rw [performed'] at answers twin same'
  cases answers with
  | error error =>
    rw [perform_bind_of_error performed, perform_bind_of_error performed']
    exact ⟨.error error, twin, same, same'⟩
  | ok related =>
    rw [perform_bind_of_ok performed, perform_bind_of_ok performed', ← same, ← same']
    exact k _ _ related m' d' twin

theorem Reads.bind_eq [Machine] {first : Action α} {third : α → Action γ} {fourth : α → Action δ}
    (h : Reads exact Eq first first) (k : ∀ a, Reads exact S (third a) (fourth a)) :
    Reads exact S (first >>= third) (first >>= fourth) := by
  refine h.bind fun a b same => ?_
  rw [same]
  exact k b

theorem Reads.map [Machine] {first : Action α} {second : Action β} (h : Reads exact R first second)
    {f : α → γ} {g : β → δ} (k : ∀ a b, R a b → S (f a) (g b)) :
    Reads exact S (f <$> first) (g <$> second) := by
  intro m d twin
  obtain ⟨answers, rest⟩ := h m d twin
  rw [perform_map, perform_map]
  exact ⟨answers.map k, rest⟩

theorem reads_mapError [Machine] {first : Action α} {second : Action β}
    (h : Reads exact R first second) (change : Error → Error) :
    Reads exact R (first.mapError change) (second.mapError change) := by
  intro m d twin
  obtain ⟨answers, rest⟩ := h m d twin
  rw [perform_mapError, perform_mapError]
  exact ⟨answers.mapError change, rest⟩

theorem reads_currentTime [Machine] (given : Option Time.DateTime) :
    Reads exact Eq (currentTime given) (currentTime given) :=
  reads_get.bind fun _ _ twin => reads_pure (by simp only [World.now, twin.clock])

theorem Reads.keeping [Machine] {action : Action α} {answer : α → Prop}
    (h : Reads exact Eq action action) (keeps : action.Keeps World.Sound answer) :
    Reads exact (fun a b => a = b ∧ answer a) action action := by
  intro m d twin
  obtain ⟨answers, rest⟩ := h m d twin
  obtain ⟨-, known⟩ := keeps m ⟨twin.healthy.sound, twin.healthy.working.present⟩
  refine ⟨?_, rest⟩
  generalize (action.perform m).1 = result at answers known
  generalize (action.perform d).1 = result' at answers
  cases answers with
  | error error => exact .error error
  | ok same => exact .ok ⟨same, known _ rfl⟩

/-- Actions that agree. The stores hold the same afterwards if they did before and nothing was
replaced by something alike in memory. In the database nothing is. -/
def AgreesAt [Machine] (exact : Prop) (R : α → β → Prop) (m d : World) (first : Action α)
    (second : Action β) : Prop :=
  Agree R (first.perform m).1 (second.perform d).1 ∧
  World.Twin (exact ∧ ¬m.store.tables.Blurs (first.perform m).2.store.tables)
    (first.perform m).2 (second.perform d).2 ∧
  ¬d.store.tables.Blurs (second.perform d).2.store.tables

def Agrees [Machine] (exact : Prop) (R : α → β → Prop) (first : Action α) (second : Action β) :
    Prop :=
  ∀ m d, World.Twin exact m d → AgreesAt exact R m d first second

theorem Reads.agrees [Machine] {first : Action α} {second : Action β}
    (h : Reads exact R first second) :
    Agrees exact R first second := by
  intro m d twin
  obtain ⟨answers, twin, -, same'⟩ := h m d twin
  rw [AgreesAt, same']
  exact ⟨answers, twin.imp And.left, Store.Tables.not_blurs_self _⟩

theorem Agrees.after [Machine] {first : Action α} {second : Action β} {third : α → Action γ}
    {fourth : β → Action δ} (h : Reads exact R first second)
    (k : ∀ a b, R a b → Agrees exact S (third a) (fourth b)) :
    Agrees exact S (first >>= third) (second >>= fourth) := by
  intro m d twin
  obtain ⟨answers, twin, same, same'⟩ := h m d twin
  rcases performed : first.perform m with ⟨result, m'⟩
  rcases performed' : second.perform d with ⟨result', d'⟩
  rw [performed] at answers twin same
  rw [performed'] at answers twin same'
  cases answers with
  | error error =>
    rw [AgreesAt, perform_bind_of_error performed, perform_bind_of_error performed', ← same']
    exact ⟨.error error, twin.imp And.left, Store.Tables.not_blurs_self _⟩
  | ok related =>
    rw [AgreesAt, perform_bind_of_ok performed, perform_bind_of_ok performed', ← same, ← same']
    exact k _ _ related m' d' twin

theorem Agrees.after_eq [Machine] {first : Action α} {third : α → Action γ} {fourth : α → Action δ}
    (h : Reads exact Eq first first) (k : ∀ a, Agrees exact S (third a) (fourth a)) :
    Agrees exact S (first >>= third) (first >>= fourth) := by
  refine Agrees.after h fun a b same => ?_
  rw [same]
  exact k b

theorem Agrees.map [Machine] {first : Action α} {second : Action β}
    (h : Agrees exact R first second) {f : α → γ} {g : β → δ} (k : ∀ a b, R a b → S (f a) (g b)) :
    Agrees exact S (f <$> first) (g <$> second) := by
  intro m d twin
  obtain ⟨answers, rest⟩ := h m d twin
  rw [AgreesAt, perform_map, perform_map]
  exact ⟨answers.map k, rest⟩

theorem Agrees.andThen_pure [Machine] {first : Action α} {second : Action β}
    (h : Agrees exact R first second) {f : α → γ} {g : β → δ} (k : ∀ a b, R a b → S (f a) (g b)) :
    Agrees exact S (first >>= fun a => pure (f a)) (second >>= fun b => pure (g b)) := by
  rw [bind_pure_comp, bind_pure_comp]
  exact h.map k

end Action

namespace Store

open Sitewright.Action (Reads)

variable {exact : Prop}

structure Loaded [Machine] (exact : Prop) (projectId environment : String) (p q : Project) :
    Prop where
  twin : p.Twin exact q
  stored : p.StoredAs projectId environment
  stored' : q.StoredAs projectId environment

theorem loaded_of_twin [Machine] {m d : Copy} {p q : Project} (h : m.Twin exact d)
    (written : m.document = p.toJson) (written' : d.document = q.toJson)
    (stored : p.StoredAs m.projectId m.environment)
    (stored' : q.StoredAs d.projectId d.environment) :
    Loaded exact m.projectId m.environment p q where
  twin := {
    readable := stored.readable
    readable' := stored'.readable
    alike := written ▸ written' ▸ h.document.1
    same := by
      intro holds
      have same : p.toJson = q.toJson := written ▸ written' ▸ h.document.2 holds
      have read := Project.ofJson_toJson stored.readable
      rw [same, Project.ofJson_toJson stored'.readable] at read
      exact (Except.ok.inj read).symm }
  stored := stored
  stored' := h.projectId ▸ h.environment ▸ stored'

theorem reads_load [Machine] (projectId environment : String) :
    Reads exact (Loaded exact projectId environment) (load projectId environment)
      (load projectId environment) := by
  intro m d twin
  have ⟨settled, working, sound, _⟩ := twin.healthy
  have ⟨settled', working', sound', _⟩ := twin.healthy'
  obtain ⟨none, none'⟩ | ⟨copy, copy', found, found', alike⟩ :=
    rel_cases (twin.tables.copy? projectId environment)
  · rw [perform_load_of_none settled working.present none,
      perform_load_of_none settled' working'.present none']
    exact ⟨.error _, twin, rfl, rfl⟩
  · obtain ⟨p, written, stored⟩ := sound copy (Tables.mem_of_copy? found)
    obtain ⟨q, written', stored'⟩ := sound' copy' (Tables.mem_of_copy? found')
    obtain ⟨rfl, rfl⟩ := Tables.isOf_of_copy? found
    have read := written ▸ Project.ofJson_toJson stored.readable
    have read' := written' ▸ Project.ofJson_toJson stored'.readable
    rw [perform_load settled working.present found read,
      perform_load settled' working'.present found' read']
    exact ⟨.ok (loaded_of_twin alike written written' stored stored'), twin, rfl, rfl⟩

/-- Entries that are twins once the second ones are put in the order of the first. -/
def Listed (exact : Prop) (as bs : List Entry) : Prop :=
  ∃ cs, cs.Perm bs ∧ List.Forall₂ (Entry.Twin exact) as cs

theorem reads_catalogue [Machine] : Reads exact (Listed exact) catalogue catalogue := by
  intro m d twin
  obtain ⟨as, same, performed⟩ :=
    perform_catalogue twin.healthy.working.queued twin.healthy.working.present
  obtain ⟨bs, same', performed'⟩ :=
    perform_catalogue twin.healthy'.working.queued twin.healthy'.working.present
  rw [performed, performed']
  obtain ⟨cs, twins, reordered⟩ := List.perm_comp_forall₂ same twin.tables.catalogue
  exact ⟨.ok ⟨cs, reordered.trans same'.symm, twins⟩, twin, rfl, rfl⟩

/-! Transactions -/

variable {α β : Type} {R : α → β → Prop}

theorem healthy_transaction [Machine] {block : Action α} {answer : α → Prop}
    (within : Action.Within World.Frame block) (keeps : block.Keeps World.Sound answer)
    {world : World} (healthy : world.store.Healthy)
    (indexed : ((transaction block).perform world).2.store.tables.Indexed) :
    ((transaction block).perform world).2.store.Healthy := by
  have frame := frame_transaction within world
  have settled := (atomic_transaction within world healthy.settled).1
  have sound := (keeps_transaction keeps world ⟨healthy.sound, healthy.working.present⟩).1
  exact {
    settled, indexed
    working := {
      queued := settled.queued
      present := sound.present
      room := frame.full.trans healthy.working.room
      faultless := frame.fault healthy.working.faultless }
    sound := sound.tables }

structure Paired [Machine] (first : Action α) (second : Action β) : Prop where
  within : Action.Within World.Frame first
  within' : Action.Within World.Frame second
  keeps : first.Keeps World.Sound fun _ => True
  keeps' : second.Keeps World.Sound fun _ => True

variable {block : Action α} {block' : Action β} {m d : World}

theorem twin_transaction [Machine] (paired : Paired block block') {exact' : Prop}
    (twin : World.Twin exact m d) {after after' : World} {result : Except Error α}
    {result' : Except Error β} (performed : (transaction block).perform m = (result, after))
    (performed' : (transaction block').perform d = (result', after'))
    (indexed : after.store.tables.Indexed) (indexed' : after'.store.tables.Indexed)
    (tables : after.store.tables.Twin exact' after'.store.tables) :
    World.Twin exact' after after' := by
  have frame := frame_transaction paired.within m
  have frame' := frame_transaction paired.within' d
  have healthy := @healthy_transaction _ _ block _ paired.within paired.keeps m twin.healthy
  have healthy' := @healthy_transaction _ _ block' _ paired.within' paired.keeps' d twin.healthy'
  rw [performed] at frame healthy
  rw [performed'] at frame' healthy'
  exact {
    memory := frame.backing.trans twin.memory
    database := frame'.backing.trans twin.database
    clock := frame.clock.trans (twin.clock.trans frame'.clock.symm)
    random := frame.random.trans (twin.random.trans frame'.random.symm)
    healthy := healthy indexed
    healthy' := healthy' indexed'
    tables }

theorem agreesAt_of_error [Machine] (paired : Paired block block') (twin : World.Twin exact m d)
    {mid mid' : World} {error : Error}
    (performed : block.perform (withDepth (m.store.depth + 1) m) = (.error error, mid))
    (performed' : block'.perform (withDepth (d.store.depth + 1) d) = (.error error, mid')) :
    Action.AgreesAt exact R m d (transaction block) (transaction block') := by
  have failed := perform_transaction_of_error performed
  have failed' := perform_transaction_of_error performed'
  have same := (atomic_transaction paired.within m twin.healthy.settled).2 error failed
  have same' := (atomic_transaction paired.within' d twin.healthy'.settled).2 error failed'
  refine ⟨failed ▸ failed' ▸ .error error, ?_, same' ▸ Tables.not_blurs_self _⟩
  refine twin_transaction paired twin rfl rfl ?_ ?_ ?_
  · rw [same]
    exact twin.healthy.indexed
  · rw [same']
    exact twin.healthy'.indexed
  · rw [same, same']
    exact twin.tables.imp And.left

theorem agreesAt_of_ok [Machine] (paired : Paired block block') (twin : World.Twin exact m d)
    {mid mid' : World} {a : α} {b : β} {tables tables' : Tables}
    (performed : block.perform (withDepth (m.store.depth + 1) m) = (.ok a, mid))
    (performed' : block'.perform (withDepth (d.store.depth + 1) d) = (.ok b, mid'))
    (related : R a b) (written : mid.store.tables = tables) (written' : mid'.store.tables = tables')
    (indexed : tables.Indexed) (indexed' : tables'.Indexed)
    (twins : tables.Twin (exact ∧ ¬m.store.tables.Blurs tables) tables')
    (sharp : ¬d.store.tables.Blurs tables') :
    Action.AgreesAt exact R m d (transaction block) (transaction block') := by
  subst written written'
  obtain ⟨after, succeeded, same⟩ :=
    perform_transaction_of_ok paired.within twin.healthy.working.toReady performed
  obtain ⟨after', succeeded', same'⟩ :=
    perform_transaction_of_ok paired.within' twin.healthy'.working.toReady performed'
  rw [Action.AgreesAt, succeeded, succeeded', same.blurs_iff, same'.blurs_iff]
  refine ⟨.ok related, ?_, sharp⟩
  exact twin_transaction paired twin succeeded succeeded' (same.indexed indexed)
    (same'.indexed indexed') ((same.twin_iff same').mpr twins)

end Store

end Sitewright
