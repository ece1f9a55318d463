import Mathlib.Data.List.Induction
import Sitewright.Proofs.Operation.Agreement

/-!
The same calls made with a store in memory and with a database, both empty at first. A database
keeps a document that it is given again with `1` for `true` or with its fields in another order, and
from then on the two can be told apart.
-/

namespace Sitewright.Operation

open Store (Backing Tables)
open Time (Instant)

structure Event where
  clock : Instant
  call : Call

def Event.perform [Machine] (event : Event) (world : World) : Except Error Json × World :=
  event.call.perform.perform { world with clock := event.clock }

/-- Whatever is called next, it is answered in a relation. -/
def Indistinct [Machine] (R : Json → Json → Prop) (m d : World) : Prop :=
  ∀ event : Event, event.call.Admissible →
    Agree (event.call.Answers R) (event.perform m).1 (event.perform d).1

section

variable {exact : Prop} {m d : World}

theorem agreesAt_perform [Machine] {event : Event} (h : event.call.Admissible)
    (twin : World.Twin exact m d) :
    Agree (event.call.Answers (Json.Like exact)) (event.perform m).1 (event.perform d).1 ∧
    World.Twin (exact ∧ ¬m.store.tables.Blurs (event.perform m).2.store.tables)
      (event.perform m).2 (event.perform d).2 ∧
    ¬d.store.tables.Blurs (event.perform d).2.store.tables :=
  event.call.agrees_perform h { m with clock := event.clock } { d with clock := event.clock }
    { twin with clock := rfl }

theorem indistinct_of_twin [Machine] (twin : World.Twin exact m d) {R : Json → Json → Prop}
    (h : ∀ a b, Json.Like exact a b → R a b) : Indistinct R m d :=
  fun _ admissible => (agreesAt_perform admissible twin).1.imp fun _ _ answers => answers.imp h

/-! What the stores answer shows what they hold -/

theorem answer_load [Machine] {world : World} (healthy : world.store.Healthy) (clock : Instant)
    {projectId place : String} {copy : Store.Copy}
    (found : world.store.tables.copy? projectId place = some copy) :
    (Event.perform ⟨clock, .load projectId (.str place)⟩ world).1 = .ok copy.document := by
  obtain ⟨project, written, stored⟩ := healthy.sound copy (Tables.mem_of_copy? found)
  have read := written ▸ Project.ofJson_toJson stored.readable
  obtain ⟨environment, name⟩ := stored.exists_environment
  have place : environment.name = place := name.trans (Tables.isOf_of_copy? found).2
  subst place
  have loaded : (Store.load projectId environment.name).perform { world with clock } =
      (.ok project, { world with clock }) :=
    @Store.perform_load _ { world with clock } healthy.settled healthy.working.present _ _ _ found _
      read
  have known : Environment.ofJson (.str environment.name) = .ok environment :=
    Environment.ofJson_eq_ok.mpr rfl
  simp only [Event.perform, Call.perform, Action.perform_map, loadCopy, known]
  rw [Action.perform_bind_of_ok (Action.perform_ofExcept _ _), loaded, written]
  rfl

theorem answer_list [Machine] {world : World} (healthy : world.store.Healthy) (clock : Instant) :
    ∃ entries : List Store.Entry, entries.Perm world.store.tables.catalogue ∧
      (Event.perform ⟨clock, .list⟩ world).1 =
        .ok (.arr (entries.map fun entry => .obj entry.toFields)) := by
  obtain ⟨entries, same, listed⟩ :=
    @Store.perform_catalogue { world with clock } healthy.working.queued healthy.working.present
  refine ⟨entries, same, ?_⟩
  rw [Event.perform, Call.perform, listProjects, Action.perform_bind_of_ok listed]
  rfl

theorem document?_eq_of_indistinct [Machine] (twin : World.Twin exact m d) (h : Indistinct Eq m d)
    (projectId place : String) :
    m.store.tables.document? projectId place = d.store.tables.document? projectId place := by
  rw [Tables.document?, Tables.document?]
  obtain ⟨none, none'⟩ | ⟨copy, copy', found, found', -⟩ :=
    Store.rel_cases (twin.tables.copy? projectId place)
  · rw [none, none']
  · have answers := h ⟨m.clock, .load projectId (.str place)⟩ ⟨trivial, trivial⟩
    rw [answer_load twin.healthy m.clock found, answer_load twin.healthy' m.clock found'] at answers
    cases answers with
    | ok same => rw [found, found', Option.map_some, Option.map_some, same]

theorem metadata?_of_listed {a b : Tables} (h : a.Indexed) (k : b.Indexed)
    (listed : (a.catalogue.map fun entry => Json.obj entry.toFields) ⊆
      b.catalogue.map fun entry => .obj entry.toFields)
    {id : String} {value : Json} (found : a.metadata? id = some value) :
    b.metadata? id = some value := by
  obtain ⟨entry, there, rfl, rfl⟩ := (Tables.metadata?_eq_some h).mp found
  obtain ⟨other, there', same⟩ := List.mem_map.mp (listed (List.mem_map_of_mem there))
  simp only [Store.Entry.toFields, Json.obj.injEq, List.cons.injEq, Prod.mk.injEq,
    Json.str.injEq, true_and, and_true] at same
  exact (Tables.metadata?_eq_some k).mpr ⟨other, there', same.1, congrArg Json.obj same.2.2⟩

theorem metadata?_eq_of_indistinct [Machine] (twin : World.Twin exact m d) (h : Indistinct Eq m d)
    (id : String) : m.store.tables.metadata? id = d.store.tables.metadata? id := by
  obtain ⟨as, same, listed⟩ := answer_list twin.healthy m.clock
  obtain ⟨bs, same', listed'⟩ := answer_list twin.healthy' m.clock
  have answers := h ⟨m.clock, .list⟩ ⟨trivial, trivial⟩
  rw [listed, listed'] at answers
  have lists : (m.store.tables.catalogue.map fun entry => Json.obj entry.toFields).Perm
      (d.store.tables.catalogue.map fun entry => .obj entry.toFields) := by
    cases answers with
    | ok related =>
      obtain ⟨_, _, _, answer, answer', reordered, equal⟩ := related
      rw [List.forall₂_eq_eq_eq] at equal
      rw [← equal, ← Json.arr.inj answer, ← Json.arr.inj answer'] at reordered
      exact (same.symm.map _).trans (reordered.trans (same'.map _))
  have indexed := twin.healthy.indexed
  have indexed' := twin.healthy'.indexed
  apply Option.ext
  intro value
  exact ⟨metadata?_of_listed indexed indexed' lists.subset,
    metadata?_of_listed indexed' indexed lists.symm.subset⟩

theorem not_blurs_of_indistinct [Machine] {event : Event} (h : event.call.Admissible)
    (twin : World.Twin True m d)
    (indistinct : Indistinct Eq (event.perform m).2 (event.perform d).2) :
    ¬m.store.tables.Blurs (event.perform m).2.store.tables := by
  obtain ⟨-, after, sharp⟩ := agreesAt_perform h twin
  have before : Indistinct Eq m d := indistinct_of_twin twin fun _ _ like => like.2 trivial
  rintro (⟨projectId, place, blurred⟩ | ⟨id, blurred⟩)
  · rw [document?_eq_of_indistinct twin before, document?_eq_of_indistinct after indistinct]
      at blurred
    exact sharp (.inl ⟨projectId, place, blurred⟩)
  · rw [metadata?_eq_of_indistinct twin before, metadata?_eq_of_indistinct after indistinct]
      at blurred
    exact sharp (.inr ⟨id, blurred⟩)

end

/-! Runs -/

def after [Machine] (backing : Backing) (clock : Instant) (random : Random) (events : List Event) :
    World :=
  events.foldl (fun world event => (event.perform world).2) { store := { backing }, clock, random }

section

variable {clock : Instant} {random : Random}

theorem after_concat [Machine] (backing : Backing) (events : List Event) (event : Event) :
    after backing clock random (events ++ [event]) =
      (event.perform (after backing clock random events)).2 := by
  simp only [after, List.foldl_append, List.foldl_cons, List.foldl_nil]

/-- No call of a run in memory replaces a document, or the metadata of an entry, by what is alike
and not the same. -/
def NeverBlurs [Machine] (clock : Instant) (random : Random) (events : List Event) : Prop :=
  ∀ before last, before ++ [last] <+: events →
    ¬(after .memory clock random before).store.tables.Blurs
      (after .memory clock random (before ++ [last])).store.tables

theorem neverBlurs_concat [Machine] {events : List Event} {event : Event} :
    NeverBlurs clock random (events ++ [event]) ↔
      NeverBlurs clock random events ∧
        ¬(after .memory clock random events).store.tables.Blurs
          (event.perform (after .memory clock random events)).2.store.tables := by
  constructor
  · intro never
    constructor
    · intro before last earlier
      exact never before last (earlier.trans (List.prefix_append _ _))
    · rw [← after_concat]
      exact never events event (List.prefix_refl _)
  · rintro ⟨never, sharp⟩ before last earlier
    rcases List.prefix_concat_iff.mp earlier with whole | earlier
    · obtain ⟨rfl, rfl⟩ := List.append_singleton_inj.mp whole
      rw [after_concat]
      exact sharp
    · exact never before last earlier

theorem healthy_empty [Machine] {backing : Backing} (guarded : backing ≠ .unguarded) :
    Store.Healthy { backing } where
  settled := settled_empty guarded
  working := ⟨⟨fun _ => rfl, rfl, rfl⟩, rfl⟩
  sound := fun _ hCopy => (List.not_mem_nil hCopy).elim
  indexed := ⟨.nil, fun _ hCopy => (List.not_mem_nil hCopy).elim⟩

/-- After the same calls the two stores are twins. They hold the same if nothing was replaced by
what is alike. -/
theorem twin_after [Machine] {events : List Event} (h : ∀ event ∈ events, event.call.Admissible) :
    World.Twin (NeverBlurs clock random events) (after .memory clock random events)
      (after .database clock random events) := by
  induction events using List.reverseRecOn with
  | nil =>
    exact {
      memory := rfl
      database := rfl
      clock := rfl
      random := rfl
      healthy := healthy_empty (by decide)
      healthy' := healthy_empty (by decide)
      tables := ⟨.nil, .nil⟩ }
  | append_singleton events event ih =>
    rw [List.forall_mem_append, List.forall_mem_singleton] at h
    obtain ⟨earlier, admissible⟩ := h
    rw [after_concat, after_concat]
    exact (agreesAt_perform admissible (ih earlier)).2.1.imp neverBlurs_concat.mp

theorem neverBlurs_of_indistinct [Machine] {events : List Event}
    (h : ∀ event ∈ events, event.call.Admissible)
    (indistinct : ∀ before, before <+: events → Indistinct Eq (after .memory clock random before)
      (after .database clock random before)) : NeverBlurs clock random events := by
  induction events using List.reverseRecOn with
  | nil =>
    intro before last earlier
    exact absurd (List.prefix_nil.mp earlier) (List.append_ne_nil_of_right_ne_nil _ (by simp))
  | append_singleton events event ih =>
    rw [List.forall_mem_append, List.forall_mem_singleton] at h
    obtain ⟨earlier, admissible⟩ := h
    have never := ih earlier fun before within =>
      indistinct before (within.trans (List.prefix_append _ _))
    have last := indistinct _ (List.prefix_refl _)
    rw [after_concat, after_concat] at last
    refine neverBlurs_concat.mpr ⟨never, ?_⟩
    exact not_blurs_of_indistinct admissible ((twin_after earlier).imp fun _ => never) last

end

/-- A project is made and then made again with `true` in the place of `1`. -/
def createdTwice : List Event :=
  [Json.int 1, .bool true].map fun n => {
    clock := 0
    call := .create (.obj [("id", .str "p1"), ("name", .str "Home"), ("metadata", .obj [("n", n)])])
      .null none }

def createdDocument (n : Json) : Json :=
  .obj [("id", .str "p1"), ("name", .str "Home"), ("pages", .arr []), ("metadata", .obj [
    ("n", n), ("environment", .str "builder"), ("createdAt", .str "1970-01-01T00:00:00.000Z"),
    ("updatedAt", .str "1970-01-01T00:00:00.000Z")])]

end Sitewright.Operation
