import Sitewright.Proofs.Operation.Outcome
import Sitewright.Proofs.Store.Catalogue

namespace Sitewright.Operation

open Store (Tables withTables saved entered kept)

section

variable {world : World} {exact : Prop}

theorem writtenCopy_builder (world : World) (project : Project) :
    writtenCopy world .builder project =
      entered (withTables (saved world project.id Environment.builder.name project) world)
        project := rfl

theorem mem_listed_writtenCopy (project : Project) {id : String} :
    id ∈ (writtenCopy world .builder project).listed ↔
      id = project.id ∨ id ∈ world.store.tables.listed := by
  have entered := @Store.mem_listed_entered
    (withTables (saved world project.id Environment.builder.name project) world) project id
  rw [writtenCopy_builder, entered]
  simp only [withTables, Store.mem_listed_saved, or_self_left]

theorem mem_stored_writtenCopy (project : Project) {id : String} :
    id ∈ (writtenCopy world .builder project).stored ↔
      id = project.id ∨ id ∈ world.store.tables.stored :=
  Store.mem_stored_saved project.id Environment.builder.name project

theorem entryOf?_writtenCopy {environment : Environment} {project : Project} {id : String}
    (h : id ≠ project.id ∨ environment ≠ .builder ∧ id ∈ world.store.tables.listed) :
    (writtenCopy world environment project).entryOf? id = world.store.tables.entryOf? id := by
  have saved := @Store.entryOf?_saved world environment.name project id (h.imp_right And.right)
  simp only [writtenCopy]
  split
  · next builder =>
    have other := h.resolve_right fun both => both.1 builder
    rw [Store.entryOf?_entered_of_ne other]
    exact saved
  · exact saved

theorem name?_writtenCopy_of_ne {project : Project} {id : String} (other : id ≠ project.id) :
    (writtenCopy world .builder project).name? id = world.store.tables.name? id := by
  rw [Tables.name?, entryOf?_writtenCopy (.inl other), Tables.name?]

theorem catalogued_writtenCopy (memory : exact → world.store.backing = .memory)
    (h : world.store.tables.Catalogued exact) (environment : Environment) (project : Project) :
    (writtenCopy world environment project).Catalogued exact := by
  by_cases builder : environment = .builder
  · subst builder
    refine ⟨?_, fun id => ?_, fun projectId current found => ?_⟩
    · exact Tables.distinct_putEntry (Store.distinct_saved h.distinct _ _ project) _
    · rw [mem_listed_writtenCopy, mem_stored_writtenCopy, h.listed]
    · rw [document?_writtenCopy] at found
      rw [metadata?_writtenCopy_builder]
      by_cases here : project.id = projectId
      · subst here
        rw [if_pos ⟨rfl, rfl⟩, Option.some_inj] at found
        have alike : current.toJson.Alike project.toJson := found ▸ Store.alike_kept _ _ _
        obtain ⟨-, name, -, metadata⟩ := Project.alike_toJson_iff.mp alike
        rw [if_pos rfl, writtenCopy_builder, Store.name?_entered, name]
        refine ⟨rfl, _, rfl, (Store.alike_kept _ _ _).trans metadata.symm, fun holds => ?_⟩
        rw [memory holds, Store.kept_memory] at found ⊢
        exact Project.toJson_metadata_of_toJson found
      · rw [if_neg fun both => here both.1] at found
        rw [if_neg here, name?_writtenCopy_of_ne (Ne.symm here)]
        exact h.current projectId current found
  · have other : environment.name ≠ Environment.builder.name :=
      fun same => builder (Environment.name_injective same)
    simp only [writtenCopy, if_neg builder]
    exact Store.catalogued_saved h other project

theorem catalogued_of_wrote [Machine] {call : Call} {tables : Tables}
    (memory : exact → world.store.backing = .memory) (h : world.store.tables.Catalogued exact)
    (wrote : call.Wrote world tables) : tables.Catalogued exact := by
  cases wrote with
  | nothing => exact h
  | copy same =>
    rw [← same] at memory h
    exact catalogued_writtenCopy memory h _ _
  | @deployment _ _ _ _ _ _ mid goal deployed _ same stored builder =>
    rw [← same] at memory h
    have saved := Store.catalogued_saved h goal.name_ne_builder deployed
    exact @catalogued_writtenCopy (withTables (Store.saved mid deployed.id goal.name deployed) mid)
      exact memory saved .builder _
  | deletion => exact Store.catalogued_without h _

end

theorem catalogued_of_reachable [Machine] {world : World} (reached : Reachable world) :
    world.store.tables.Catalogued (world.store.backing = .memory) := by
  induction reached with
  | empty => exact ⟨.nil, fun _ => Iff.rfl, fun _ _ found => by cases found⟩
  | between _ _ _ _ _ ih => exact ih
  | @call world call prior reached ih =>
    obtain ⟨tables, wrote, matching⟩ :=
      call.exists_wrote (settled_of_reachable reached) (sound_of_reachable reached) prior
    rw [sameBacking_perform call world]
    exact matching.catalogued (catalogued_of_wrote id ih wrote)

theorem exists_perform_deleteProject {world : World} (settled : world.store.Settled)
    (present : world.store.lost = false) (faultless : world.store.fault = none)
    {projectId : String} (listed : projectId ∈ world.store.tables.listed) {actor : Json}
    (storable : Storable actor) :
    ∃ after, (deleteProject projectId actor).perform world = (.ok (), after) := by
  have ready : world.store.Ready := ⟨settled.queued, present, faultless⟩
  have some : ¬(world.store.tables.entryOf? projectId).isNone := by
    simpa [Option.isSome_iff_ne_none] using Tables.mem_listed.mp listed
  obtain ⟨mid, performed, -⟩ := perform_noteDeletion_of_some
    (ready.withDepth (world.store.depth + 1)) (fun _ => Nat.succ_ne_zero _) storable some
  obtain ⟨after, deleted, -⟩ :=
    Store.perform_transaction_of_ok (frame_noteDeletion projectId actor) ready performed
  exact ⟨after, deleted⟩

def createdWorld : World :=
  ((Call.create (.obj [("id", .str "p1"), ("name", .str "Home")]) .null none).perform.perform
    { store := { backing := .database }, clock := 0, random := default }).2

end Sitewright.Operation
