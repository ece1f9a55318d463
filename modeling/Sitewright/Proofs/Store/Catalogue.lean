import Sitewright.Proofs.Store.Index
import Sitewright.Proofs.Store.Twin

/-!
The catalogue as a second account of what is stored: it lists the projects that have a copy, each of
them once, and the name and the metadata of the builder copy where there is one.
-/

namespace Sitewright.Store

namespace Tables

def listed (tables : Tables) : List String := tables.catalogue.map Entry.id

def stored (tables : Tables) : List String := tables.copies.map Copy.projectId

def name? (tables : Tables) (id : String) : Option String := (tables.entryOf? id).map Entry.name

theorem mem_listed {tables : Tables} {id : String} :
    id ∈ tables.listed ↔ (tables.entryOf? id).isSome := by
  simp [listed, entryOf?]

theorem mem_stored_of_document? {tables : Tables} {projectId environment : String} {document : Json}
    (h : tables.document? projectId environment = some document) : projectId ∈ tables.stored := by
  obtain ⟨copy, found, -⟩ := Option.map_eq_some_iff.mp h
  exact List.mem_map.mpr ⟨copy, mem_of_copy? found, (isOf_of_copy? found).1⟩

theorem mem_map_id_putEntry {entries : List Entry} {new : Entry} {id : String} :
    id ∈ (putEntry entries new).map Entry.id ↔ id = new.id ∨ id ∈ entries.map Entry.id := by
  rw [map_id_putEntry]
  split
  · next there =>
    refine ⟨.inr, ?_⟩
    rintro (rfl | old)
    · exact there
    · exact old
  · rw [List.mem_append, List.mem_singleton, or_comm]

theorem mem_map_projectId_putCopy {copies : List Copy} {new : Copy} {id : String} :
    id ∈ (putCopy copies new).map Copy.projectId ↔
      id = new.projectId ∨ id ∈ copies.map Copy.projectId := by
  induction copies with
  | nil => simp [putCopy]
  | cons copy rest ih =>
    simp only [putCopy]
    split
    · next here =>
      have same := (Copy.eq_of_isOf here).1
      simp [same]
    · simp only [List.map_cons, List.mem_cons, ih]
      exact or_left_comm

theorem mem_listed_without {tables : Tables} {projectId id : String} :
    id ∈ (tables.without projectId).listed ↔ id ∈ tables.listed ∧ id ≠ projectId := by
  simp only [listed, without, List.mem_map, List.mem_filter, bne_iff_ne]
  constructor
  · rintro ⟨entry, ⟨there, other⟩, rfl⟩
    exact ⟨⟨entry, there, rfl⟩, other⟩
  · rintro ⟨⟨entry, there, rfl⟩, other⟩
    exact ⟨entry, ⟨there, other⟩, rfl⟩

theorem mem_stored_without {tables : Tables} {projectId id : String} :
    id ∈ (tables.without projectId).stored ↔ id ∈ tables.stored ∧ id ≠ projectId := by
  simp only [stored, without, List.mem_map, List.mem_filter, bne_iff_ne]
  constructor
  · rintro ⟨copy, ⟨there, other⟩, rfl⟩
    exact ⟨⟨copy, there, rfl⟩, other⟩
  · rintro ⟨⟨copy, there, rfl⟩, other⟩
    exact ⟨copy, ⟨there, other⟩, rfl⟩

theorem document?_without_of_ne (tables : Tables) {projectId id : String} (other : id ≠ projectId)
    (environment : String) :
    (tables.without projectId).document? id environment = tables.document? id environment := by
  rw [document?, copy?_without, if_neg other, document?]

end Tables

variable {world : World}

theorem mem_stored_saved (projectId environment : String) (project : Project) {id : String} :
    id ∈ (saved world projectId environment project).stored ↔
      id = projectId ∨ id ∈ world.store.tables.stored := by
  have copies : (saved world projectId environment project).copies =
      (copied world projectId environment project).copies := by
    simp only [saved]
    split <;> rfl
  rw [Tables.stored, copies, copied, Tables.withCopy, Tables.mem_map_projectId_putCopy, written_eq]
  exact Iff.rfl

theorem mem_listed_saved (environment : String) (project : Project) {id : String} :
    id ∈ (saved world project.id environment project).listed ↔
      id = project.id ∨ id ∈ world.store.tables.listed := by
  have same : (if world.store.backing = .database then project.id else project.id) = project.id :=
    ite_self project.id
  simp only [saved, same]
  split
  · exact Tables.mem_map_id_putEntry
  · next old =>
    have there : project.id ∈ world.store.tables.listed :=
      Tables.mem_listed.mpr (Option.isSome_iff_ne_none.mpr (by simpa using old))
    refine ⟨.inr, ?_⟩
    rintro (rfl | listed)
    · exact there
    · exact listed

theorem mem_listed_entered (project : Project) {id : String} :
    id ∈ (entered world project).listed ↔ id = project.id ∨ id ∈ world.store.tables.listed := by
  obtain ⟨metadata, written, -⟩ := writtenEntry_eq world.store.backing
    (world.store.tables.entryOf? project.id) (entryOf world project.id project)
  rw [entered, Tables.listed, Tables.withEntry, Tables.mem_map_id_putEntry, written]
  exact Iff.rfl

theorem entryOf?_saved {environment : String} {project : Project} {id : String}
    (h : id ≠ project.id ∨ id ∈ world.store.tables.listed) :
    (saved world project.id environment project).entryOf? id =
      world.store.tables.entryOf? id := by
  have same : (if world.store.backing = .database then project.id else project.id) = project.id :=
    ite_self project.id
  simp only [saved, same]
  split
  · next new =>
    rw [Tables.entryOf?_withEntry, if_neg]
    · rfl
    · intro here
      obtain rfl : project.id = id := here
      obtain other | there := h
      · exact other rfl
      · rw [Tables.mem_listed, Option.isSome_iff_ne_none] at there
        exact there (by simpa using new)
  · rfl

theorem entryOf?_entered_of_ne {project : Project} {id : String} (h : id ≠ project.id) :
    (entered world project).entryOf? id = world.store.tables.entryOf? id := by
  obtain ⟨metadata, written, -⟩ := writtenEntry_eq world.store.backing
    (world.store.tables.entryOf? project.id) (entryOf world project.id project)
  rw [entered, Tables.entryOf?_withEntry, written, if_neg]
  exact h.symm

@[simp] theorem name?_entered (project : Project) :
    (entered world project).name? project.id = some project.name := by
  obtain ⟨metadata, written, -⟩ := writtenEntry_eq world.store.backing
    (world.store.tables.entryOf? project.id) (entryOf world project.id project)
  rw [Tables.name?, entered, Tables.entryOf?_withEntry, written, if_pos]
  · rfl
  · rfl

theorem distinct_saved (h : world.store.tables.listed.Nodup)
    (projectId environment : String) (project : Project) :
    (saved world projectId environment project).listed.Nodup := by
  simp only [saved]
  split
  · exact Tables.distinct_putEntry h _
  · exact h

structure Tables.Catalogued (exact : Prop) (tables : Tables) : Prop where
  distinct : tables.listed.Nodup
  listed : ∀ id, id ∈ tables.listed ↔ id ∈ tables.stored
  current : ∀ projectId project,
    tables.document? projectId Environment.builder.name = some (Project.toJson project) →
      tables.name? projectId = some project.name ∧
        ∃ metadata, tables.metadata? projectId = some metadata ∧
          metadata.Like exact project.metadata.toJson

theorem Tables.Match.catalogued {exact : Prop} {a b : Tables} (h : a.Match b)
    (k : b.Catalogued exact) : a.Catalogued exact := by
  obtain ⟨copies, catalogue⟩ := h
  cases a
  cases b
  obtain rfl : _ = _ := copies
  obtain rfl : _ = _ := catalogue
  exact ⟨k.distinct, k.listed, k.current⟩

theorem catalogued_saved {exact : Prop} (h : world.store.tables.Catalogued exact)
    {environment : String} (other : environment ≠ Environment.builder.name) (project : Project) :
    (saved world project.id environment project).Catalogued exact where
  distinct := distinct_saved h.distinct _ _ _
  listed := fun id => by rw [mem_listed_saved, mem_stored_saved, h.listed]
  current := by
    intro projectId current found
    rw [document?_saved, if_neg fun both => other both.2] at found
    have there : projectId ∈ world.store.tables.listed :=
      (h.listed projectId).mpr (Tables.mem_stored_of_document? found)
    have same := @entryOf?_saved world environment project projectId (.inr there)
    rw [Tables.name?, Tables.metadata?, same]
    exact h.current projectId current found

theorem catalogued_without {exact : Prop} {tables : Tables} (h : tables.Catalogued exact)
    (projectId : String) : (tables.without projectId).Catalogued exact where
  distinct := h.distinct.sublist (List.filter_sublist.map Entry.id)
  listed := fun id => by rw [Tables.mem_listed_without, Tables.mem_stored_without, h.listed]
  current := by
    intro id current found
    have other : id ≠ projectId :=
      (Tables.mem_stored_without.mp (Tables.mem_stored_of_document? found)).2
    rw [Tables.document?_without_of_ne tables other] at found
    rw [Tables.name?, Tables.metadata?, Tables.entryOf?_without, if_neg other]
    exact h.current id current found

end Sitewright.Store
