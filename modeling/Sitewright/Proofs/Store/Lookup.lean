import Sitewright.Proofs.Store.Effect

namespace Sitewright.Store

/-- What a store keeps of an old and a new value. -/
def kept (backing : Backing) (old? : Option Json) (new : Json) : Json :=
  match old? with
  | none => new
  | some old => if backing = .database ∧ old.Alike new then old else new

@[simp] theorem kept_memory (old? : Option Json) (new : Json) : kept .memory old? new = new := by
  cases old? <;> simp [kept]

theorem written_eq (backing : Backing) (old? : Option Copy) (new : Copy) :
    written backing old? new =
      { new with document := kept backing (old?.map Copy.document) new.document } := by
  cases old? with
  | none => rfl
  | some old =>
    simp only [written, kept, Option.map_some]
    split <;> rfl

def Entry.document (entry : Entry) : Json := .obj entry.metadata

theorem writtenEntry_eq (backing : Backing) (old? : Option Entry) (new : Entry) :
    ∃ metadata, writtenEntry backing old? new = { new with metadata } ∧
      Json.obj metadata = kept backing (old?.map Entry.document) new.document := by
  cases old? with
  | none => exact ⟨new.metadata, rfl, rfl⟩
  | some old =>
    simp only [writtenEntry, kept, Option.map_some, Entry.document]
    split
    · next keeps => exact ⟨old.metadata, rfl, (if_pos keeps).symm⟩
    · next replaces => exact ⟨new.metadata, rfl, (if_neg replaces).symm⟩

namespace Tables

def document? (tables : Tables) (projectId environment : String) : Option Json :=
  (tables.copy? projectId environment).map Copy.document

def metadata? (tables : Tables) (id : String) : Option Json :=
  (tables.entryOf? id).map Entry.document

theorem document?_of_without {tables : Tables} {projectId id environment : String} {document : Json}
    (h : (tables.without projectId).document? id environment = some document) :
    tables.document? id environment = some document := by
  rw [document?, copy?_without] at h
  split at h
  · cases h
  · exact h

theorem Match.copy?_eq {a b : Tables} (h : a.Match b) (projectId environment : String) :
    a.copy? projectId environment = b.copy? projectId environment := by
  rw [Tables.copy?, Tables.copy?, h.copies]

theorem Match.document?_eq {a b : Tables} (h : a.Match b) (projectId environment : String) :
    a.document? projectId environment = b.document? projectId environment := by
  rw [Tables.document?, Tables.document?, h.copy?_eq]

@[simp] theorem document?_withCopy (tables : Tables) (new : Copy) (projectId environment : String) :
    (tables.withCopy new).document? projectId environment =
      if new.isOf projectId environment then some new.document
      else tables.document? projectId environment := by
  rw [document?, copy?_withCopy]
  split <;> rfl

@[simp] theorem metadata?_withEntry (tables : Tables) (new : Entry) (id : String) :
    (tables.withEntry new).metadata? id =
      if new.id = id then some new.document else tables.metadata? id := by
  rw [metadata?, entryOf?_withEntry]
  split <;> rfl

theorem metadata?_eq_none {tables : Tables} {id : String} :
    tables.metadata? id = none ↔ (tables.entryOf? id).isNone := by
  simp [metadata?]

end Tables

variable {world : World}

theorem document?_saved (projectId environment : String) (project : Project)
    (other place : String) :
    (saved world projectId environment project).document? other place =
      if projectId = other ∧ environment = place then
        some (kept world.store.backing (world.store.tables.document? other place) project.toJson)
      else world.store.tables.document? other place := by
  have entry : (saved world projectId environment project).document? other place =
      (copied world projectId environment project).document? other place := by
    simp only [saved]
    split <;> rfl
  rw [entry, copied, Tables.document?_withCopy, written_eq]
  by_cases here : projectId = other ∧ environment = place
  · obtain ⟨rfl, rfl⟩ := here
    simp [Copy.isOf, Tables.document?]
  · simp [Copy.isOf, here]

theorem copy?_saved_of_ne {projectId environment other place : String} (project : Project)
    (h : ¬(projectId = other ∧ environment = place)) :
    (saved world projectId environment project).copy? other place =
      world.store.tables.copy? other place := by
  have entry : (saved world projectId environment project).copy? other place =
      (copied world projectId environment project).copy? other place := by
    simp only [saved]
    split <;> rfl
  rw [entry, copied, Tables.copy?_withCopy, written_eq, if_neg]
  simpa [Copy.isOf] using h

theorem metadata?_saved (environment : String) (project : Project) (id : String) :
    (saved world project.id environment project).metadata? id =
      if project.id = id ∧ world.store.tables.metadata? id = none then some project.metadata.toJson
      else world.store.tables.metadata? id := by
  have same : (if world.store.backing = .database then project.id else project.id) = project.id :=
    ite_self project.id
  simp only [saved, same, ← Tables.metadata?_eq_none]
  by_cases new : world.store.tables.metadata? project.id = none
  · rw [if_pos new, Tables.metadata?_withEntry]
    by_cases here : project.id = id
    · rw [if_pos (⟨here, here ▸ new⟩ : project.id = id ∧ world.store.tables.metadata? id = none)]
      exact if_pos here
    · have other : ¬(project.id = id ∧ world.store.tables.metadata? id = none) :=
        fun both => here both.1
      rw [if_neg other]
      exact if_neg here
  · have old : ¬(project.id = id ∧ world.store.tables.metadata? id = none) :=
      fun both => new (both.1 ▸ both.2)
    rw [if_neg new, if_neg old]
    rfl

@[simp] theorem metadata?_entered (project : Project) (id : String) :
    (entered world project).metadata? id =
      if project.id = id then
        some (kept world.store.backing (world.store.tables.metadata? id) project.metadata.toJson)
      else world.store.tables.metadata? id := by
  obtain ⟨metadata, written, same⟩ := writtenEntry_eq world.store.backing
    (world.store.tables.entryOf? project.id) (entryOf world project.id project)
  simp only [entered]
  rw [Tables.metadata?_withEntry, written]
  by_cases here : project.id = id
  · subst here
    rw [if_pos, if_pos rfl]
    · exact congrArg some same
    · rfl
  · rw [if_neg, if_neg here]
    exact here

end Sitewright.Store
