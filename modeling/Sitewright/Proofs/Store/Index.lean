import Mathlib.Data.List.Nodup
import Sitewright.Proofs.Store.Lookup

namespace Sitewright.Store

structure Tables.Indexed (tables : Tables) : Prop where
  distinct : (tables.catalogue.map Entry.id).Nodup
  listed : ∀ copy ∈ tables.copies, tables.metadata? copy.projectId ≠ none

namespace Tables

theorem map_id_putEntry (entries : List Entry) (new : Entry) :
    (putEntry entries new).map Entry.id =
      if new.id ∈ entries.map Entry.id then entries.map Entry.id
      else entries.map Entry.id ++ [new.id] := by
  induction entries with
  | nil => rfl
  | cons entry rest ih =>
    simp only [putEntry]
    by_cases same : entry.id = new.id
    · simp [same]
    · have other : ¬new.id = entry.id := fun h => same h.symm
      rw [if_neg same, List.map_cons, ih]
      by_cases there : new.id ∈ rest.map Entry.id <;> simp [there, other]

theorem distinct_putEntry {entries : List Entry} (h : (entries.map Entry.id).Nodup) (new : Entry) :
    ((putEntry entries new).map Entry.id).Nodup := by
  rw [map_id_putEntry]
  split
  · exact h
  · next new =>
    refine List.nodup_append.mpr ⟨h, by simp, ?_⟩
    intro a ha b hb same
    rw [List.mem_singleton.mp hb] at same
    exact new (same ▸ ha)

theorem metadata?_eq_some {tables : Tables} (h : tables.Indexed) {id : String} {value : Json} :
    tables.metadata? id = some value ↔
      ∃ entry ∈ tables.catalogue, entry.id = id ∧ entry.document = value := by
  rw [metadata?, Option.map_eq_some_iff]
  constructor
  · rintro ⟨entry, found, document⟩
    exact ⟨entry, List.mem_of_find?_eq_some found, by simpa using List.find?_some found, document⟩
  · rintro ⟨entry, there, rfl, document⟩
    refine ⟨entry, ?_, document⟩
    have some : (tables.entryOf? entry.id).isSome :=
      List.find?_isSome.mpr ⟨entry, there, beq_self_eq_true _⟩
    obtain ⟨other, found⟩ := Option.isSome_iff_exists.mp some
    have same : other.id = entry.id := by simpa using List.find?_some found
    rw [found, List.inj_on_of_nodup_map h.distinct (List.mem_of_find?_eq_some found) there same]

end Tables

theorem Tables.Match.indexed {a b : Tables} (h : a.Match b) (k : b.Indexed) : a.Indexed where
  distinct := h.catalogue ▸ k.distinct
  listed := by
    intro copy hCopy
    simp only [Tables.metadata?, Tables.entryOf?, h.catalogue]
    exact k.listed copy (h.copies ▸ hCopy)

variable {world : World}

theorem metadata?_saved_ne_none {environment : String} {project : Project} {id : String}
    (h : id = project.id ∨ world.store.tables.metadata? id ≠ none) :
    (saved world project.id environment project).metadata? id ≠ none := by
  rw [metadata?_saved]
  split
  · exact Option.some_ne_none _
  · next old =>
    rcases h with rfl | there
    · exact fun none => old ⟨rfl, none⟩
    · exact there

theorem indexed_saved (h : world.store.tables.Indexed) (environment : String)
    (project : Project) : (saved world project.id environment project).Indexed := by
  constructor
  · simp only [saved]
    split
    · exact Tables.distinct_putEntry h.distinct _
    · exact h.distinct
  · intro copy hCopy
    have copies : (saved world project.id environment project).copies =
        (copied world project.id environment project).copies := by
      simp only [saved]
      split <;> rfl
    rw [copies] at hCopy
    rcases Tables.mem_putCopy hCopy with rfl | old
    · rw [written_eq]
      exact metadata?_saved_ne_none (.inl rfl)
    · exact metadata?_saved_ne_none (.inr (h.listed copy old))

theorem indexed_entered (h : world.store.tables.Indexed) (project : Project) :
    (entered world project).Indexed where
  distinct := Tables.distinct_putEntry h.distinct _
  listed := by
    intro copy hCopy
    rw [metadata?_entered]
    split
    · exact Option.some_ne_none _
    · exact h.listed copy hCopy

theorem indexed_without {tables : Tables} (h : tables.Indexed) (projectId : String) :
    (tables.without projectId).Indexed where
  distinct := h.distinct.sublist (List.filter_sublist.map Entry.id)
  listed := by
    intro copy hCopy
    obtain ⟨there, other⟩ := List.mem_filter.mp hCopy
    have other : ¬copy.projectId = projectId := by simpa using other
    rw [Tables.metadata?, Tables.entryOf?_without, if_neg other]
    exact h.listed copy there

end Sitewright.Store
