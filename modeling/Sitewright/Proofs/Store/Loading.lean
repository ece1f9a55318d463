import Sitewright.Proofs.Store.Outcome
import Sitewright.Proofs.Store.Twin

namespace Sitewright.Store

variable {backing : Backing} {old? : Option Json} {project : Project} {world : World}
  {projectId environment : String}

/-- A database keeps a document in place of that of a project, since the two are alike, though it is
not read as this project. -/
def Obscures [Machine] (backing : Backing) (old? : Option Json) (project : Project) : Prop :=
  backing = .database ∧
    ∃ old, old? = some old ∧ old.Alike project.toJson ∧ Project.ofJson old ≠ .ok project

theorem ofJson_kept_eq_ok_iff [Machine] :
    Project.ofJson (kept backing old? project.toJson) = .ok project ↔
      Project.ofJson project.toJson = .ok project ∧ ¬Obscures backing old? project := by
  by_cases keeps : backing = .database ∧ ∃ old, old? = some old ∧ old.Alike project.toJson
  · obtain ⟨database, old, rfl, alike⟩ := keeps
    rw [kept, if_pos ⟨database, alike⟩]
    constructor
    · intro read
      refine ⟨Project.ofJson_toJson (Project.readable_of_ofJson read), ?_⟩
      rintro ⟨-, _, ⟨⟩, -, differ⟩
      exact differ read
    · rintro ⟨-, clear⟩
      by_contra differ
      exact clear ⟨database, old, rfl, alike, differ⟩
  · have new : kept backing old? project.toJson = project.toJson := by
      cases old? with
      | none => rfl
      | some old => exact if_neg fun both => keeps ⟨both.1, old, rfl, both.2⟩
    rw [new, and_iff_left]
    rintro ⟨database, old, found, alike, -⟩
    exact keeps ⟨database, old, found, alike⟩

theorem kept_ne_null (backing : Backing) (old? : Option Json) (project : Project) :
    kept backing old? project.toJson ≠ .null := by
  intro null
  have alike := (alike_kept backing old? project.toJson).symm
  rw [null, Json.alike_null] at alike
  cases alike

theorem id_of_ofJson_kept [Machine] {found : Project}
    (read : Project.ofJson (kept backing old? project.toJson) = .ok found) :
    found.id = project.id := by
  have alike := alike_kept backing old? project.toJson
  generalize kept backing old? project.toJson = document at read alike
  cases document with
  | obj fields =>
    have id : Fields.value fields "id" = .str found.id := Project.id_of_ofJson read
    obtain ⟨-, none⟩ | ⟨v, w, there, there', same⟩ :=
      rel_cases (Json.rel_get?_of_alike alike "id")
    · cases none
    · obtain rfl : Json.str project.id = w := Option.some.inj there'
      obtain rfl := Json.alike_str_right.mp same
      rw [Fields.value, there, Option.getD_some] at id
      exact (Json.str.inj id).symm
  | _ => cases read

theorem readable_of_load [Machine] {after : World}
    (h : (load projectId environment).perform world = (.ok project, after)) :
    project.Readable := by
  obtain ⟨document?, mid, -, loading⟩ := Action.perform_bind_eq_ok.mp h
  cases document? with
  | none => cases loading
  | some document =>
    rw [Action.perform_get_bind, Action.perform_ofExcept] at loading
    exact Project.readable_of_ofJson (mapError_eq_ok.mp (Prod.mk.inj loading).1)

theorem perform_load_of_kept [Machine] (settled : world.store.Settled)
    (present : world.store.backing = .database → world.store.lost = false)
    (found : world.store.tables.document? projectId environment =
      some (kept backing old? project.toJson)) :
    (load projectId environment).perform world =
      ((Project.ofJson (kept backing old? project.toJson)).mapError
        (readingError world.store.backing), world) := by
  obtain ⟨copy, stored, document⟩ := Option.map_eq_some_iff.mp found
  have there : copy.document ≠ .null := document ▸ kept_ne_null backing old? project
  rw [perform_load_of_some settled present stored there, document]

end Sitewright.Store
