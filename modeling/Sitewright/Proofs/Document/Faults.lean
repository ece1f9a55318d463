import Sitewright.Document.Copy
import Sitewright.Document.Validity
import Sitewright.Proofs.Document.Mistakes
import Sitewright.Proofs.Foreseen

/-!
What can go wrong when a document is read and checked. All of it is foreseen but for values that are
nested too deep to be copied, integers that are too long to be written, and the status of a
deployment that is a list or an object.
-/

namespace Sitewright

/-- What a document may hold that nobody thought of: the first thing that is wrong with it is of
neither kind, or nothing is, and the project cannot be copied. -/
def IsUnwieldy [Machine] (document : Json) : Prop :=
  (∃ error, Earliest (Project.Mistake document) error ∧
    (error = .valueNested ∨ error = .integerOverlong ∨ error = .statusCompound)) ∨
    ∃ project, Project.ofJson document = .ok project ∧ ¬project.Copyable

theorem Project.foreseen_ofJson [Machine] (data : Json) :
    ForeseenUnless (IsUnwieldy data) (ofJson data) := by
  intro error failed
  have earliest := ofJson_eq_error_iff.mp failed
  have ⟨_, fault, _⟩ := earliest
  cases fault.ofDocument with
  | validation kind => exact .inl (Error.foreseen_of_kind kind nofun)
  | structural kind => exact .inl (Error.foreseen_of_kind kind nofun)
  | valueNested => exact .inr (.inl ⟨_, earliest, .inl rfl⟩)
  | integerOverlong => exact .inr (.inl ⟨_, earliest, .inr (.inl rfl)⟩)
  | statusCompound => exact .inr (.inl ⟨_, earliest, .inr (.inr rfl)⟩)

theorem Project.copyable_of_not_isUnwieldy [Machine] {data : Json} {project : Project}
    (read : ofJson data = .ok project) (handy : ¬IsUnwieldy data) : project.Copyable :=
  not_not.mp fun deep => handy (.inr ⟨project, read, deep⟩)

theorem Project.foreseen_withMetadata [Machine] {cause : Prop} {project : Project}
    (copyable : ¬cause → project.Copyable) (change : Metadata → Metadata) :
    ForeseenUnless cause (project.withMetadata fun metadata => .ok (change metadata)) := by
  by_cases there : cause
  · exact .of_cause there _
  · rw [withMetadata_ok (copyable there)]
    exact .ok _

/-! Checking -/

section

variable {cause : Prop}

theorem Slug.foreseen_check (slug : Json) : ForeseenUnless cause (check slug) := by
  unfold check
  split
  · split
    · exact .ok _
    · exact .error trivial
  · exact .error trivial

theorem Tree.foreseen_checkNode (seen : List String) (visit : Visit) :
    ForeseenUnless cause (checkNode seen visit) := by
  simp only [checkNode]
  split
  · exact .error trivial
  split
  · exact .error trivial
  split
  · exact .error trivial
  split
  · exact .error trivial
  split
  · exact .error trivial
  · exact .ok _

theorem Tree.foreseen_checkVisits (seen : List String) (visits : List Visit) :
    ForeseenUnless cause (checkVisits seen visits) := by
  induction visits generalizing seen with
  | nil => exact .ok _
  | cons visit rest ih =>
    exact (foreseen_checkNode seen visit).bind fun _ _ => (ih _).bind fun _ _ => .ok _

theorem Tree.foreseen_check (tree : List Node) : ForeseenUnless cause (check tree) := by
  unfold check
  split
  · exact foreseen_checkVisits _ _
  · exact .error trivial

theorem Project.foreseen_checkPages (seen : List String) (pages : List Page) :
    ForeseenUnless cause (checkPages seen pages) := by
  induction pages generalizing seen with
  | nil => exact .ok _
  | cons page rest ih =>
    rw [checkPages]
    split
    · exact .error trivial
    · have page : ForeseenUnless cause page.check :=
        (Slug.foreseen_check _).bind fun _ _ => Tree.foreseen_check _
      exact page.bind fun _ _ => (ih _).bind fun _ _ => .ok _

theorem Project.foreseen_check (project : Project) : ForeseenUnless cause project.check :=
  foreseen_checkPages [] project.pages

theorem Environment.foreseen_ofJson (value : Json) :
    ForeseenUnless cause (Environment.ofJson value) := by
  unfold Environment.ofJson
  split
  · exact .ok _
  · exact .error trivial

end

end Sitewright
