import Sitewright.Document.Project
import Sitewright.Document.Slug
import Sitewright.Document.Tree

/-!
Valid pages and projects, and the environments that may be read and written. The first fault in
document order is reported; what is accepted comes with its warnings.
-/

namespace Sitewright

def Page.check (page : Page) : Except Error (List String) := do
  Slug.check (.str page.slug)
  Tree.check page.tree

namespace Project

def checkPages : List String → List Page → Except Error (List String)
  | _, [] => .ok []
  | seen, page :: rest => do
    if page.slug ∈ seen then .error (.slugRepeated page.slug)
    let found ← page.check
    let more ← checkPages (page.slug :: seen) rest
    return found ++ more

def check (project : Project) : Except Error (List String) := checkPages [] project.pages

def checkWithPages (project : Project) : Except Error (List String) :=
  if project.pages.isEmpty then .error .noPages else project.check

end Project

namespace Environment

def ofJson (value : Json) : Except Error Environment :=
  match value.asText?.bind ofName? with
  | some environment => .ok environment
  | none => .error .environmentInvalid

theorem ofJson_eq_ok {value : Json} {environment : Environment} :
    ofJson value = .ok environment ↔ value = .str environment.name := by
  rw [ofJson]
  constructor
  · intro h
    split at h
    · next found =>
      cases h
      obtain ⟨s, text, known⟩ := Option.bind_eq_some_iff.mp found
      cases value with
      | str => rw [name_of_ofName? known, Option.some.inj text]
      | _ => cases text
    · cases h
  · rintro rfl
    simp [Json.asText?]

def allowedTargets (source : String) : List Target :=
  if source = builder.name then [.staging, .production] else []

def checkPromotion (source : String) (target : Json) : Except Error Target :=
  match target.asText?.bind Target.ofName? with
  | some target =>
    if target ∈ allowedTargets source then .ok target else .error .environmentInvalid
  | none => .error .environmentInvalid

end Environment

end Sitewright
