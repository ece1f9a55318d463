import Sitewright.Proofs.Document.Faults
import Sitewright.Site.Archive

namespace Sitewright

/-- A grid of infinitely many rows or columns, or with an infinite gap between them. -/
def Node.HasEndlessGrid (node : Node) : Prop :=
  node.type = ComponentType.grid.name ∧ ∃ key ∈ ["rows", "cols", "gap"], ∃ negative,
    Fields.value (Props.config node.props "gridConfig") key = .float (.infinite negative)

variable {cause : Prop}

theorem Json.foreseen_toInteger (value : Json) :
    ForeseenUnless (∃ negative, value = .float (.infinite negative)) value.toInteger := by
  unfold toInteger
  split
  · exact .ok _
  · exact .ok _
  · exact .ok _
  · next x number =>
    cases x with
    | nan => exact absurd rfl number
    | infinite negative => exact .of_cause ⟨negative, rfl⟩ _
    | finite => exact .ok _
  · exact .ok _
  · exact .ok _

namespace Props

theorem foreseen_ofNode (node : Node) : ForeseenUnless node.HasEndlessGrid (ofNode node) := by
  simp only [ofNode]
  split
  · exact .ok _
  · exact .ok _
  · exact .ok _
  · exact .ok _
  · exact .ok _
  · next grid =>
    have number {key : String} (named : key ∈ ["rows", "cols", "gap"]) (fallback : Int) :
        ForeseenUnless node.HasEndlessGrid
          (intOf fallback (Fields.value (config node.props "gridConfig") key)) :=
      ((Json.foreseen_toInteger _).imp fun endless =>
        ⟨(ComponentType.name_of_ofName? grid).symm, key, named, endless⟩).map _
    exact (number (by decide) _).bind fun _ _ => (number (by decide) _).bind fun _ _ =>
      (number (by decide) _).bind fun _ _ => .ok _
  · exact .ok _
  · exact .ok _

end Props

namespace Markup

mutual

theorem foreseen_element : ∀ node : Node,
    ForeseenUnless (∃ other ∈ node.walk, other.HasEndlessGrid) (element node)
  | ⟨id, type, props, styles, metadata, children⟩ => by
    refine ((Props.foreseen_ofNode _).imp fun endless =>
      ⟨_, List.mem_cons_self, endless.1, endless.2⟩).bind fun found _ => ?_
    dsimp only
    split
    · exact ((foreseen_elements children).imp fun ⟨other, there, endless⟩ =>
        ⟨other, List.mem_cons_of_mem _ there, endless⟩).bind fun _ _ => .ok _
    · exact .ok _

theorem foreseen_elements : ∀ nodes : List Node,
    ForeseenUnless (∃ other ∈ Node.walkList nodes, other.HasEndlessGrid) (elements nodes)
  | [] => .ok _
  | node :: rest =>
    ((foreseen_element node).imp fun ⟨other, there, endless⟩ =>
      ⟨other, List.mem_append_left _ there, endless⟩).bind fun _ _ =>
        ((foreseen_elements rest).imp fun ⟨other, there, endless⟩ =>
          ⟨other, List.mem_append_right _ there, endless⟩).bind fun _ _ => .ok _

end

end Markup

namespace Site

theorem foreseen_pageSource (page : Page) :
    ForeseenUnless (∃ node ∈ page.nodes, node.HasEndlessGrid) (pageSource page) := by
  have body : ForeseenUnless (∃ node ∈ page.nodes, node.HasEndlessGrid)
      (Markup.render 3 page.tree) := (Markup.foreseen_elements page.tree).bind fun _ _ => .ok _
  exact body.bind fun _ _ => .ok _

theorem foreseen_pageFiles (seen : List String) (pages : List Page) :
    ForeseenUnless (∃ node ∈ pages.flatMap Page.nodes, node.HasEndlessGrid)
      (pageFiles seen pages) := by
  induction pages generalizing seen with
  | nil => exact .ok _
  | cons page rest ih =>
    simp only [pageFiles]
    split
    · exact .error trivial
    · exact ((foreseen_pageSource page).imp fun ⟨node, there, endless⟩ =>
        ⟨node, List.mem_append_left _ there, endless⟩).bind fun _ _ =>
          ((ih _).imp fun ⟨node, there, endless⟩ =>
            ⟨node, List.mem_append_right _ there, endless⟩).bind fun _ _ => .ok _

variable [Machine]

theorem foreseen_generate (project : Project) :
    ForeseenUnless ((∃ node ∈ project.nodes, node.HasEndlessGrid) ∨ ¬ Fits project)
      (generate project) := by
  have snapshots : ForeseenUnless (¬ Fits project) (snapshotFiles project) := by
    by_cases fits : Fits project
    · rw [snapshotFiles_eq_ok.mpr ⟨fits, rfl⟩]
      exact .ok _
    · exact .of_cause fits _
  exact project.foreseen_check.bind fun _ _ => ((foreseen_pageFiles _ _).imp .inl).bind fun _ _ =>
    (snapshots.imp .inr).bind fun _ _ => .ok _

def HasEndlessGrid (data : Json) : Prop :=
  ∃ project, Project.ofJson data = .ok project ∧ ∃ node ∈ project.nodes, node.HasEndlessGrid

/-- A document of a project that does not fit into the files of its site. -/
def IsUnfit (data : Json) : Prop := ∃ project, Project.ofJson data = .ok project ∧ ¬ Fits project

theorem foreseen_exportArchive (data : Json) :
    ForeseenUnless (IsUnwieldy data ∨ HasEndlessGrid data ∨ IsUnfit data)
      (exportArchive data (.int usualLevel)) := by
  unfold exportArchive
  split
  · next fields =>
    split
    · exact .error trivial
    · exact ((Project.foreseen_ofJson _).imp .inl).bind fun project read =>
        ((foreseen_generate project).imp fun cause => .inr (cause.imp
          (fun endless => ⟨project, read, endless⟩) fun unfit => ⟨project, read, unfit⟩)).bind
            fun _ _ => .ok _
  · exact .error trivial

end Site

end Sitewright
