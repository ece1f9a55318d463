import Sitewright.Proofs.Markup.Visible
import Sitewright.Proofs.Site.Faults
import Sitewright.Proofs.Site.Files

/-!
Props of any component, whatever its open map of props holds. All that is read of it is within its
range or gives way to a default, with one exception: an infinite number in a grid has no integer and
no default either, and a page that shows such a grid has no source.
-/

namespace Sitewright

namespace Props

/-- What is chosen from a list is on the list, a link leads somewhere, and a grid has rows and
columns and no negative gap. -/
def InRange : Props → Prop
  | .text _ tag => tag ∈ textTags
  | .button _ linkType linkTarget _ =>
    (∀ type ∈ linkType, type ∈ linkTypes) ∧ ∀ target ∈ linkTarget, target ≠ ""
  | .link href _ _ => href ≠ ""
  | .list type _ => type ∈ listTypes
  | .grid rows cols gap => 1 ≤ rows ∧ 1 ≤ cols ∧ 0 ≤ gap
  | .form fields _ _ => ∀ field ∈ fields, field.type ∈ formFieldTypes
  | .image .. | .container _ => True

theorem type_mem_of_formFields {value : Json} {field : FormField} (h : field ∈ formFields value) :
    field.type ∈ formFieldTypes := by
  obtain ⟨item, -, found⟩ := List.mem_filterMap.mp h
  obtain ⟨fields, -, rfl⟩ := Option.map_eq_some_iff.mp found
  exact Markup.oneOf_mem (by decide) _

theorem inRange_of_ofNode {node : Node} {found : Props} (h : ofNode node = .ok found) :
    found.InRange := by
  unfold ofNode at h
  split at h
  · cases h
    exact Markup.oneOf_mem (by decide) _
  · cases h
    exact trivial
  · cases h
    refine ⟨fun type chosen => ?_, fun target chosen => ?_⟩
    · obtain ⟨-, listed⟩ := Option.mem_filter_iff.mp chosen
      simpa using listed
    · split at chosen
      · cases chosen
      · next there =>
        cases chosen
        exact there
  · cases h
    show (if _ then _ else _) ≠ _
    split
    · decide
    · next there => exact there
  · cases h
    exact Markup.oneOf_mem (by decide) _
  · obtain ⟨rows, -, h⟩ := bind_eq_ok.mp h
    obtain ⟨cols, -, h⟩ := bind_eq_ok.mp h
    obtain ⟨gap, -, h⟩ := bind_eq_ok.mp h
    cases h
    exact ⟨le_max_right _ _, le_max_right _ _, le_max_right _ _⟩
  · cases h
    exact fun field mem => type_mem_of_formFields mem
  · cases h
    exact trivial

theorem intOf_eq_ok_or_error (fallback : Int) (value : Json) :
    (∃ n, intOf fallback value = .ok n) ∨ intOf fallback value = .error .numberTooLarge := by
  by_cases endless : ∃ negative, value = .float (.infinite negative)
  · obtain ⟨negative, rfl⟩ := endless
    exact .inr rfl
  · exact .inl (Markup.exists_intOf (not_exists.mp endless) fallback)

theorem ofNode_of_hasEndlessGrid {node : Node} (h : node.HasEndlessGrid) :
    ofNode node = .error .numberTooLarge := by
  obtain ⟨grid, key, named, negative, endless⟩ := h
  have known : ComponentType.ofName? node.type = some .grid := by
    rw [grid, ComponentType.ofName?_name]
  have fails (fallback : Int) :
      intOf fallback (Fields.value (config node.props "gridConfig") key) =
        .error .numberTooLarge := by
    rw [endless]
    rfl
  simp only [ofNode, known]
  rcases intOf_eq_ok_or_error 2 (Fields.value (config node.props "gridConfig") "rows") with
    ⟨rows, hRows⟩ | tooLarge
  · rcases intOf_eq_ok_or_error 2 (Fields.value (config node.props "gridConfig") "cols") with
      ⟨cols, hCols⟩ | tooLarge
    · simp only [List.mem_cons, List.not_mem_nil, or_false] at named
      rcases named with rfl | rfl | rfl
      · rw [fails] at hRows
        cases hRows
      · rw [fails] at hCols
        cases hCols
      · rw [hRows, hCols, fails]
        rfl
    · rw [hRows, tooLarge]
      rfl
  · rw [tooLarge]
    rfl

theorem finiteGrid_of_not {node : Node} (h : ¬ node.HasEndlessGrid) : Markup.FiniteGrid node :=
  fun grid key named negative endless => h ⟨grid, key, named, negative, endless⟩

end Props

namespace Markup

def ShowsEndlessGrid (tree : List Node) : Prop :=
  ∃ node ∈ Node.walkList (Node.visibleList tree), node.HasEndlessGrid

/-- A node that is such a grid or shows one below it. -/
def IsEndless (node : Node) : Prop := ∃ found ∈ node.visible.walk, found.HasEndlessGrid

theorem showsEndlessGrid_cons {node : Node} {rest : List Node} :
    ShowsEndlessGrid (node :: rest) ↔ IsEndless node ∨ ShowsEndlessGrid rest := by
  simp only [ShowsEndlessGrid, IsEndless, Node.visibleList, Node.walkList, List.mem_append,
    or_and_right, exists_or]

theorem element_of_not_isEndless {node : Node} (h : ¬ IsEndless node) :
    ∃ shown, element node = .ok shown := by
  rw [← element_visible]
  exact element_of_finiteGrid fun found there =>
    Props.finiteGrid_of_not fun endless => h ⟨found, there, endless⟩

theorem elements_of_not_showsEndlessGrid {tree : List Node} (h : ¬ ShowsEndlessGrid tree) :
    ∃ shown, elements tree = .ok shown := by
  rw [← elements_visibleList]
  exact elements_of_finiteGrid fun found there =>
    Props.finiteGrid_of_not fun endless => h ⟨found, there, endless⟩

mutual

theorem element_of_isEndless : ∀ node : Node, IsEndless node →
    element node = .error .numberTooLarge
  | ⟨id, type, props, styles, metadata, children⟩, ⟨found, there, endless⟩ => by
    rw [element]
    by_cases own : Node.HasEndlessGrid ⟨id, type, props, styles, metadata, []⟩
    · rw [Props.ofNode_of_hasEndlessGrid own]
      rfl
    · obtain ⟨shown, read⟩ := exists_ofNode (Props.finiteGrid_of_not own)
      rw [Node.visible, Node.walk_eq, List.mem_cons] at there
      rcases there with rfl | below
      · exact absurd endless own
      · split at below
        · cases below
        · next holds =>
          rw [read, ok_bind, if_pos ((Props.holdsChildren_iff read).mpr holds),
            elements_of_showsEndlessGrid children ⟨found, below, endless⟩]
          rfl

theorem elements_of_showsEndlessGrid : ∀ nodes : List Node, ShowsEndlessGrid nodes →
    elements nodes = .error .numberTooLarge
  | [], ⟨_, there, _⟩ => nomatch there
  | node :: rest, h => by
    rw [elements]
    by_cases first : IsEndless node
    · rw [element_of_isEndless node first]
      rfl
    · obtain ⟨shown, made⟩ := element_of_not_isEndless first
      have later := (showsEndlessGrid_cons.mp h).resolve_left first
      rw [made, elements_of_showsEndlessGrid rest later]
      rfl

end

end Markup

def Project.ShowsEndlessGrid (project : Project) : Prop :=
  ∃ page ∈ project.pages, Markup.ShowsEndlessGrid page.tree

namespace Site

theorem pageSource_of_showsEndlessGrid {page : Page} (h : Markup.ShowsEndlessGrid page.tree) :
    pageSource page = .error .numberTooLarge := by
  rw [pageSource, Markup.render, Markup.elements_of_showsEndlessGrid _ h]
  rfl

theorem pageSource_of_not_showsEndlessGrid {page : Page}
    (h : ¬ Markup.ShowsEndlessGrid page.tree) : ∃ source, pageSource page = .ok source := by
  obtain ⟨shown, made⟩ := Markup.elements_of_not_showsEndlessGrid h
  rw [pageSource, Markup.render, made]
  exact ⟨_, rfl⟩

theorem exists_pageFiles_iff {seen : List String} {pages : List Page} :
    (∃ files, pageFiles seen pages = .ok files) ↔
      Apart seen pages ∧ ∀ page ∈ pages, ¬ Markup.ShowsEndlessGrid page.tree := by
  constructor
  · rintro ⟨files, written⟩
    induction pages generalizing seen files with
    | nil => exact ⟨apart_nil, List.forall_mem_nil _⟩
    | cons first rest ih =>
      rw [pageFiles] at written
      split at written
      · cases written
      · next free =>
        obtain ⟨source, shown, written⟩ := bind_eq_ok.mp written
        obtain ⟨more, later, -⟩ := bind_eq_ok.mp written
        obtain ⟨apart, others⟩ := ih more later
        refine ⟨apart_cons.mpr ⟨not_or.mp free, apart⟩, List.forall_mem_cons.mpr ⟨?_, others⟩⟩
        intro endless
        rw [pageSource_of_showsEndlessGrid endless] at shown
        cases shown
  · rintro ⟨apart, shown⟩
    obtain ⟨files, written, -⟩ := pageFiles_of_apart
      (fun page there => pageSource_of_not_showsEndlessGrid (shown page there)) apart
    exact ⟨files, written⟩

theorem of_pageFiles_eq_error {seen : List String} {pages : List Page} {error : Error}
    (h : pageFiles seen pages = .error error) :
    (¬ Apart seen pages ∧ ∃ page ∈ pages, error = .slugCollides page.slug) ∨
      (error = .numberTooLarge ∧ ∃ page ∈ pages, Markup.ShowsEndlessGrid page.tree) := by
  induction pages generalizing seen with
  | nil => cases h
  | cons first rest ih =>
    rw [pageFiles] at h
    split at h
    · next taken =>
      cases h
      exact .inl ⟨fun apart => absurd taken (not_or.mpr (apart_cons.mp apart).1),
        first, List.mem_cons_self, rfl⟩
    · by_cases endless : Markup.ShowsEndlessGrid first.tree
      · rw [pageSource_of_showsEndlessGrid endless] at h
        cases h
        exact .inr ⟨rfl, first, List.mem_cons_self, endless⟩
      · obtain ⟨source, shown⟩ := pageSource_of_not_showsEndlessGrid endless
        rw [shown, ok_bind] at h
        have later : pageFiles (pagePath first.slug :: seen) rest = .error error := by
          rcases bind_eq_error.mp h with failed | ⟨more, -, done⟩
          · exact failed
          · cases done
        rcases ih later with ⟨clash, page, there, collides⟩ | ⟨tooLarge, page, there, endless⟩
        · exact .inl ⟨fun apart => clash (apart_cons.mp apart).2, page,
            List.mem_cons_of_mem _ there, collides⟩
        · exact .inr ⟨tooLarge, page, List.mem_cons_of_mem _ there, endless⟩

/-- Every component has props that are within their ranges, unless it is a grid without an end. A
valid project has a site, unless paths of its pages collide, which is reported for one of them, a
page shows a grid without an end, or the project does not fit into its own files. -/
theorem inRange_ofNode_unless_hasEndlessGrid [Machine] (node : Node) (project : Project)
    (warnings : List String) :
    (node.HasEndlessGrid → Props.ofNode node = .error .numberTooLarge) ∧
    (¬ node.HasEndlessGrid → ∃ found, Props.ofNode node = .ok found ∧ found.InRange) ∧
    Error.numberTooLarge.kind = none ∧
    (project.check = .ok warnings →
      ((∃ error, generate project = .error error) ↔
        project.Collides ∨ project.ShowsEndlessGrid ∨ ¬ Fits project) ∧
      ∀ error, generate project = .error error →
        (project.Collides ∧ error.kind = some .validation ∧
          ∃ page ∈ project.pages, error = .slugCollides page.slug) ∨
        (project.ShowsEndlessGrid ∧ error = .numberTooLarge) ∨
        (¬ Fits project ∧ (error = .valueNested ∨ error = .integerOverlong))) := by
  refine ⟨Props.ofNode_of_hasEndlessGrid, fun finite => ?_, rfl,
    fun valid => ⟨?_, fun error failed => ?_⟩⟩
  · obtain ⟨found, read⟩ := Markup.exists_ofNode (Props.finiteGrid_of_not finite)
    exact ⟨found, read, Props.inRange_of_ofNode read⟩
  · have failed : (∃ error, generate project = .error error) ↔
        ¬ ∃ files, generate project = .ok files := by
      cases generate project <;> simp
    have made : (∃ files, generate project = .ok files) ↔
        (∃ pages, pageFiles [] project.pages = .ok pages) ∧ Fits project := by
      simp only [generate_eq_ok valid]
      exact ⟨fun ⟨_, pages, written, fits, _⟩ => ⟨⟨pages, written⟩, fits⟩,
        fun ⟨⟨pages, written⟩, fits⟩ => ⟨_, pages, written, fits, rfl⟩⟩
    rw [failed, made, exists_pageFiles_iff, apart_iff valid, not_and_or, not_and_or, not_not,
      or_assoc]
    simp only [Project.ShowsEndlessGrid, not_forall, not_not, exists_prop]
  · rcases generate_eq_error valid failed with failed | unfit
    · rcases of_pageFiles_eq_error failed with ⟨clash, page, there, rfl⟩ | ⟨tooLarge, endless⟩
      · have collides := not_not.mp fun clear => clash ((apart_iff valid).mpr clear)
        exact .inl ⟨collides, rfl, page, there, rfl⟩
      · exact .inr (.inl ⟨endless, tooLarge⟩)
    · exact .inr (.inr unfit)

/-- A grid whose rows are read from a number beyond the range of floating point. -/
def endlessGrid : Node where
  id := "g"
  type := "Grid"
  props := [("gridConfig", .obj [("rows", .float (.infinite false))])]

def boundless : Project where
  id := "p1"
  name := "Boundless"
  pages := [⟨"g1", "Home", "/", [⟨"b1", "Body", [], [], [], [endlessGrid]⟩], []⟩]

/-- A home page with the grid below a text, which does not show it. -/
def tucked : Project where
  id := "p2"
  name := "Tucked"
  pages := [⟨"g1", "Home", "/",
    [⟨"b1", "Body", [], [], [], [⟨"t1", "Text", [], [], [], [endlessGrid]⟩]⟩], []⟩]

theorem inRange_ofNode_unless_hasEndlessGrid_boundless :
    (endlessGrid.HasEndlessGrid ∧ Props.ofNode endlessGrid = .error .numberTooLarge) ∧
    (∃ found, Props.ofNode ⟨"g", "Grid", [("gridConfig", .arr [.float .nan])], [], [], []⟩ =
      .ok found ∧ found.InRange) ∧
    (boundless.ShowsEndlessGrid ∧ generate boundless = .error .numberTooLarge) ∧
    ¬ tucked.ShowsEndlessGrid ∧ ∃ files, generate tucked = .ok files := by
  let unreadGrid : Node := ⟨"g", "Grid", [("gridConfig", .arr [.float .nan])], [], [], []⟩
  obtain ⟨without, -, -, site⟩ := inRange_ofNode_unless_hasEndlessGrid endlessGrid boundless []
  obtain ⟨-, within, -, site'⟩ := inRange_ofNode_unless_hasEndlessGrid unreadGrid tucked
    ["Text node t1 has children that will not be rendered"]
  have endless : endlessGrid.HasEndlessGrid := ⟨rfl, "rows", by decide, false, rfl⟩
  have shown : boundless.ShowsEndlessGrid :=
    ⟨_, List.mem_singleton_self _, ⟨"", "Grid", endlessGrid.props, [], [], []⟩,
      List.mem_cons_of_mem _ List.mem_cons_self, endless⟩
  have hidden : ¬ tucked.ShowsEndlessGrid := by
    rintro ⟨page, there, node, mem, grid, key, named, negative, endless⟩
    have finite : ∀ page ∈ tucked.pages, ∀ node ∈ Node.walkList (Node.visibleList page.tree),
        Markup.FiniteGrid node := by decide
    exact finite page there node mem grid key named negative endless
  refine ⟨⟨endless, without endless⟩, within ?_, ⟨shown, ?_⟩, hidden, ?_⟩
  · rintro ⟨grid, key, named, negative, endless⟩
    have finite : Markup.FiniteGrid
        ⟨"g", "Grid", [("gridConfig", .arr [.float .nan])], [], [], []⟩ := by decide
    exact finite grid key named negative endless
  · obtain ⟨fails, reason⟩ := site rfl
    obtain ⟨error, failed⟩ := fails.mpr (.inr (.inl shown))
    rcases reason error failed with ⟨collides, -⟩ | ⟨-, rfl⟩ | ⟨unfit, -⟩
    · exact absurd collides (by decide)
    · exact failed
    · exact absurd ⟨by decide +kernel, by decide +kernel, by decide +kernel⟩ unfit
  · obtain ⟨fails, -⟩ := site' rfl
    cases made : generate tucked with
    | ok files => exact ⟨files, rfl⟩
    | error error =>
      rcases fails.mp ⟨error, made⟩ with collides | endless | unfit
      · exact absurd collides (by decide)
      · exact absurd endless hidden
      · exact absurd ⟨by decide +kernel, by decide +kernel, by decide +kernel⟩ unfit

end Site

end Sitewright
