import Mathlib.Data.List.Forall2
import Mathlib.Data.List.Nodup
import Sitewright.Proofs.Document.Grammar
import Sitewright.Proofs.Markup.Props
import Sitewright.Proofs.Site.Paths

namespace Sitewright

namespace Markup

mutual

theorem element_of_finiteGrid : ∀ {node : Node}, (∀ found ∈ node.walk, FiniteGrid found) →
    ∃ shown, element node = .ok shown
  | ⟨id, type, props, styles, metadata, children⟩, h => by
    rw [Node.walk_eq, List.forall_mem_cons] at h
    obtain ⟨found, read⟩ := exists_ofNode h.1
    have props : Props.ofNode ⟨id, type, props, styles, metadata, []⟩ = .ok found := read
    obtain ⟨inner, made⟩ := elements_of_finiteGrid h.2
    rw [element, props, ok_bind]
    split
    · rw [made]
      exact ⟨_, rfl⟩
    · exact ⟨_, rfl⟩

theorem elements_of_finiteGrid : ∀ {nodes : List Node},
    (∀ found ∈ Node.walkList nodes, FiniteGrid found) → ∃ shown, elements nodes = .ok shown
  | [], _ => ⟨[], rfl⟩
  | node :: rest, h => by
    rw [Node.walkList, List.forall_mem_append] at h
    obtain ⟨first, made⟩ := element_of_finiteGrid h.1
    obtain ⟨others, madeRest⟩ := elements_of_finiteGrid h.2
    rw [elements, made, madeRest]
    exact ⟨_, rfl⟩

end

end Markup

namespace Project

theorem of_checkPages {seen : List String} {pages : List Page} {warnings : List String}
    (h : checkPages seen pages = .ok warnings) :
    (pages.map Page.slug).Nodup ∧
      ∀ page ∈ pages, page.slug ∉ seen ∧ Slug.isValid page.slug = true := by
  induction pages generalizing seen warnings with
  | nil => exact ⟨.nil, List.forall_mem_nil _⟩
  | cons first rest ih =>
    rw [checkPages] at h
    split at h
    · cases h
    · next new =>
      obtain ⟨found, checked, h⟩ := bind_eq_ok.mp h
      obtain ⟨more, hRest, -⟩ := bind_eq_ok.mp h
      obtain ⟨distinct, others⟩ := ih hRest
      have valid : Slug.isValid first.slug = true := by
        obtain ⟨_, slug, -⟩ := bind_eq_ok.mp checked
        exact Slug.check_eq_ok_iff_isValid.mp slug
      refine ⟨List.nodup_cons.mpr ⟨fun again => ?_, distinct⟩,
        List.forall_mem_cons.mpr ⟨⟨new, valid⟩, fun page later => ?_⟩⟩
      · obtain ⟨page, later, same⟩ := List.mem_map.mp again
        exact (others page later).1 (same ▸ List.mem_cons_self)
      · obtain ⟨other, valid⟩ := others page later
        exact ⟨fun old => other (List.mem_cons_of_mem _ old), valid⟩

/-- Two pages have the same path, or a page has that of a reserved file. -/
def Collides (project : Project) : Prop :=
  "/_app" ∈ project.pages.map Page.slug ∨ "/_document" ∈ project.pages.map Page.slug ∨
    ("/" ∈ project.pages.map Page.slug ∧ "/index" ∈ project.pages.map Page.slug)

instance (project : Project) : Decidable project.Collides :=
  inferInstanceAs (Decidable (_ ∨ _ ∨ (_ ∧ _)))

end Project

namespace Site

theorem pageSource_of_finiteGrid {page : Page} (h : ∀ node ∈ page.nodes, Markup.FiniteGrid node) :
    ∃ source, pageSource page = .ok source := by
  obtain ⟨shown, made⟩ := Markup.elements_of_finiteGrid h
  rw [pageSource, Markup.render, made]
  exact ⟨_, rfl⟩

structure IsFileOf (page : Page) (file : String × String) : Prop where
  path : file.1 = pagePath page.slug
  source : pageSource page = .ok file.2

theorem map_fst_of_isFileOf {pages : List Page} {files : Fields String}
    (h : List.Forall₂ IsFileOf pages files) :
    files.map Prod.fst = pages.map fun page => pagePath page.slug := by
  induction h with
  | nil => rfl
  | cons first _ rest => rw [List.map_cons, List.map_cons, first.path, rest]

theorem isFileOf_of_pageFiles {seen : List String} {pages : List Page} {files : Fields String}
    (h : pageFiles seen pages = .ok files) : List.Forall₂ IsFileOf pages files := by
  induction pages generalizing seen files with
  | nil =>
    cases h
    exact .nil
  | cons first rest ih =>
    rw [pageFiles] at h
    split at h
    · cases h
    · obtain ⟨source, written, h⟩ := bind_eq_ok.mp h
      obtain ⟨more, later, h⟩ := bind_eq_ok.mp h
      cases h
      exact .cons ⟨rfl, written⟩ (ih later)

theorem generate_eq_ok [Machine] {project : Project} {warnings : List String}
    (valid : project.check = .ok warnings) {files : Fields String} :
    generate project = .ok files ↔ ∃ pages, pageFiles [] project.pages = .ok pages ∧
      Fits project ∧ files = pages ++ fixedFiles project ++ snapshotTexts project := by
  rw [generate, valid, ok_bind, bind_eq_ok]
  refine exists_congr fun pages => and_congr_right fun _ => ?_
  constructor
  · intro made
    obtain ⟨snapshots, written, done⟩ := bind_eq_ok.mp made
    obtain ⟨fits, rfl⟩ := snapshotFiles_eq_ok.mp written
    exact ⟨fits, (Except.ok.inj done).symm⟩
  · rintro ⟨fits, rfl⟩
    rw [snapshotFiles_eq_ok.mpr ⟨fits, rfl⟩]
    rfl

theorem generate_eq_error [Machine] {project : Project} {warnings : List String}
    (valid : project.check = .ok warnings) {error : Error}
    (failed : generate project = .error error) :
    pageFiles [] project.pages = .error error ∨
      ¬ Fits project ∧ (error = .valueNested ∨ error = .integerOverlong) := by
  rw [generate, valid, ok_bind] at failed
  refine (bind_eq_error.mp failed).imp_right ?_
  rintro ⟨pages, -, failed⟩
  rcases bind_eq_error.mp failed with failed | ⟨_, -, ⟨⟩⟩
  refine ⟨fun fits => ?_, snapshotFiles_eq_error failed⟩
  rw [snapshotFiles_eq_ok.mpr ⟨fits, rfl⟩] at failed
  cases failed

theorem paths_of_generate [Machine] {project : Project} {files : Fields String}
    (made : generate project = .ok files) :
    (∃ warnings, project.check = .ok warnings) ∧
      files.map Prod.fst = project.pages.map (fun page => pagePath page.slug) ++ fixedPaths := by
  obtain ⟨warnings, valid, -⟩ := bind_eq_ok.mp made
  obtain ⟨pages, written, -, rfl⟩ := (generate_eq_ok valid).mp made
  refine ⟨⟨warnings, valid⟩, ?_⟩
  rw [List.append_assoc, List.map_append, map_fst_fixedFiles,
    map_fst_of_isFileOf (isFileOf_of_pageFiles written)]

/-- The paths of pages differ from each other, from the paths before them and from the reserved
ones. -/
structure Apart (seen : List String) (pages : List Page) : Prop where
  distinct : (pages.map fun page => pagePath page.slug).Nodup
  free : ∀ page ∈ pages, pagePath page.slug ∉ seen ∧ pagePath page.slug ∉ reservedPaths

variable {seen : List String} {pages : List Page}

theorem apart_nil : Apart seen [] := ⟨.nil, List.forall_mem_nil _⟩

theorem apart_cons {first : Page} :
    Apart seen (first :: pages) ↔
      (pagePath first.slug ∉ seen ∧ pagePath first.slug ∉ reservedPaths) ∧
        Apart (pagePath first.slug :: seen) pages := by
  constructor
  · rintro ⟨distinct, free⟩
    rw [List.forall_mem_cons] at free
    rw [List.map_cons, List.nodup_cons] at distinct
    refine ⟨free.1, distinct.2, fun page later => ⟨?_, (free.2 page later).2⟩⟩
    refine List.not_mem_cons_of_ne_of_not_mem (fun same => distinct.1 ?_) (free.2 page later).1
    exact List.mem_map.mpr ⟨page, later, same⟩
  · rintro ⟨free, distinct, others⟩
    refine ⟨List.nodup_cons.mpr ⟨fun again => ?_, distinct⟩, List.forall_mem_cons.mpr ⟨free, ?_⟩⟩
    · obtain ⟨page, later, same⟩ := List.mem_map.mp again
      exact (others page later).1 (same ▸ List.mem_cons_self)
    · intro page later
      exact ⟨fun old => (others page later).1 (List.mem_cons_of_mem _ old), (others page later).2⟩

theorem pageFiles_of_apart (made : ∀ page ∈ pages, ∃ source, pageSource page = .ok source)
    (apart : Apart seen pages) :
    ∃ files, pageFiles seen pages = .ok files ∧ List.Forall₂ IsFileOf pages files := by
  induction pages generalizing seen with
  | nil => exact ⟨[], rfl, .nil⟩
  | cons first rest ih =>
    obtain ⟨⟨source, written⟩, made⟩ := List.forall_mem_cons.mp made
    obtain ⟨⟨new, free⟩, others⟩ := apart_cons.mp apart
    obtain ⟨files, more, fits⟩ := ih made others
    refine ⟨(pagePath first.slug, source) :: files, ?_, .cons ⟨rfl, written⟩ fits⟩
    rw [pageFiles, if_neg (not_or.mpr ⟨new, free⟩), written, ok_bind, more]
    rfl

theorem pageFiles_of_not_apart (made : ∀ page ∈ pages, ∃ source, pageSource page = .ok source)
    (clash : ¬ Apart seen pages) :
    ∃ page ∈ pages, pageFiles seen pages = .error (.slugCollides page.slug) := by
  induction pages generalizing seen with
  | nil => exact absurd apart_nil clash
  | cons first rest ih =>
    obtain ⟨⟨source, written⟩, made⟩ := List.forall_mem_cons.mp made
    by_cases taken : pagePath first.slug ∈ seen ∨ pagePath first.slug ∈ reservedPaths
    · refine ⟨first, List.mem_cons_self, ?_⟩
      rw [pageFiles, if_pos taken]
      rfl
    · have others : ¬ Apart (pagePath first.slug :: seen) rest := fun apart =>
        clash (apart_cons.mpr ⟨not_or.mp taken, apart⟩)
      obtain ⟨page, later, error⟩ := ih made others
      refine ⟨page, List.mem_cons_of_mem _ later, ?_⟩
      rw [pageFiles, if_neg taken, written, ok_bind, error]
      rfl

theorem apart_iff {project : Project} {warnings : List String}
    (valid : project.check = .ok warnings) :
    Apart [] project.pages ↔ ¬ project.Collides := by
  obtain ⟨distinct, valid⟩ := Project.of_checkPages valid
  have slug {page : Page} (h : page ∈ project.pages) := (valid page h).2
  constructor
  · rintro ⟨apart, free⟩ collides
    rcases collides with app | document | ⟨home, index⟩
    · obtain ⟨page, there, same⟩ := List.mem_map.mp app
      exact (free page there).2 ((mem_reservedPaths (slug there)).mpr (.inl same))
    · obtain ⟨page, there, same⟩ := List.mem_map.mp document
      exact (free page there).2 ((mem_reservedPaths (slug there)).mpr (.inr same))
    · rw [← Function.comp_def pagePath Page.slug, ← List.map_map] at apart
      exact absurd (List.inj_on_of_nodup_map apart home index (by decide)) (by decide)
  · intro clear
    refine ⟨?_, fun page there => ⟨List.not_mem_nil, fun reserved => ?_⟩⟩
    · rw [← Function.comp_def pagePath Page.slug, ← List.map_map]
      refine distinct.map_on fun a ha b hb same => ?_
      obtain ⟨first, hFirst, rfl⟩ := List.mem_map.mp ha
      obtain ⟨second, hSecond, rfl⟩ := List.mem_map.mp hb
      rcases (pagePath_eq_iff (slug hFirst) (slug hSecond)).mp same with
        same | ⟨home, index⟩ | ⟨index, home⟩
      · exact same
      · exact absurd (.inr (.inr ⟨home ▸ ha, index ▸ hb⟩)) clear
      · exact absurd (.inr (.inr ⟨home ▸ hb, index ▸ ha⟩)) clear
    · have there := List.mem_map_of_mem (f := Page.slug) there
      rcases (mem_reservedPaths (slug ‹_›)).mp reserved with same | same
      · exact clear (.inl (same ▸ there))
      · exact clear (.inr (.inl (same ▸ there)))

theorem nodup_files {pages : List Page} {files : Fields String} (project : Project)
    (valid : ∀ page ∈ pages, Slug.isValid page.slug = true) (apart : Apart seen pages)
    (fits : List.Forall₂ IsFileOf pages files) :
    ((files ++ fixedFiles project ++ snapshotTexts project).map Prod.fst).Nodup := by
  rw [List.append_assoc, List.map_append, map_fst_fixedFiles, map_fst_of_isFileOf fits]
  refine List.nodup_append.mpr ⟨apart.distinct, nodup_fixedPaths, fun path hPath other fixed => ?_⟩
  rintro rfl
  obtain ⟨page, there, rfl⟩ := List.mem_map.mp hPath
  exact pagePath_not_mem_fixedPaths (valid page there) (apart.free page there).2 fixed

/-- A valid project without infinite numbers in its grids has no site exactly if paths of its pages
collide, which is reported for one of the pages, or if it does not fit. Its site has one file for
each page, in order, and the files that every site has, under paths that all differ. -/
theorem generate_of_check [Machine] {project : Project} {warnings : List String}
    (valid : project.check = .ok warnings)
    (finite : ∀ node ∈ project.nodes, Markup.FiniteGrid node) :
    ((∃ error, generate project = .error error) ↔ project.Collides ∨ ¬ Fits project) ∧
    (∀ error, generate project = .error error →
      (project.Collides ∧ error.kind = some .validation ∧
        ∃ page ∈ project.pages, error = .slugCollides page.slug) ∨
      (¬ Fits project ∧ error.kind = none ∧
        (error = .valueNested ∨ error = .integerOverlong))) ∧
    ∀ files, generate project = .ok files →
      (∃ pages, List.Forall₂ IsFileOf project.pages pages ∧
        files = pages ++ fixedFiles project ++ snapshotTexts project) ∧
      files.map Prod.fst = project.pages.map (fun page => pagePath page.slug) ++ fixedPaths ∧
      (files.map Prod.fst).Nodup := by
  have made : ∀ page ∈ project.pages, ∃ source, pageSource page = .ok source :=
    fun page there => pageSource_of_finiteGrid fun node hNode =>
      finite node (List.mem_flatMap.mpr ⟨page, there, hNode⟩)
  have unfit {error : Error} (reason : error = .valueNested ∨ error = .integerOverlong) :
      error.kind = none := by rcases reason with rfl | rfl <;> rfl
  by_cases collides : project.Collides
  · obtain ⟨page, there, error⟩ :=
      pageFiles_of_not_apart made fun apart => (apart_iff valid).mp apart collides
    have fails : generate project = .error (.slugCollides page.slug) := by
      rw [generate, valid, ok_bind, error]
      rfl
    rw [fails]
    refine ⟨⟨fun _ => .inl collides, fun _ => ⟨_, rfl⟩⟩, ?_, nofun⟩
    rintro _ ⟨⟩
    exact .inl ⟨collides, rfl, page, there, rfl⟩
  · have apart := (apart_iff valid).mpr collides
    obtain ⟨pages, written, files⟩ := pageFiles_of_apart made apart
    by_cases fits : Fits project
    · rw [(generate_eq_ok valid).mpr ⟨pages, written, fits, rfl⟩]
      refine ⟨⟨nofun, fun h => absurd fits (h.resolve_left collides)⟩, nofun, ?_⟩
      rintro _ ⟨⟩
      refine ⟨⟨pages, files, rfl⟩, ?_, ?_⟩
      · rw [List.append_assoc, List.map_append, map_fst_fixedFiles, map_fst_of_isFileOf files]
      · exact nodup_files project
          (fun page there => ((Project.of_checkPages valid).2 page there).2) apart files
    · cases generated : generate project with
      | ok files => exact absurd ((generate_eq_ok valid).mp generated).choose_spec.2.1 fits
      | error error =>
        have reason := ((generate_eq_error valid generated).resolve_left fun failed => by
          rw [written] at failed
          cases failed).2
        refine ⟨⟨fun _ => .inr fits, fun _ => ⟨_, rfl⟩⟩, ?_, nofun⟩
        rintro _ ⟨⟩
        exact .inr ⟨fits, unfit reason, reason⟩

def leaflet : Project where
  id := "p1"
  name := "Leaflet"
  pages := [
    ⟨"g1", "Home", "/", [{ id := "b1", type := "Body" }], []⟩,
    ⟨"g2", "Intro", "/blog/intro", [⟨"b2", "Body", [], [], [],
      [{ id := "g", type := "Grid", props := [("gridConfig", .obj [("cols", .int 3)])] }]⟩], []⟩]

def leafletWithIndex : Project :=
  { leaflet with
    pages := leaflet.pages ++ [⟨"g3", "Index", "/index", [{ id := "b3", type := "Body" }], []⟩] }

def deepLeaflet : Project :=
  { leaflet with metadata := { extra := [("note", Nat.iterate (fun v => .arr [v]) 600 .null)] } }

theorem generate_of_check_leaflet :
    (∃ files, generate leaflet = .ok files ∧ files.length = 16 ∧ (files.map Prod.fst).Nodup) ∧
      (∃ error, generate leafletWithIndex = .error error) ∧
      ∃ error, generate deepLeaflet = .error error := by
  have clear : ¬ leaflet.Collides := by decide
  have fits : Fits leaflet := ⟨by decide +kernel, by decide +kernel, by decide +kernel⟩
  have finite : ∀ node ∈ leaflet.nodes, Markup.FiniteGrid node := by decide +kernel
  obtain ⟨fails, -, shape⟩ := @generate_of_check _ leaflet [] rfl finite
  refine ⟨?_, ?_, ?_⟩
  · cases made : generate leaflet with
    | error error => exact absurd (fails.mp ⟨error, made⟩) (not_or.mpr ⟨clear, not_not.mpr fits⟩)
    | ok files =>
      obtain ⟨-, paths, distinct⟩ := shape files made
      exact ⟨files, rfl, by rw [← List.length_map Prod.fst, paths]; rfl, distinct⟩
  · have finite : ∀ node ∈ leafletWithIndex.nodes, Markup.FiniteGrid node := by decide +kernel
    exact (@generate_of_check _ leafletWithIndex [] rfl finite).1.mpr (.inl (by decide))
  · have unfit : ¬ Fits deepLeaflet := fun fits => absurd fits.encoded (by decide +kernel)
    exact (@generate_of_check _ deepLeaflet [] rfl finite).1.mpr (.inr unfit)

end Site

end Sitewright
