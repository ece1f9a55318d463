import Mathlib.Data.Prod.Lex
import Sitewright.Document.Validity
import Sitewright.Proofs.Document.WellFormed

namespace Sitewright.Project

/-- When a fault is found. The stages of a page are that its slug is repeated, that it is not
valid, and the tree. -/
structure Moment where
  page : Nat := 0
  stage : Nat := 0
  inTree : Tree.Moment := {}

def Moment.key (moment : Moment) : Nat ×ₗ Nat ×ₗ Tree.Position ×ₗ Nat :=
  toLex (moment.page, toLex (moment.stage, moment.inTree.key))

instance : LT Moment := ⟨fun a b => a.key < b.key⟩

theorem Moment.asymm {a b : Moment} (h : a < b) : ¬ b < a := lt_asymm (a := a.key) h

theorem Moment.lt_of_page {a b : Moment} (h : a.page < b.page) : a < b :=
  Prod.Lex.toLex_lt_toLex.mpr (.inl h)

theorem Moment.lt_of_stage {a b : Moment} (same : a.page = b.page) (h : a.stage < b.stage) :
    a < b :=
  Prod.Lex.toLex_lt_toLex.mpr (.inr ⟨same, Prod.Lex.toLex_lt_toLex.mpr (.inl h)⟩)

theorem Moment.lt_of_inTree {page stage : Nat} {a b : Tree.Moment} (h : a < b) :
    (⟨page, stage, a⟩ : Moment) < ⟨page, stage, b⟩ :=
  Prod.Lex.toLex_lt_toLex.mpr (.inr ⟨rfl, Prod.Lex.toLex_lt_toLex.mpr (.inr ⟨rfl, h⟩)⟩)

inductive PageFault (used : Prop) (index : Nat) (page : Page) : Moment → Error → Prop
  | slugRepeated : used → PageFault used index page ⟨index, 0, {}⟩ (.slugRepeated page.slug)
  | slugInvalid : Slug.isValid page.slug = false →
      PageFault used index page ⟨index, 1, {}⟩ (.slugInvalid (.str page.slug))
  | tree {moment : Tree.Moment} {error : Error} : Tree.Fault page.tree moment error →
      PageFault used index page ⟨index, 2, moment⟩ error

def Used (project : Project) (index : Nat) (slug : String) : Prop :=
  ∃ earlier page, earlier < index ∧ project.pages[earlier]? = some page ∧ page.slug = slug

inductive Fault (project : Project) (pagesRequired : Bool) : Moment → Error → Prop
  | noPages : pagesRequired = true → project.pages = [] → Fault project pagesRequired {} .noPages
  | page {index : Nat} {page : Page} {moment : Moment} {error : Error} :
      project.pages[index]? = some page →
      PageFault (Used project index page.slug) index page moment error →
      Fault project pagesRequired moment error

/-! One page -/

def checkPage (seen : List String) (page : Page) : Except Error (List String) :=
  if page.slug ∈ seen then .error (.slugRepeated page.slug) else page.check

theorem check_page_eq (page : Page) :
    page.check = if Slug.isValid page.slug = false then .error (.slugInvalid (.str page.slug))
      else Tree.check page.tree := by
  rw [Page.check, Slug.check]
  cases Slug.isValid page.slug <;> rfl

theorem page_of_pageFault {used : Prop} {index : Nat} {page : Page} {moment : Moment}
    {error : Error} (h : PageFault used index page moment error) : moment.page = index := by
  cases h <;> rfl

theorem reports_checkPage (seen : List String) (index : Nat) (page : Page) :
    Reports (PageFault (page.slug ∈ seen) index page) (checkPage seen page) := by
  have tree := (Tree.reports_check page.tree).moved (Moment.mk index 2) fun _ _ =>
    Moment.lt_of_inTree
  have slug := tree.ite (Slug.isValid page.slug = false) ⟨index, 1, {}⟩
    (.slugInvalid (.str page.slug)) (by
      rintro _ e ⟨a, rfl, -⟩
      exact Moment.lt_of_stage rfl (by decide : 1 < 2))
  have all := slug.ite (page.slug ∈ seen) ⟨index, 0, {}⟩ (.slugRepeated page.slug) (by
    rintro _ e (⟨-, rfl, -⟩ | ⟨a, rfl, -⟩)
    · exact Moment.lt_of_stage rfl (by decide : 0 < 1)
    · exact Moment.lt_of_stage rfl (by decide : 0 < 2))
  rw [checkPage, check_page_eq]
  apply all.congr
  intro moment error
  constructor
  · rintro (⟨repeated, rfl, rfl⟩ | ⟨invalid, rfl, rfl⟩ | ⟨inTree, rfl, fault⟩)
    · exact .slugRepeated repeated
    · exact .slugInvalid invalid
    · exact .tree fault
  · intro fault
    cases fault with
    | slugRepeated repeated => exact .inl ⟨repeated, rfl, rfl⟩
    | slugInvalid invalid => exact .inr (.inl ⟨invalid, rfl, rfl⟩)
    | tree fault => exact .inr (.inr ⟨_, rfl, fault⟩)

/-! All pages -/

theorem checkPages_eq_checkEach (seen : List String) (pages : List Page) :
    checkPages seen pages = checkEach checkPage Page.slug seen pages := by
  induction pages generalizing seen with
  | nil => rfl
  | cons page rest ih =>
    rw [checkPages, checkEach, checkPage, ← ih]
    split <;> rfl

theorem used_iff {project : Project} {index : Nat} {slug : String} :
    Used project index slug ↔
      ∃ other ∈ project.pages.zipIdx, other.2 < index ∧ other.1.slug = slug := by
  constructor
  · rintro ⟨earlier, page, first, found, same⟩
    exact ⟨⟨page, earlier⟩, List.mem_zipIdx_iff_getElem?.mpr found, first, same⟩
  · rintro ⟨⟨page, earlier⟩, there, first, same⟩
    exact ⟨earlier, page, first, List.mem_zipIdx_iff_getElem?.mp there, same⟩

theorem faultOfEach_pages_iff {project : Project} {moment : Moment} {error : Error} :
    FaultOfEach (fun used (page, index) => PageFault used index page) (·.1.slug) []
        project.pages.zipIdx moment error ↔
      ∃ index page, project.pages[index]? = some page ∧
        PageFault (Used project index page.slug) index page moment error := by
  rw [faultOfEach_iff Prod.snd (ordered_zipIdx project.pages) fun _ _ => used_iff]
  constructor
  · rintro ⟨⟨page, index⟩, there, fault⟩
    exact ⟨index, page, List.mem_zipIdx_iff_getElem?.mp there, fault⟩
  · rintro ⟨index, page, found, fault⟩
    exact ⟨⟨page, index⟩, List.mem_zipIdx_iff_getElem?.mpr found, fault⟩

theorem reports_checkPages (project : Project) :
    Reports (FaultOfEach (fun used (page, index) => PageFault used index page) (·.1.slug) []
      project.pages.zipIdx) project.check := by
  rw [check, checkPages_eq_checkEach]
  nth_rewrite 2 [← List.zipIdx_map_fst 0 project.pages]
  rw [checkEach_map]
  apply Reports.each
  · rintro seen ⟨page, index⟩
    exact reports_checkPage seen index page
  · apply (ordered_zipIdx project.pages).imp
    rintro ⟨a, i⟩ ⟨b, j⟩ first used m e used' m' e' here there
    apply Moment.lt_of_page
    rwa [page_of_pageFault here, page_of_pageFault there]

/-- The check of a project that must have pages or need not have any. -/
def checkFor (pagesRequired : Bool) (project : Project) : Except Error (List String) :=
  if pagesRequired then project.checkWithPages else project.check

theorem fault_iff_of_pages {project : Project} {pagesRequired : Bool}
    (pages : pagesRequired = true → project.pages ≠ []) (moment : Moment) (error : Error) :
    Fault project pagesRequired moment error ↔
      ∃ index page, project.pages[index]? = some page ∧
        PageFault (Used project index page.slug) index page moment error := by
  constructor
  · rintro (⟨required, none⟩ | ⟨found, fault⟩)
    · exact absurd none (pages required)
    · exact ⟨_, _, found, fault⟩
  · rintro ⟨index, page, found, fault⟩
    exact .page found fault

theorem reports_checkFor (project : Project) (pagesRequired : Bool) :
    Reports (Fault project pagesRequired) (checkFor pagesRequired project) := by
  have pages := (reports_checkPages project).congr fun _ _ => faultOfEach_pages_iff
  cases pagesRequired with
  | false =>
    apply pages.congr
    intro moment error
    exact (fault_iff_of_pages Bool.noConfusion moment error).symm
  | true =>
    show Reports _ (checkWithPages project)
    rw [checkWithPages]
    split
    · next empty =>
      have empty := List.isEmpty_iff.mp empty
      refine ⟨{}, .noPages rfl empty, ?_⟩
      rintro _ _ (⟨-, -⟩ | ⟨found, -⟩)
      · exact .inr ⟨rfl, rfl⟩
      · rw [empty] at found
        cases found
    · next some =>
      apply pages.congr
      intro moment error
      exact (fault_iff_of_pages (fun _ none => some (List.isEmpty_iff.mpr none)) moment error).symm

/-! What is refused -/

inductive Unacceptable (project : Project) (pagesRequired : Bool) : Prop
  | noPages : pagesRequired = true → project.pages = [] → Unacceptable project pagesRequired
  | slugShared : ¬ (project.pages.map Page.slug).Nodup → Unacceptable project pagesRequired
  | slugInvalid {page : Page} {error : Error} : page ∈ project.pages →
      Slug.check (.str page.slug) = .error error → Unacceptable project pagesRequired
  | tree {page : Page} {error : Error} : page ∈ project.pages →
      Tree.check page.tree = .error error → Unacceptable project pagesRequired

theorem not_nodup_slugs_iff {project : Project} :
    ¬ (project.pages.map Page.slug).Nodup ↔
      ∃ index page, project.pages[index]? = some page ∧ Used project index page.slug := by
  rw [List.Nodup, List.pairwise_map, List.pairwise_iff_getElem]
  constructor
  · intro shared
    by_contra single
    refine shared fun i j hi hj first same =>
      single ⟨j, project.pages[j], ?_, i, project.pages[i], ?_⟩
    · exact List.getElem?_eq_getElem hj
    · exact ⟨first, List.getElem?_eq_getElem hi, same⟩
  · rintro ⟨j, page, found, i, other, first, there, same⟩ distinct
    obtain ⟨hj, rfl⟩ := List.getElem?_eq_some_iff.mp found
    obtain ⟨hi, rfl⟩ := List.getElem?_eq_some_iff.mp there
    exact distinct i j hi hj first same

theorem slug_check_eq_error_iff {slug : String} :
    (∃ error, Slug.check (.str slug) = .error error) ↔ Slug.isValid slug = false := by
  rw [Slug.check]
  cases Slug.isValid slug <;> simp

theorem unacceptable_iff {project : Project} {pagesRequired : Bool} :
    Unacceptable project pagesRequired ↔
      ∃ moment error, Fault project pagesRequired moment error := by
  constructor
  · rintro (⟨required, none⟩ | shared | ⟨there, invalid⟩ | ⟨there, failed⟩)
    · exact ⟨_, _, .noPages required none⟩
    · obtain ⟨index, page, found, used⟩ := not_nodup_slugs_iff.mp shared
      exact ⟨_, _, .page found (.slugRepeated used)⟩
    · obtain ⟨index, found⟩ := List.getElem?_of_mem there
      exact ⟨_, _, .page found (.slugInvalid (slug_check_eq_error_iff.mp ⟨_, invalid⟩))⟩
    · obtain ⟨index, found⟩ := List.getElem?_of_mem there
      obtain ⟨moment, error, fault⟩ := (Tree.reports_check _).fails_iff.mp ⟨_, failed⟩
      exact ⟨_, _, .page found (.tree fault)⟩
  · rintro ⟨moment, error, fault⟩
    cases fault with
    | noPages required none => exact .noPages required none
    | @page index page _ _ found fault =>
      have there := List.mem_of_getElem? found
      cases fault with
      | slugRepeated used => exact .slugShared (not_nodup_slugs_iff.mpr ⟨index, page, found, used⟩)
      | slugInvalid invalid =>
        obtain ⟨error, failed⟩ := slug_check_eq_error_iff.mpr invalid
        exact .slugInvalid there failed
      | tree fault =>
        obtain ⟨error, failed⟩ := (Tree.reports_check _).fails_iff.mpr ⟨_, _, fault⟩
        exact .tree there failed

theorem warnings_of_checkFor {project : Project} {pagesRequired : Bool} {warnings : List String}
    (h : checkFor pagesRequired project = .ok warnings) :
    ∃ found, project.pages.mapM (fun page => Tree.check page.tree) = .ok found ∧
      warnings = found.flatten := by
  have checked : project.check = .ok warnings := by
    rw [checkFor, checkWithPages] at h
    split at h
    · split at h
      · cases h
      · exact h
    · exact h
  rw [check, checkPages_eq_checkEach] at checked
  apply checkEach_eq_ok _ _ checked
  intro seen page found passed
  rw [checkPage, check_page_eq] at passed
  iterate 2
    split at passed
    · cases passed
  exact passed

/-- A project is refused for one of four reasons, and the error is that of the first fault. One that
is accepted has the warnings of its pages, in their order. -/
theorem checkFor_reports_earliest (project : Project) (pagesRequired : Bool) :
    ((∃ error, checkFor pagesRequired project = .error error) ↔
      Unacceptable project pagesRequired) ∧
    (∀ error, checkFor pagesRequired project = .error error ↔
      Earliest (Fault project pagesRequired) error) ∧
    ∀ warnings, checkFor pagesRequired project = .ok warnings ↔
      ¬ Unacceptable project pagesRequired ∧
        ∃ found, project.pages.mapM (fun page => Tree.check page.tree) = .ok found ∧
          warnings = found.flatten := by
  have reports := reports_checkFor project pagesRequired
  have refused := reports.fails_iff.trans unacceptable_iff.symm
  refine ⟨refused, fun error => reports.error_iff fun _ _ => Moment.asymm, fun warnings => ?_⟩
  rw [← refused]
  constructor
  · intro accepted
    refine ⟨?_, warnings_of_checkFor accepted⟩
    rintro ⟨error, failed⟩
    rw [accepted] at failed
    cases failed
  · rintro ⟨sound, found, each, rfl⟩
    cases result : checkFor pagesRequired project with
    | error error => exact absurd ⟨error, result⟩ sound
    | ok warnings =>
      obtain ⟨same, eachSame, rfl⟩ := warnings_of_checkFor result
      rw [each] at eachSame
      cases eachSame
      rfl

end Sitewright.Project
