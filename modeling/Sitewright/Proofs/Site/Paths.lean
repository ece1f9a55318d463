import Sitewright.Site.Generate

/-!
The paths that pages are written to. A path stands for one slug, except that the home page is
written where the page with the slug `/index` is.
-/

namespace Sitewright

namespace Slug

theorem exists_toList_of_isValid {slug : String} (valid : isValid slug = true) (ne : slug ≠ home) :
    ∃ c rest, slug.toList = '/' :: c :: rest ∧ c ≠ '/' := by
  have empty : isSegment [] = false := by decide
  simp only [isValid, decide_eq_false ne, Bool.false_or] at valid
  split at valid
  · next rest written =>
    cases rest with
    | nil => simp [Text.split, empty] at valid
    | cons c rest =>
      refine ⟨c, rest, written, ?_⟩
      rintro rfl
      simp [Text.split, empty] at valid
  · cases valid

end Slug

namespace Site

def pathStem (slug : String) : List Char :=
  if slug = Slug.home then "index".toList else slug.toList.tail

theorem toList_pagePath {slug : String} (valid : Slug.isValid slug = true) :
    (pagePath slug).toList = "pages/".toList ++ pathStem slug ++ ".tsx".toList := by
  rw [pagePath, pathStem]
  split
  · rfl
  · next ne =>
    obtain ⟨c, rest, written, other⟩ := Slug.exists_toList_of_isValid valid ne
    simp [written, other]

theorem pathStem_eq_index {slug : String} (valid : Slug.isValid slug = true) (ne : slug ≠ Slug.home)
    (h : pathStem slug = "index".toList) : slug = "/index" := by
  obtain ⟨c, rest, written, -⟩ := Slug.exists_toList_of_isValid valid ne
  rw [pathStem, if_neg ne, written, List.tail_cons] at h
  rw [← String.toList_inj, written, h]
  rfl

theorem pagePath_eq_iff {a b : String} (ha : Slug.isValid a = true) (hb : Slug.isValid b = true) :
    pagePath a = pagePath b ↔
      a = b ∨ (a = "/" ∧ b = "/index") ∨ (a = "/index" ∧ b = "/") := by
  constructor
  · intro same
    have stems : pathStem a = pathStem b := by
      have same := congrArg String.toList same
      rw [toList_pagePath ha, toList_pagePath hb] at same
      exact List.append_cancel_left (List.append_cancel_right same)
    by_cases homeA : a = Slug.home
    · by_cases homeB : b = Slug.home
      · exact .inl (homeA.trans homeB.symm)
      · refine .inr (.inl ⟨homeA, pathStem_eq_index hb homeB ?_⟩)
        rw [← stems, pathStem, if_pos homeA]
    · by_cases homeB : b = Slug.home
      · refine .inr (.inr ⟨pathStem_eq_index ha homeA ?_, homeB⟩)
        rw [stems, pathStem, if_pos homeB]
      · obtain ⟨c, rest, writtenA, -⟩ := Slug.exists_toList_of_isValid ha homeA
        obtain ⟨d, others, writtenB, -⟩ := Slug.exists_toList_of_isValid hb homeB
        rw [pathStem, pathStem, if_neg homeA, if_neg homeB, writtenA, writtenB] at stems
        refine .inl (String.toList_inj.mp ?_)
        rw [writtenA, writtenB]
        exact congrArg (List.cons '/') stems
  · rintro (rfl | ⟨rfl, rfl⟩ | ⟨rfl, rfl⟩)
    · rfl
    · decide
    · decide

theorem mem_reservedPaths {slug : String} (valid : Slug.isValid slug = true) :
    pagePath slug ∈ reservedPaths ↔ slug = "/_app" ∨ slug = "/_document" := by
  have app : "pages/_app.tsx" = pagePath "/_app" := by decide
  have document : "pages/_document.tsx" = pagePath "/_document" := by decide
  simp only [reservedPaths, List.mem_cons, List.not_mem_nil, or_false]
  rw [app, document, pagePath_eq_iff valid (by decide), pagePath_eq_iff valid (by decide)]
  simp

/-- The files that every site has, by path. -/
def fixedPaths : List String :=
  ["pages/_app.tsx", "pages/_document.tsx", "package.json", "next.config.js", "tailwind.config.js",
   "postcss.config.js", "tsconfig.json", ".gitignore", "README.md", "styles/globals.css",
   "config/builderSite.json", "config/stagingSite.json", "config/productionSite.json",
   "config/project.json"]

theorem nodup_fixedPaths : fixedPaths.Nodup := by decide

theorem map_fst_fixedFiles (project : Project) :
    (fixedFiles project ++ snapshotTexts project).map Prod.fst = fixedPaths := rfl

/-- Of the paths that every site has only those of the reserved pages are paths of pages. -/
theorem pagePath_not_mem_fixedPaths {slug : String} (valid : Slug.isValid slug = true)
    (free : pagePath slug ∉ reservedPaths) : pagePath slug ∉ fixedPaths := by
  intro fixed
  have others : ∀ path ∈ fixedPaths,
      path ∈ reservedPaths ∨ path.toList.take 6 ≠ "pages/".toList := by decide
  rcases others _ fixed with reserved | other
  · exact free reserved
  · apply other
    rw [toList_pagePath valid, List.append_assoc]
    rfl

end Site

end Sitewright
