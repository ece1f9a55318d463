import Mathlib.Data.List.TakeWhile
import Sitewright.Proofs.Document.Grammar
import Sitewright.Proofs.Site.Files
import Sitewright.Site.Archive

namespace Sitewright

namespace Site

/-! Following a path -/

/-- The directory that steps lead to from a directory, each as the names that lead there from the
root. -/
def follow (directory : List (List Char)) : List (List Char) → List (List Char)
  | [] => directory
  | step :: rest =>
    if step = [] ∨ step = ['.'] then follow directory rest
    else if step = ['.', '.'] then follow directory.dropLast rest
    else follow (directory ++ [step]) rest

def placeOf (directory : List (List Char)) (path : String) : List (List Char) :=
  follow (if ['/'] <+: path.toList then [] else directory) (Text.split '/' path.toList)

/-- A step down to what it names. -/
def IsName (step : List Char) : Prop := step ≠ [] ∧ step ≠ ['.'] ∧ step ≠ ['.', '.']

instance (step : List Char) : Decidable (IsName step) := inferInstanceAs (Decidable (_ ∧ _))

theorem follow_of_isName {steps : List (List Char)} (h : ∀ step ∈ steps, IsName step)
    (directory : List (List Char)) : follow directory steps = directory ++ steps := by
  induction steps generalizing directory with
  | nil => rw [follow, List.append_nil]
  | cons step rest ih =>
    obtain ⟨⟨there, notHere, notAbove⟩, later⟩ := List.forall_mem_cons.mp h
    rw [follow, if_neg (not_or.mpr ⟨there, notHere⟩), if_neg notAbove, ih later,
      List.append_assoc, List.singleton_append]

/-- A relative path of nothing but names, without characters that could end it early or divide it
elsewhere. -/
structure IsPlain (path : String) : Prop where
  relative : ¬['/'] <+: path.toList
  named : ∀ step ∈ Text.split '/' path.toList, IsName step
  undivided : '\\' ∉ path.toList
  unended : '\x00' ∉ path.toList

instance (path : String) : Decidable (IsPlain path) :=
  decidable_of_iff (¬['/'] <+: path.toList ∧ (∀ step ∈ Text.split '/' path.toList, IsName step) ∧
      '\\' ∉ path.toList ∧ '\x00' ∉ path.toList)
    ⟨fun ⟨a, b, c, d⟩ => ⟨a, b, c, d⟩, fun ⟨a, b, c, d⟩ => ⟨a, b, c, d⟩⟩

theorem IsPlain.placeOf {path : String} (h : IsPlain path) (directory : List (List Char)) :
    placeOf directory path = directory ++ Text.split '/' path.toList := by
  rw [Site.placeOf, if_neg h.relative, follow_of_isName h.named]

/-! The paths of pages -/

theorem isName_of_isSegment {segment : List Char} (h : Slug.isSegment segment = true) :
    IsName segment := by
  simp only [Slug.isSegment, Bool.and_eq_true, decide_eq_true_eq] at h
  refine ⟨?_, h.1.1⟩
  rintro rfl
  exact absurd h.1.2 (by decide)

theorem isName_append_extension (name : List Char) : IsName (name ++ ".tsx".toList) := by
  have long : 4 ≤ (name ++ ".tsx".toList).length := by
    rw [List.length_append]
    exact Nat.le_add_left 4 _
  refine ⟨?_, ?_, ?_⟩ <;>
    · intro short
      rw [short] at long
      exact absurd long (by decide)

theorem isSegment_of_mem_pathStem {slug : String} (valid : Slug.isValid slug = true) :
    ∀ segment ∈ Text.split '/' (pathStem slug), Slug.isSegment segment = true := by
  rw [pathStem]
  split
  · decide
  · next ne =>
    rw [Slug.isValid, decide_eq_false ne, Bool.false_or] at valid
    split at valid
    · next rest written =>
      rw [written]
      exact List.all_eq_true.mp valid
    · cases valid

def isPathChar (c : Char) : Bool := Slug.isSegmentChar c || c = '/' || c = '\n'

theorem isPathChar_of_mem_pagePath {slug : String} (valid : Slug.isValid slug = true) :
    ∀ c ∈ (pagePath slug).toList, isPathChar c = true := by
  rw [toList_pagePath valid]
  have before : ∀ c ∈ "pages/".toList, isPathChar c = true := List.all_eq_true.mp (by decide)
  have after : ∀ c ∈ ".tsx".toList, isPathChar c = true := List.all_eq_true.mp (by decide)
  refine List.forall_mem_append.mpr ⟨List.forall_mem_append.mpr ⟨before, ?_⟩, after⟩
  intro c there
  by_cases slash : c = '/'
  · rw [slash]
    rfl
  · obtain ⟨segment, among, within⟩ := Text.exists_mem_split there slash
    have good := Slug.mem_of_isSegment (isSegment_of_mem_pathStem valid segment among) within
    simp only [isPathChar, Bool.or_eq_true, decide_eq_true_eq]
    exact good.elim (.inl ∘ .inl) .inr

theorem isPlain_pagePath {slug : String} (valid : Slug.isValid slug = true) :
    IsPlain (pagePath slug) := by
  have written := toList_pagePath valid
  have chars := isPathChar_of_mem_pagePath valid
  refine ⟨?_, ?_, fun there => ?_, fun there => ?_⟩
  · rw [written]
    exact fun rooted => absurd (List.cons_prefix_cons.mp rooted).1 (by decide)
  · have first : '/' ∉ "pages".toList := by decide
    have pieces : Text.split '/' (pagePath slug).toList =
        "pages".toList :: Text.split '/' (pathStem slug ++ ".tsx".toList) := by
      rw [written, List.append_assoc]
      exact Text.split_append first _
    have single : '/' ∉ ".tsx".toList := by decide
    obtain ⟨init, last, stem, whole⟩ := Text.split_append_of_not_mem (pathStem slug) single
    have segments := isSegment_of_mem_pathStem valid
    rw [stem, List.forall_mem_append] at segments
    rw [pieces, whole, List.forall_mem_cons, List.forall_mem_append, List.forall_mem_singleton]
    exact ⟨by decide, fun step there => isName_of_isSegment (segments.1 step there),
      isName_append_extension last⟩
  · exact absurd (chars _ there) (by decide)
  · exact absurd (chars _ there) (by decide)

theorem isPlain_of_mem_fixedPaths : ∀ path ∈ fixedPaths, IsPlain path := by decide

/-! The files of a site -/

theorem isPlain_of_mem_files [Machine] {project : Project} {files : Fields String}
    (made : generate project = .ok files) : ∀ path ∈ files.map Prod.fst, IsPlain path := by
  obtain ⟨⟨warnings, valid⟩, paths⟩ := paths_of_generate made
  rw [paths, List.forall_mem_append]
  refine ⟨fun path there => ?_, isPlain_of_mem_fixedPaths⟩
  obtain ⟨page, among, rfl⟩ := List.mem_map.mp there
  exact isPlain_pagePath ((Project.of_checkPages valid).2 page among).2

theorem ofFile_of_isPlain {path : String} (h : IsPlain path) (text : String) :
    ArchiveEntry.ofFile path text = ⟨path, Text.Utf8.encode text⟩ := by
  have kept : path.toList.takeWhile (· ≠ '\x00') = path.toList := by
    rw [List.takeWhile_eq_self_iff]
    intro c within
    rw [decide_eq_true_eq]
    rintro rfl
    exact h.unended within
  rw [ArchiveEntry.ofFile, kept, String.ofList_toList]

theorem path_archive {files : Fields String} (h : ∀ file ∈ files, IsPlain file.1) :
    ((archive files).map ArchiveEntry.path).Perm (files.map Prod.fst) := by
  have whole : ∀ file ∈ files, (ArchiveEntry.ofFile file.1 file.2).path = file.1 := by
    intro file there
    rw [ofFile_of_isPlain (h file there)]
  rw [archive, List.map_map, ← List.map_congr_left whole]
  exact (List.mergeSort_perm files _).map _

/-- The path of every file of a site is plain, and that of a page is one below `pages` with the
extension of pages. From whatever directory it is followed, it leads below that directory. An
archive has the same paths. -/
theorem isPlain_of_generate [Machine] {project : Project} {files : Fields String}
    (made : generate project = .ok files) :
    (∀ file ∈ files, IsPlain file.1 ∧ ∀ directory,
      placeOf directory file.1 = directory ++ Text.split '/' file.1.toList) ∧
    (∀ page ∈ project.pages, pagePath page.slug ∈ files.map Prod.fst ∧
      "pages/".toList <+: (pagePath page.slug).toList ∧
      ".tsx".toList <:+ (pagePath page.slug).toList) ∧
    ((archive files).map ArchiveEntry.path).Perm (files.map Prod.fst) := by
  have plain : ∀ file ∈ files, IsPlain file.1 :=
    fun file there => isPlain_of_mem_files made file.1 (List.mem_map_of_mem there)
  refine ⟨fun file there => ⟨plain file there, (plain file there).placeOf⟩, fun page there => ?_,
    path_archive plain⟩
  obtain ⟨⟨warnings, valid⟩, paths⟩ := paths_of_generate made
  refine ⟨?_, ?_⟩
  · rw [paths]
    exact List.mem_append_left _ (List.mem_map.mpr ⟨page, there, rfl⟩)
  · rw [toList_pagePath ((Project.of_checkPages valid).2 page there).2]
    exact ⟨⟨_, (List.append_assoc _ _ _).symm⟩, List.suffix_append _ _⟩

/-- Segments that would lead up if they did not end in a line break. -/
def climbing : Project where
  id := "p1"
  name := "Climbing"
  pages := [⟨"g1", "Up", "/..\n/.\n/x", [{ id := "b1", type := "Body" }], []⟩]

theorem isPlain_of_generate_climbing : ∃ files, generate climbing = .ok files ∧
    (∀ file ∈ files, IsPlain file.1) ∧
    placeOf ["srv".toList] (pagePath "/..\n/.\n/x") =
      ["srv".toList, "pages".toList, "..\n".toList, ".\n".toList, "x.tsx".toList] := by
  have made : (generate climbing).isOk = true := by decide +kernel
  cases found : generate climbing with
  | error error =>
    rw [found] at made
    cases made
  | ok files =>
    obtain ⟨plain, pages, -⟩ := isPlain_of_generate found
    refine ⟨files, rfl, fun file there => (plain file there).1, ?_⟩
    obtain ⟨file, there, path⟩ := List.mem_map.mp (pages _ List.mem_cons_self).1
    rw [← path, (plain file there).2, path]
    decide +kernel

/-! Files in the place of directories -/

/-- The file of a path stands where a directory on the way to another path would have to be. -/
def Blocks (path other : String) : Prop := path.toList ++ ['/'] <+: other.toList

instance (path other : String) : Decidable (Blocks path other) :=
  inferInstanceAs (Decidable (_ <+: _))

end Site

/-- A slug goes on below the name of the file of another one. -/
def Slug.IsBelow (slug other : String) : Prop :=
  ((if other = home then "/index" else other) ++ ".tsx/").toList <+: slug.toList

instance (slug other : String) : Decidable (Slug.IsBelow slug other) :=
  inferInstanceAs (Decidable (_ <+: _))

namespace Project

def fileSlugs (project : Project) : List String :=
  "/_app" :: "/_document" :: project.pages.map Page.slug

def Nests (project : Project) : Prop :=
  ∃ page ∈ project.pages, ∃ slug ∈ project.fileSlugs, Slug.IsBelow page.slug slug

instance (project : Project) : Decidable project.Nests :=
  inferInstanceAs (Decidable (∃ page ∈ project.pages, _))

theorem mem_fileSlugs (project : Project) {page : Page} (h : page ∈ project.pages) :
    page.slug ∈ project.fileSlugs :=
  List.mem_cons_of_mem _ (List.mem_cons_of_mem _ (List.mem_map_of_mem h))

theorem isValid_of_mem_fileSlugs {project : Project} {warnings : List String}
    (valid : project.check = .ok warnings) :
    ∀ slug ∈ project.fileSlugs, Slug.isValid slug = true := by
  refine List.forall_mem_cons.mpr ⟨by decide, List.forall_mem_cons.mpr ⟨by decide, ?_⟩⟩
  intro slug there
  obtain ⟨page, among, rfl⟩ := List.mem_map.mp there
  exact ((of_checkPages valid).2 page among).2

end Project

namespace Site

theorem concat_prefix_append_iff {α : Type} {x : α} {xs ys tail : List α} (h : x ∉ tail) :
    xs ++ [x] <+: ys ++ tail ↔ xs ++ [x] <+: ys := by
  refine ⟨?_, fun within => within.trans (List.prefix_append ys tail)⟩
  rintro ⟨rest, same⟩
  obtain ⟨more, rfl, -⟩ | ⟨excess, early, rfl⟩ := List.append_eq_append_iff.mp same
  · exact List.prefix_append _ more
  · rcases List.eq_nil_or_concat excess with rfl | ⟨init, last, rfl⟩
    · have all : xs ++ [x] = ys := early.trans (List.append_nil ys)
      exact all ▸ List.prefix_refl (xs ++ [x])
    · rw [List.concat_eq_append, ← List.append_assoc] at early
      obtain rfl := (List.append_singleton_inj.mp early).2
      simp at h

theorem toList_of_isValid {slug : String} (valid : Slug.isValid slug = true) :
    (if slug = Slug.home then "/index" else slug).toList = '/' :: pathStem slug := by
  rw [pathStem]
  split
  · rfl
  · next ne =>
    obtain ⟨c, rest, written, -⟩ := Slug.exists_toList_of_isValid valid ne
    rw [written, List.tail_cons]

theorem blocks_pagePath_iff {a b : String} (ha : Slug.isValid a = true)
    (hb : Slug.isValid b = true) : Blocks (pagePath a) (pagePath b) ↔ Slug.IsBelow b a := by
  have single : '/' ∉ ".tsx".toList := by decide
  have stems : Blocks (pagePath a) (pagePath b) ↔
      pathStem a ++ ".tsx".toList ++ ['/'] <+: pathStem b := by
    rw [Blocks, toList_pagePath ha, toList_pagePath hb, List.append_assoc, List.append_assoc,
      List.append_assoc "pages/".toList, List.prefix_append_right_inj, ← List.append_assoc,
      concat_prefix_append_iff single]
  rw [stems, Slug.IsBelow, String.toList_append, toList_of_isValid ha]
  by_cases home : b = Slug.home
  · refine iff_of_false (fun within => ?_) (fun within => ?_)
    · have stem : pathStem b = "index".toList := if_pos home
      rw [stem] at within
      exact absurd (within.subset (List.mem_append_right _ List.mem_cons_self)) (by decide)
    · have short := within.length_le
      rw [home, List.length_append] at short
      exact absurd ((Nat.le_add_left _ _).trans short) (by decide)
  · have written := toList_of_isValid hb
    rw [if_neg home] at written
    rw [written, List.cons_append, List.prefix_cons_inj, List.append_assoc]
    rfl

theorem not_blocks_fixedPaths : ∀ path ∈ fixedPaths, ∀ other ∈ fixedPaths, ¬Blocks path other := by
  decide

theorem not_blocks_of_mem_fixedPaths {slug path : String} (valid : Slug.isValid slug = true)
    (fixed : path ∈ fixedPaths) : ¬Blocks (pagePath slug) path := by
  rintro ⟨rest, same⟩
  rw [toList_pagePath valid, List.append_assoc, List.append_assoc, List.append_assoc] at same
  have flat : ∀ path ∈ fixedPaths, '/' ∈ path.toList.drop 6 →
      path.toList.take 6 ≠ "pages/".toList := by decide
  have six : "pages/".toList.length = 6 := rfl
  refine flat path fixed ?_ ?_
  · rw [← same, List.drop_left' six]
    simp
  · rw [← same, List.take_left' six]

theorem mem_reservedPaths_of_blocks {slug path : String} (valid : Slug.isValid slug = true)
    (fixed : path ∈ fixedPaths) (blocks : Blocks path (pagePath slug)) : path ∈ reservedPaths := by
  have pages : "pages/".toList <+: (pagePath slug).toList := by
    rw [toList_pagePath valid, List.append_assoc]
    exact List.prefix_append _ _
  have others : ∀ path ∈ fixedPaths, path.toList ++ ['/'] <+: "pages/".toList ∨
      "pages/".toList <+: path.toList ++ ['/'] → path ∈ reservedPaths := by decide
  exact others path fixed (List.prefix_or_prefix_of_prefix blocks pages)

theorem mem_paths [Machine] {project : Project} {files : Fields String}
    (made : generate project = .ok files) {path : String} :
    path ∈ files.map Prod.fst ↔
      (∃ slug ∈ project.fileSlugs, pagePath slug = path) ∨ path ∈ fixedPaths := by
  have app : pagePath "/_app" ∈ fixedPaths := by decide
  have document : pagePath "/_document" ∈ fixedPaths := by decide
  rw [(paths_of_generate made).2, List.mem_append]
  constructor
  · refine Or.imp_left fun there => ?_
    obtain ⟨page, among, rfl⟩ := List.mem_map.mp there
    exact ⟨page.slug, project.mem_fileSlugs among, rfl⟩
  · rintro (⟨slug, there, rfl⟩ | fixed)
    · rcases List.mem_cons.mp there with rfl | there
      · exact .inr app
      · rcases List.mem_cons.mp there with rfl | there
        · exact .inr document
        · obtain ⟨page, among, rfl⟩ := List.mem_map.mp there
          exact .inl (List.mem_map.mpr ⟨page, among, rfl⟩)
    · exact .inr fixed

theorem exists_of_mem_reservedPaths (project : Project) :
    ∀ path ∈ reservedPaths, ∃ slug ∈ project.fileSlugs, pagePath slug = path := by
  have paths : reservedPaths = [pagePath "/_app", pagePath "/_document"] := by decide
  rw [paths]
  simp [Project.fileSlugs]

theorem blocks_iff_isBelow [Machine] {project : Project} {files : Fields String}
    (made : generate project = .ok files) {path other : String}
    (hPath : path ∈ files.map Prod.fst) (hOther : other ∈ files.map Prod.fst) :
    Blocks path other ↔ ∃ page ∈ project.pages, ∃ slug ∈ project.fileSlugs,
      pagePath slug = path ∧ pagePath page.slug = other ∧ Slug.IsBelow page.slug slug := by
  obtain ⟨⟨warnings, valid⟩, paths⟩ := paths_of_generate made
  have slugs := Project.isValid_of_mem_fileSlugs valid
  constructor
  · intro blocks
    rw [paths, List.mem_append] at hOther
    have upper : ∃ slug ∈ project.fileSlugs, pagePath slug = path := by
      refine ((mem_paths made).mp hPath).elim id fun fixed => ?_
      refine exists_of_mem_reservedPaths project path ?_
      rcases hOther with lower | lower
      · obtain ⟨page, there, rfl⟩ := List.mem_map.mp lower
        exact mem_reservedPaths_of_blocks (slugs _ (project.mem_fileSlugs there)) fixed blocks
      · exact absurd blocks (not_blocks_fixedPaths path fixed other lower)
    obtain ⟨slug, among, rfl⟩ := upper
    rcases hOther with lower | lower
    · obtain ⟨page, there, rfl⟩ := List.mem_map.mp lower
      have below := slugs _ (project.mem_fileSlugs there)
      exact ⟨page, there, slug, among, rfl, rfl,
        (blocks_pagePath_iff (slugs slug among) below).mp blocks⟩
    · exact absurd blocks (not_blocks_of_mem_fixedPaths (slugs slug among) lower)
  · rintro ⟨page, there, slug, among, rfl, rfl, below⟩
    exact (blocks_pagePath_iff (slugs slug among) (slugs _ (project.mem_fileSlugs there))).mpr below

/-- In a generated site a file stands where a directory of another one would have to be exactly if
the slug of a page goes on below the name of a file among the pages. Any other site can be
unpacked. -/
theorem blocks_iff_nests [Machine] {project : Project} {files : Fields String}
    (made : generate project = .ok files) :
    (∀ path ∈ files.map Prod.fst, ∀ other ∈ files.map Prod.fst, Blocks path other ↔
      ∃ page ∈ project.pages, ∃ slug ∈ project.fileSlugs,
        pagePath slug = path ∧ pagePath page.slug = other ∧ Slug.IsBelow page.slug slug) ∧
    ((∃ path ∈ files.map Prod.fst, ∃ other ∈ files.map Prod.fst, Blocks path other) ↔
      project.Nests) := by
  refine ⟨fun path hPath other hOther => blocks_iff_isBelow made hPath hOther, ?_, ?_⟩
  · rintro ⟨path, hPath, other, hOther, blocks⟩
    obtain ⟨page, there, slug, among, -, -, below⟩ :=
      (blocks_iff_isBelow made hPath hOther).mp blocks
    exact ⟨page, there, slug, among, below⟩
  · rintro ⟨page, there, slug, among, below⟩
    have upper := (mem_paths made).mpr (.inl ⟨slug, among, rfl⟩)
    have lower := (mem_paths made).mpr (.inl ⟨page.slug, project.mem_fileSlugs there, rfl⟩)
    exact ⟨pagePath slug, upper, pagePath page.slug, lower,
      (blocks_iff_isBelow made upper lower).mpr ⟨page, there, slug, among, rfl, rfl, below⟩⟩

def nested : Project where
  id := "p1"
  name := "Nested"
  pages := [
    ⟨"g1", "Upper", "/a", [{ id := "b1", type := "Body" }], []⟩,
    ⟨"g2", "Lower", "/a.tsx/b", [{ id := "b2", type := "Body" }], []⟩]

theorem blocks_iff_nests_nested : ∃ files, generate nested = .ok files ∧
    ∃ path ∈ files.map Prod.fst, ∃ other ∈ files.map Prod.fst, Blocks path other := by
  have made : (generate nested).isOk = true := by decide +kernel
  cases found : generate nested with
  | error error =>
    rw [found] at made
    cases made
  | ok files => exact ⟨files, rfl, (blocks_iff_nests found).2.mpr (by decide)⟩

end Site

end Sitewright
