import Mathlib.Data.List.Chain
import Sitewright.Proofs.Site.Files
import Sitewright.Proofs.Text.Split

namespace Sitewright

namespace Site

/-! The comment -/

/-- Nowhere in the text does a comment end. -/
def StaysOpen (cs : List Char) : Prop := cs.IsChain fun a b => ¬(a = '*' ∧ b = '/')

instance (cs : List Char) : Decidable (StaysOpen cs) :=
  inferInstanceAs (Decidable (cs.IsChain fun a b => ¬(a = '*' ∧ b = '/')))

theorem staysOpen_of_not_mem {cs : List Char} (h : '*' ∉ cs) : StaysOpen cs := by
  induction cs with
  | nil => exact .nil
  | cons c rest ih =>
    rw [List.mem_cons, not_or] at h
    exact List.isChain_cons.mpr ⟨fun _ _ ends => h.1 ends.1.symm, ih h.2⟩

theorem staysOpen_append {a b : List Char} (first : StaysOpen a) (second : StaysOpen b)
    (between : a.getLast? ≠ some '*' ∨ b.head? ≠ some '/') : StaysOpen (a ++ b) := by
  refine List.isChain_append.mpr ⟨first, second, fun c hc d hd ends => ?_⟩
  obtain ⟨rfl, rfl⟩ := ends
  exact between.elim (· hc) (· hd)

@[simp] theorem head?_openComments (cs : List Char) : (openComments cs).head? = cs.head? := by
  fun_cases openComments cs <;> rfl

theorem staysOpen_openComments (cs : List Char) : StaysOpen (openComments cs) := by
  fun_induction openComments cs with
  | case1 rest ih =>
    refine List.isChain_cons_cons.mpr ⟨by decide, List.isChain_cons_cons.mpr ⟨by decide, ?_⟩⟩
    exact List.isChain_cons.mpr ⟨fun _ _ ends => absurd ends.1 (by decide), ih⟩
  | case2 c rest other ih =>
    refine List.isChain_cons.mpr ⟨fun d hd => ?_, ih⟩
    rintro ⟨rfl, rfl⟩
    rw [head?_openComments] at hd
    obtain ⟨after, rfl⟩ := List.head?_eq_some_iff.mp hd
    exact other after rfl rfl
  | case3 => exact .nil

theorem not_mem_star_of_isValid {slug : String} (valid : Slug.isValid slug = true) :
    '*' ∉ slug.toList := by
  rcases Slug.isValid_iff.mp valid with rfl | ⟨segments, -, good, written⟩
  · decide
  · rw [written]
    intro there
    obtain ⟨segment, mem, within⟩ := List.mem_flatMap.mp there
    rcases List.mem_cons.mp within with slash | within
    · cases slash
    · exact absurd (Slug.mem_of_isSegment (good segment mem) within) (by decide)

theorem staysOpen_pageTitle {page : Page} (valid : Slug.isValid page.slug = true) :
    StaysOpen (pageTitle page).toList := by
  rw [pageTitle]
  split
  · exact staysOpen_of_not_mem (not_mem_star_of_isValid valid)
  · rw [String.toList_ofList]
    exact staysOpen_openComments _

/-- The mark stands between the two parts of the text and nowhere before that. -/
structure IsFirst (mark before after text : List Char) : Prop where
  there : text = before ++ mark ++ after
  first : ∀ earlier, earlier ++ mark <+: text → before.length ≤ earlier.length

theorem isFirst_of_staysOpen {before : List Char} (h : StaysOpen (before ++ ['*']))
    (after : List Char) :
    IsFirst ['*', '/'] before after (before ++ ['*', '/'] ++ after) := by
  refine ⟨rfl, fun earlier leads => ?_⟩
  by_contra short
  -- An earlier mark would be complete before the slash of this one.
  have start : before ++ ['*'] <+: before ++ ['*', '/'] ++ after := ⟨'/' :: after, by simp⟩
  have within : earlier ++ ['*', '/'] <+: before ++ ['*'] :=
    List.prefix_of_prefix_length_le leads start (by simp; omega)
  have before := List.IsChain.prefix h within
  have ends := (List.isChain_append.mp before).2.1
  exact absurd ends (by simp)

def headComment (title : String) : String :=
  "/**\n * " ++ title ++ "\n * Auto-generated from website builder\n "

theorem staysOpen_headComment {page : Page} (valid : Slug.isValid page.slug = true) :
    StaysOpen ((headComment (pageTitle page)).toList ++ ['*']) := by
  have opening : StaysOpen "/**\n * ".toList := by decide +kernel
  have closing : StaysOpen ("\n * Auto-generated from website builder\n ".toList ++ ['*']) := by
    decide +kernel
  have titled := staysOpen_append (staysOpen_pageTitle valid) closing (.inr (by decide +kernel))
  have whole := staysOpen_append opening titled (.inl (by decide +kernel))
  rw [headComment, String.toList_append, String.toList_append, List.append_assoc, List.append_assoc]
  exact whole

/-! The name of the component -/

theorem isAlphanum_eq (c : Char) : c.isAlphanum = (c.isUpper || c.isLower || c.isDigit) := rfl

theorem isAsciiAlphanumeric_iff {c : Char} :
    isAsciiAlphanumeric c = true ↔ c.isAlphanum = true := by
  have upper : c.isUpper = decide ('A' ≤ c ∧ c ≤ 'Z') := rfl
  have lower : c.isLower = ('a' ≤ c && c ≤ 'z') := rfl
  have digit : c.isDigit = ('0' ≤ c && c ≤ '9') := rfl
  simp [isAsciiAlphanumeric, isLowerOrDigit, isAlphanum_eq, upper, lower, digit, or_comm,
    or_left_comm]

/-- A capital, letters and digits, and what the thing is. -/
def IsComponentName (name : List Char) : Prop :=
  ∃ first middle, name = first :: middle ++ "Page".toList ∧ first.isUpper = true ∧
    ∀ c ∈ middle, c.isAlphanum = true

theorem isUpper_or_isDigit_toUpper {c : Char} (h : c.isAlphanum = true) :
    c.toUpper.isUpper = true ∨ c.toUpper.isDigit = true := by
  have upper (d : Char) : d.isUpper = decide (d.val ≥ 'A'.val ∧ d.val ≤ 'Z'.val) := rfl
  have lower : c.isLower = (decide (c.val ≥ 'a'.val) && decide (c.val ≤ 'z'.val)) := rfl
  unfold Char.toUpper
  split
  · next small =>
    simp only [UInt32.le_iff_toNat_le] at small
    refine .inl ?_
    simp only [upper, decide_eq_true_eq, ge_iff_le, UInt32.le_iff_toNat_le, UInt32.toNat_add]
    simp at small ⊢
    omega
  · next other =>
    have other : c.isLower = false := by simpa [lower] using other
    simpa [isAlphanum_eq, other] using h

theorem exists_upperFirst {name word : List Char}
    (h : word ∈ Text.words isAsciiAlphanumeric name) :
    ∃ c rest, upperFirst word = c :: rest ∧ (c.isUpper = true ∨ c.isDigit = true) ∧
      ∀ d ∈ c :: rest, d.isAlphanum = true := by
  obtain ⟨some, good⟩ := Text.of_mem_words h
  obtain ⟨c, rest, rfl⟩ := List.exists_cons_of_ne_nil some
  obtain ⟨first, others⟩ := List.forall_mem_cons.mp good
  have leads := isUpper_or_isDigit_toUpper (isAsciiAlphanumeric_iff.mp first)
  have kept : c.toUpper.isAlphanum = true := by
    rcases leads with upper | digit
    · simp [isAlphanum_eq, upper]
    · simp [isAlphanum_eq, digit]
  exact ⟨c.toUpper, rest, rfl, leads, List.forall_mem_cons.mpr
    ⟨kept, fun d mem => isAsciiAlphanumeric_iff.mp (others d mem)⟩⟩

theorem of_capitalized (name : List Char) :
    (∀ c ∈ (Text.words isAsciiAlphanumeric name).flatMap upperFirst, c.isAlphanum = true) ∧
      ∀ c ∈ ((Text.words isAsciiAlphanumeric name).flatMap upperFirst).head?,
        c.isUpper = true ∨ c.isDigit = true := by
  constructor
  · intro c mem
    obtain ⟨word, there, within⟩ := List.mem_flatMap.mp mem
    obtain ⟨first, rest, written, -, good⟩ := exists_upperFirst there
    exact good c (written ▸ within)
  · intro c leads
    cases found : Text.words isAsciiAlphanumeric name with
    | nil => simp [found] at leads
    | cons word others =>
      obtain ⟨first, rest, written, capital, -⟩ := exists_upperFirst (found ▸ List.mem_cons_self)
      rw [found, List.flatMap_cons, written] at leads
      cases leads
      exact capital

theorem isComponentName_componentName (name : String) :
    IsComponentName (componentName name).toList := by
  obtain ⟨good, leads⟩ := of_capitalized name.toList
  rw [componentName, String.toList_ofList]
  generalize (Text.words isAsciiAlphanumeric name.toList).flatMap upperFirst = base at *
  cases base with
  | nil => exact ⟨'U', "ntitled".toList, rfl, by decide, List.all_eq_true.mp (by decide)⟩
  | cons first rest =>
    obtain ⟨_, others⟩ := List.forall_mem_cons.mp good
    cases digit : first.isDigit with
    | true =>
      refine ⟨'P', "age".toList ++ first :: rest, by simp [digit], by decide, ?_⟩
      have page : "age".toList.all Char.isAlphanum = true := by decide
      exact List.forall_mem_append.mpr ⟨List.all_eq_true.mp page, good⟩
    | false =>
      refine ⟨first, rest, by simp [digit], ?_, others⟩
      exact (leads first rfl).resolve_right (by simp [digit])

/-! The source -/

def exportLine (name : String) : String :=
  "\n\nexport default function " ++ name ++ "() \x7b\n"

theorem toList_headed (title name first : String) (others : List String) :
    (fileOfLines (
      "/**" ::
      (" * " ++ title) ::
      " * Auto-generated from website builder" ::
      " */" ::
      "" ::
      ("export default function " ++ name ++ "() \x7b") ::
      first :: others)).toList =
      (headComment title).toList ++ ['*', '/'] ++
        ((exportLine name).toList ++ (fileOfLines (first :: others)).toList) := by
  unfold fileOfLines headComment exportLine
  simp [Text.join]

/-- The comment at the head of a page's source ends after the line that the template puts last in
it, and the component after it has a name that can be exported. -/
structure IsHeaded (page : Page) (source : String) : Prop where
  comment : ∃ rest, IsFirst ['*', '/'] (headComment (pageTitle page)).toList
    ((exportLine (componentName page.name)).toList ++ rest) source.toList
  named : IsComponentName (componentName page.name).toList

theorem isHeaded_of_pageSource {page : Page} {source : String}
    (valid : Slug.isValid page.slug = true) (h : pageSource page = .ok source) :
    IsHeaded page source := by
  rw [pageSource] at h
  obtain ⟨body, -, h⟩ := bind_eq_ok.mp h
  refine ⟨?_, isComponentName_componentName page.name⟩
  rw [← Except.ok.inj h, toList_headed]
  exact ⟨_, isFirst_of_staysOpen (staysOpen_headComment valid) _⟩

theorem exists_isFileOf {pages : List Page} {files : Fields String}
    (h : List.Forall₂ IsFileOf pages files) {page : Page} (there : page ∈ pages) :
    ∃ file ∈ files, IsFileOf page file := by
  induction h with
  | nil => cases there
  | cons first _ ih =>
    rcases List.mem_cons.mp there with rfl | later
    · exact ⟨_, List.mem_cons_self, first⟩
    · obtain ⟨file, mem, fits⟩ := ih later
      exact ⟨file, List.mem_cons_of_mem _ mem, fits⟩

theorem exists_file_of_generate [Machine] {project : Project} {files : Fields String}
    (made : generate project = .ok files) {page : Page} (there : page ∈ project.pages) :
    ∃ source, (pagePath page.slug, source) ∈ files ∧ pageSource page = .ok source := by
  obtain ⟨warnings, valid, -⟩ := bind_eq_ok.mp made
  obtain ⟨pages, written, -, rfl⟩ := (generate_eq_ok valid).mp made
  obtain ⟨⟨path, source⟩, mem, fits⟩ := exists_isFileOf (isFileOf_of_pageFiles written) there
  obtain rfl : path = pagePath page.slug := fits.path
  exact ⟨source, List.mem_append_left _ (List.mem_append_left _ mem), fits.source⟩

/-- Each page of a generated site has a file with its source, and whatever the page is called, the
comment at the head of that ends where it is meant to, and the component can be exported. -/
theorem isHeaded_of_generate [Machine] {project : Project} {files : Fields String}
    (made : generate project = .ok files) :
    ∀ page ∈ project.pages, ∃ source, (pagePath page.slug, source) ∈ files ∧
      pageSource page = .ok source ∧ IsHeaded page source := by
  intro page there
  obtain ⟨⟨_, checked⟩, -⟩ := paths_of_generate made
  have valid := ((Project.of_checkPages checked).2 page there).2
  obtain ⟨source, mem, written⟩ := exists_file_of_generate made there
  exact ⟨source, mem, written, isHeaded_of_pageSource valid written⟩

/-- Pages whose names would end the comment at the head of their source, or name no component. -/
def scrawls : Project where
  id := "p1"
  name := "Scrawls"
  pages := [
    ⟨"g1", "**//*/alert(1)/**", "/", [{ id := "b1", type := "Body" }], []⟩,
    ⟨"g2", "", "/2-by-2", [{ id := "b2", type := "Body" }], []⟩,
    ⟨"g3", "4*/3", "/ratio", [{ id := "b3", type := "Body" }], []⟩]

theorem isHeaded_of_generate_scrawls :
    ∃ files, generate scrawls = .ok files ∧ ∀ page ∈ scrawls.pages, ∃ source,
      (pagePath page.slug, source) ∈ files ∧ pageSource page = .ok source ∧
      IsHeaded page source := by
  cases made : generate scrawls with
  | ok files => exact ⟨files, rfl, isHeaded_of_generate made⟩
  | error error =>
    have succeeds : (generate scrawls).isOk = true := by decide +kernel
    rw [made] at succeeds
    cases succeeds

example : scrawls.pages.map pageTitle = ["** //* /alert(1)/**", "/2-by-2", "4* /3"] ∧
    (scrawls.pages.map fun page => componentName page.name) =
      ["Alert1Page", "UntitledPage", "Page43Page"] := by
  decide

end Site

end Sitewright
