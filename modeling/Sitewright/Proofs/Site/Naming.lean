import Sitewright.Proofs.Text.Split
import Sitewright.Site.Naming

namespace Sitewright.Site

open Text (split joinWith)

/-! Characters -/

/-- A printed character of ASCII that does not separate the parts of a path. -/
structure IsHarmless (c : Char) : Prop where
  printed : 0x20 < c.toNat ∧ c.toNat < 0x7F
  notBlank : Text.isBlank c = false
  notSeparator : c ≠ '/' ∧ c ≠ '\\'

theorem toNat_lt_of_isFileNameChar {c : Char} (h : isFileNameChar c = true) : c.toNat < 128 := by
  simp only [isFileNameChar, isLowerOrDigit, Bool.or_eq_true, Bool.and_eq_true,
    decide_eq_true_eq] at h
  rcases h with (((⟨-, small⟩ | ⟨-, small⟩) | rfl) | rfl) | rfl
  · exact Nat.lt_of_le_of_lt (UInt32.le_iff_toNat_le.mp small) (by decide)
  · exact Nat.lt_of_le_of_lt (UInt32.le_iff_toNat_le.mp small) (by decide)
  all_goals decide

/-- There are few enough of them to look at each one. -/
theorem of_isFileNameChar {c : Char} (h : isFileNameChar c = true) :
    IsHarmless c ∧ c.toLower = c := by
  have each : ∀ n < 128, isFileNameChar (Char.ofNat n) = true →
      (0x20 < n ∧ n < 0x7F) ∧ Text.isBlank (Char.ofNat n) = false ∧
        (Char.ofNat n).toLower = Char.ofNat n := by decide
  obtain ⟨printed, notBlank, lower⟩ :=
    each c.toNat (toNat_lt_of_isFileNameChar h) (by rwa [Char.ofNat_toNat])
  rw [Char.ofNat_toNat] at notBlank lower
  refine ⟨⟨printed, notBlank, ?_, ?_⟩, lower⟩
  · rintro rfl
    cases h
  · rintro rfl
    cases h

theorem lowerAfter_of_isFileNameChar {cs : List Char} (h : ∀ c ∈ cs, isFileNameChar c = true)
    (before : List Char) : Text.lowerAfter before cs = cs := by
  induction cs generalizing before with
  | nil => rfl
  | cons c rest ih =>
    obtain ⟨hc, h⟩ := List.forall_mem_cons.mp h
    have dotted : c ≠ '\u0130' := by
      rintro rfl
      cases hc
    have sigma : c ≠ 'Σ' := by
      rintro rfl
      cases hc
    rw [Text.lowerAfter, ih h, if_neg dotted, if_neg sigma, Text.lowerChar,
      if_pos (toNat_lt_of_isFileNameChar hc), (of_isFileNameChar hc).2]
    rfl

/-! Letters and digits -/

def letters (name : String) : List Char := (Text.lower name).toList.filter isLowerOrDigit

def lettersOf (c : Char) : List Char :=
  if c = '\u0130' then ['i'] else if c = 'Σ' then [] else [Text.lowerChar c].filter isLowerOrDigit

/-- The two forms of the small sigma depend on where it stands, and neither counts. -/
theorem filter_lowerAfter (before cs : List Char) :
    (Text.lowerAfter before cs).filter isLowerOrDigit = cs.flatMap lettersOf := by
  induction cs generalizing before with
  | nil => rfl
  | cons c rest ih =>
    rw [Text.lowerAfter, List.filter_append, ih, List.flatMap_cons, lettersOf]
    congr 1
    split
    · rfl
    split
    · split <;> rfl
    · rfl

theorem letters_eq (name : String) : letters name = name.toList.flatMap lettersOf := by
  rw [letters, Text.lower, String.toList_ofList, filter_lowerAfter]

theorem lettersOf_of_isBlank {c : Char} (h : Text.isBlank c = true) : lettersOf c = [] := by
  have each : ∀ n ∈ Text.blankRanges.flatMap fun r => List.range' r.1 (r.2 - r.1 + 1),
      lettersOf (Char.ofNat n) = [] := by decide +kernel
  obtain ⟨r, among, first, last⟩ := Text.inRanges_iff.mp h
  rw [← Char.ofNat_toNat c]
  apply each
  rw [List.mem_flatMap]
  exact ⟨r, among, List.mem_range'_1.mpr (by omega)⟩

@[simp] theorem letters_dashed (name : String) :
    letters (String.ofList (joinWith '-' (Text.words (!Text.isBlank ·) name.toList))) =
      letters name := by
  have blank : ∀ cs : List Char,
      (cs.filter (!Text.isBlank ·)).flatMap lettersOf = cs.flatMap lettersOf := by
    intro cs
    induction cs with
    | nil => rfl
    | cons c rest ih =>
      cases hc : Text.isBlank c with
      | true => simp [hc, ih, lettersOf_of_isBlank hc]
      | false => simp [hc, ih]
  rw [letters_eq, letters_eq, String.toList_ofList, Text.flatMap_joinWith (by decide),
    Text.words_flatten, blank]

/-! The name of the package -/

/-- Small letters, digits and dashes, with no dash at either end and no two of them together. -/
structure IsPackageName (cs : List Char) : Prop where
  notEmpty : cs ≠ []
  chars : ∀ c ∈ cs, isLowerOrDigit c = true ∨ c = '-'
  first : cs.head? ≠ some '-'
  last : cs.getLast? ≠ some '-'
  apart : ¬['-', '-'] <:+: cs

@[simp] theorem not_isLowerOrDigit_dash : isLowerOrDigit '-' = false := by decide

/-- A dash at an end, and a dash next to another one, leave an empty piece. -/
theorem isPackageName_of_split {cs : List Char}
    (h : ∀ piece ∈ split '-' cs, piece ≠ [] ∧ ∀ c ∈ piece, isLowerOrDigit c = true) :
    IsPackageName cs := by
  have full : [] ∉ split '-' cs := fun there => (h [] there).1 rfl
  constructor
  case notEmpty =>
    rintro rfl
    exact full List.mem_cons_self
  case chars =>
    intro c there
    by_cases dash : c = '-'
    · exact .inr dash
    · obtain ⟨piece, among, within⟩ := Text.exists_mem_split there dash
      exact .inl ((h piece among).2 c within)
  case first =>
    intro dash
    obtain ⟨rest, rfl⟩ := List.head?_eq_some_iff.mp dash
    exact full List.mem_cons_self
  case last =>
    intro dash
    obtain ⟨before, rfl⟩ := List.getLast?_eq_some_iff.mp dash
    rw [Text.split_append_cons] at full
    exact full (List.mem_append_right _ List.mem_cons_self)
  case apart =>
    rintro ⟨before, after, rfl⟩
    rw [List.append_assoc, List.cons_append, Text.split_append_cons] at full
    exact full (List.mem_append_right _ List.mem_cons_self)

/-- What a package is called that its project gives no letter and no digit. -/
def lettersOrSite (name : String) : List Char :=
  if letters name = [] then "site".toList else letters name

theorem exists_pieces (name : String) :
    ∃ pieces : List (List Char), pieces ≠ [] ∧
      (∀ piece ∈ pieces, piece ≠ [] ∧ ∀ c ∈ piece, isLowerOrDigit c = true) ∧
      pieces.flatten = lettersOrSite name ∧
      packageName name = String.ofList (joinWith '-' pieces) := by
  have whole := Text.words_flatten isLowerOrDigit (Text.lower name).toList
  have words := @Text.of_mem_words isLowerOrDigit (Text.lower name).toList
  rw [packageName, lettersOrSite, letters, ← whole]
  generalize Text.words isLowerOrDigit (Text.lower name).toList = found at *
  cases found with
  | nil =>
    have site : ∀ c ∈ "site".toList, isLowerOrDigit c = true := List.all_eq_true.mp rfl
    exact ⟨["site".toList], List.cons_ne_nil _ _,
      List.forall_mem_singleton.mpr ⟨List.cons_ne_nil _ _, site⟩, rfl, rfl⟩
  | cons first rest =>
    refine ⟨first :: rest, List.cons_ne_nil _ _, fun _ => words, (if_neg fun empty => ?_).symm, rfl⟩
    exact (words List.mem_cons_self).1 (List.append_eq_nil_iff.mp empty).1

theorem isPackageName_packageName (name : String) : IsPackageName (packageName name).toList := by
  obtain ⟨pieces, some, words, -, same⟩ := exists_pieces name
  have free : ∀ piece ∈ pieces, '-' ∉ piece := fun piece among dash =>
    Bool.false_ne_true (not_isLowerOrDigit_dash.symm.trans ((words piece among).2 '-' dash))
  apply isPackageName_of_split
  rw [same, String.toList_ofList, Text.split_joinWith some free]
  exact words

theorem filter_packageName (name : String) :
    (packageName name).toList.filter isLowerOrDigit = lettersOrSite name := by
  obtain ⟨pieces, -, words, whole, same⟩ := exists_pieces name
  rw [same, String.toList_ofList, ← Text.words_flatten,
    Text.words_joinWith not_isLowerOrDigit_dash words, whole]

theorem isFileNameChar_of_packageName {name : String} {c : Char}
    (h : c ∈ (packageName name).toList) : isFileNameChar c = true := by
  obtain letter | rfl := (isPackageName_packageName name).chars c h
  · simp [isFileNameChar, letter]
  · rfl

@[simp] theorem packageName_packageName (name : String) :
    packageName (packageName name) = packageName name := by
  have lower : Text.lower (packageName name) = packageName name := by
    rw [Text.lower, lowerAfter_of_isFileNameChar fun c => isFileNameChar_of_packageName,
      String.ofList_toList]
  rw [packageName, lower]
  obtain ⟨pieces, some, words, -, same⟩ := exists_pieces name
  rw [same, String.toList_ofList, Text.words_joinWith not_isLowerOrDigit_dash words]
  exact if_neg (by simpa using some)

/-! The name of the archive -/

theorem exists_base (name : String) :
    ∃ base : List Char, base ≠ [] ∧ (∀ c ∈ base, isFileNameChar c = true) ∧
      (base.filter isLowerOrDigit = letters name ∨ base = "site".toList ∧ letters name = []) ∧
      (archiveFileName name).toList = base ++ ".zip".toList := by
  have kept : ∀ cs : List Char,
      (cs.filter isFileNameChar).filter isLowerOrDigit = cs.filter isLowerOrDigit := by
    intro cs
    rw [List.filter_filter]
    refine List.filter_congr fun c _ => ?_
    cases letter : isLowerOrDigit c <;> simp [isFileNameChar, letter]
  have same := letters_dashed name
  rw [letters, ← kept] at same
  simp only [archiveFileName, String.toList_append, ← same]
  generalize found : List.filter isFileNameChar _ = base
  cases base with
  | nil =>
    have site : ∀ c ∈ "site".toList, isFileNameChar c = true := List.all_eq_true.mp rfl
    exact ⟨"site".toList, List.cons_ne_nil _ _, site, .inr ⟨rfl, rfl⟩, rfl⟩
  | cons c rest =>
    refine ⟨c :: rest, List.cons_ne_nil _ _, fun d there => ?_, .inl rfl, by simp⟩
    rw [← found] at there
    exact (List.mem_filter.mp there).2

theorem isFileNameChar_of_archiveFileName {name : String} {c : Char}
    (h : c ∈ (archiveFileName name).toList) : isFileNameChar c = true := by
  obtain ⟨base, -, good, -, same⟩ := exists_base name
  have ending : ∀ c ∈ ".zip".toList, isFileNameChar c = true := List.all_eq_true.mp rfl
  rw [same] at h
  exact (List.mem_append.mp h).elim (good c) (ending c)

/-- The name of a package is that of a package, also for its own name, and the name of an archive
has something before its ending. Both keep the letters and digits of the name in lower case, and
no character of either does any harm. -/
theorem names_of_project (name : String) :
    (IsPackageName (packageName name).toList ∧
      packageName (packageName name) = packageName name ∧
      (packageName name).toList.filter isLowerOrDigit = lettersOrSite name) ∧
    ((∀ c ∈ (archiveFileName name).toList, isFileNameChar c = true) ∧
      ∃ base : List Char, base ≠ [] ∧ (archiveFileName name).toList = base ++ ".zip".toList ∧
        (base.filter isLowerOrDigit = letters name ∨
          base = "site".toList ∧ letters name = [])) ∧
    (∀ c ∈ (packageName name).toList, IsHarmless c) ∧
    ∀ c ∈ (archiveFileName name).toList, IsHarmless c := by
  obtain ⟨base, some, -, kept, ending⟩ := exists_base name
  refine ⟨⟨isPackageName_packageName name, packageName_packageName name, filter_packageName name⟩,
    ⟨fun c => isFileNameChar_of_archiveFileName, base, some, ending, kept⟩, ?_, ?_⟩
  · exact fun c there => (of_isFileNameChar (isFileNameChar_of_packageName there)).1
  · exact fun c there => (of_isFileNameChar (isFileNameChar_of_archiveFileName there)).1

/-- A name with a letter that becomes two, the two forms of another, and a sign that becomes one. -/
theorem names_of_project_unruly :
    packageName " \u0130/\u0391\u03A3 -- \u212A2\u00A0" = "i-k2" ∧ IsPackageName "i-k2".toList ∧
      'k' ∈ "i-k2".toList ∧ IsHarmless 'k' := by
  have named : packageName " \u0130/\u0391\u03A3 -- \u212A2\u00A0" = "i-k2" := by decide +kernel
  have holds := names_of_project " \u0130/\u0391\u03A3 -- \u212A2\u00A0"
  rw [named] at holds
  have within : 'k' ∈ "i-k2".toList := by decide
  exact ⟨named, holds.1.1, within, holds.2.2.1 'k' within⟩

end Sitewright.Site
