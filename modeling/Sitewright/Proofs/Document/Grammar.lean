import Sitewright.Document.Slug
import Sitewright.Proofs.Text.Split

namespace Sitewright.Slug

/-- The characters that stand for themselves in an address. -/
def IsUrlSafe (c : Char) : Prop := c.isAlphanum = true ∨ c ∈ ['.', '_', '~', '-']

structure IsProper (segment : List Char) : Prop where
  there : segment ≠ []
  safe : ∀ c ∈ segment, IsUrlSafe c
  notHere : segment ≠ ['.']
  notAbove : segment ≠ ['.', '.']

def IsBroken (segment : List Char) : Prop :=
  ∃ name, name ≠ [] ∧ (∀ c ∈ name, IsUrlSafe c) ∧ segment = name ++ ['\n']

/-- The home slug, or one or more segments of a kind, each led by a slash. -/
def MadeOf (kind : List Char → Prop) (slug : String) : Prop :=
  slug = home ∨ ∃ segments ≠ [], (∀ segment ∈ segments, kind segment) ∧
    slug.toList = segments.flatMap ('/' :: ·)

/-! Segments -/

theorem isSegmentChar_iff {c : Char} : isSegmentChar c = true ↔ IsUrlSafe c := by
  have upper : c.isUpper = decide ('A' ≤ c ∧ c ≤ 'Z') := rfl
  have lower : c.isLower = ('a' ≤ c && c ≤ 'z') := rfl
  have digit : c.isDigit = ('0' ≤ c && c ≤ '9') := rfl
  have alphanum : c.isAlphanum = (c.isUpper || c.isLower || c.isDigit) := rfl
  simp [isSegmentChar, IsUrlSafe, alphanum, upper, lower, digit, or_assoc]

theorem all_isSegmentChar_iff {cs : List Char} :
    cs.all isSegmentChar = true ↔ ∀ c ∈ cs, IsUrlSafe c := by
  simp only [List.all_eq_true, isSegmentChar_iff]

theorem IsUrlSafe.ne_break {c : Char} (h : IsUrlSafe c) : c ≠ '\n' := by
  rintro rfl
  exact absurd (isSegmentChar_iff.mpr h) (by decide)

@[simp] theorem withoutLastBreak_concat (name : List Char) : withoutLastBreak (name ++ ['\n']) = name := by
  simp [withoutLastBreak]

theorem withoutLastBreak_cases (cs : List Char) :
    (∃ name, cs = name ++ ['\n']) ∨ withoutLastBreak cs = cs := by
  unfold withoutLastBreak
  split
  · next rest reversed =>
    refine .inl ⟨rest.reverse, ?_⟩
    rw [← List.reverse_reverse cs, reversed, List.reverse_cons]
  · exact .inr rfl

theorem withoutLastBreak_of_not_mem {cs : List Char} (h : '\n' ∉ cs) :
    withoutLastBreak cs = cs := by
  refine (withoutLastBreak_cases cs).resolve_left ?_
  rintro ⟨name, rfl⟩
  exact h (List.mem_append_right _ List.mem_cons_self)

theorem isSegment_concat_iff {name : List Char} :
    isSegment (name ++ ['\n']) = true ↔ name ≠ [] ∧ ∀ c ∈ name, IsUrlSafe c := by
  have differ (cs : List Char) (none : '\n' ∉ cs) : name ++ ['\n'] ≠ cs := by
    rintro rfl
    exact none (List.mem_append_right _ List.mem_cons_self)
  rw [isSegment, withoutLastBreak_concat]
  simp [differ ['.'] (by decide), differ ['.', '.'] (by decide), isSegmentChar_iff]

theorem isSegment_iff_isProper {segment : List Char} (h : '\n' ∉ segment) :
    isSegment segment = true ↔ IsProper segment := by
  rw [isSegment, withoutLastBreak_of_not_mem h]
  simp only [Bool.and_eq_true, decide_eq_true_eq, Bool.not_eq_true', List.isEmpty_eq_false_iff,
    all_isSegmentChar_iff]
  exact ⟨fun ⟨⟨⟨notHere, notAbove⟩, there⟩, safe⟩ => ⟨there, safe, notHere, notAbove⟩,
    fun ⟨there, safe, notHere, notAbove⟩ => ⟨⟨⟨notHere, notAbove⟩, there⟩, safe⟩⟩

theorem isBroken_of_isSegment {segment : List Char} (h : isSegment segment = true)
    (mem : '\n' ∈ segment) : IsBroken segment := by
  rcases withoutLastBreak_cases segment with ⟨name, rfl⟩ | whole
  · obtain ⟨there, safe⟩ := isSegment_concat_iff.mp h
    exact ⟨name, there, safe, rfl⟩
  · rw [isSegment, whole, Bool.and_eq_true, all_isSegmentChar_iff] at h
    exact absurd rfl (h.2 _ mem).ne_break

theorem isSegment_iff {segment : List Char} :
    isSegment segment = true ↔ IsProper segment ∨ IsBroken segment := by
  constructor
  · intro h
    by_cases mem : '\n' ∈ segment
    · exact .inr (isBroken_of_isSegment h mem)
    · exact .inl ((isSegment_iff_isProper mem).mp h)
  · rintro (proper | ⟨name, there, safe, rfl⟩)
    · exact (isSegment_iff_isProper fun mem => (proper.safe _ mem).ne_break rfl).mpr proper
    · exact isSegment_concat_iff.mpr ⟨there, safe⟩

theorem mem_of_isSegment {segment : List Char} {c : Char} (h : isSegment segment = true)
    (there : c ∈ segment) : isSegmentChar c = true ∨ c = '\n' := by
  rcases isSegment_iff.mp h with proper | ⟨name, -, safe, rfl⟩
  · exact .inl (isSegmentChar_iff.mpr (proper.safe c there))
  · rcases List.mem_append.mp there with early | last
    · exact .inl (isSegmentChar_iff.mpr (safe c early))
    · exact .inr (List.mem_singleton.mp last)

theorem not_mem_of_isSegment {segment : List Char} (h : isSegment segment = true) :
    '/' ∉ segment := fun there => absurd (mem_of_isSegment h there) (by decide)

/-! Slugs -/

theorem isValid_iff {slug : String} :
    isValid slug = true ↔ MadeOf (isSegment · = true) slug := by
  rw [isValid, Bool.or_eq_true, decide_eq_true_eq, MadeOf]
  refine or_congr_right ⟨fun h => ?_, ?_⟩
  · split at h
    · next rest written =>
      refine ⟨Text.split '/' rest, Text.split_ne_nil '/' rest, List.all_eq_true.mp h, ?_⟩
      rw [Text.flatMap_split, written]
    · cases h
  · rintro ⟨segments, some, good, written⟩
    have pieces : Text.split '/' (Text.joinWith '/' segments) = segments :=
      Text.split_joinWith some fun segment mem => not_mem_of_isSegment (good segment mem)
    rw [written, ← Text.cons_joinWith some]
    simp only [pieces]
    exact List.all_eq_true.mpr good

theorem check_eq_ok_iff_isValid {slug : String} :
    check (.str slug) = .ok () ↔ isValid slug = true := by
  rw [check]
  split
  · next valid => exact iff_of_true rfl valid
  · next invalid => exact iff_of_false nofun invalid

theorem check_eq_error_iff {slug : String} :
    check (.str slug) = .error (.slugInvalid (.str slug)) ↔ ¬isValid slug = true := by
  rw [check]
  split
  · next valid => exact iff_of_false nofun (not_not_intro valid)
  · next invalid => exact iff_of_true rfl invalid

theorem madeOf_isProper_iff {slug : String} :
    MadeOf IsProper slug ↔ MadeOf (isSegment · = true) slug ∧ '\n' ∉ slug.toList := by
  constructor
  · rintro (rfl | ⟨segments, some, proper, written⟩)
    · exact ⟨.inl rfl, by decide⟩
    · refine ⟨.inr ⟨segments, some, fun segment mem =>
        isSegment_iff.mpr (.inl (proper segment mem)), written⟩, ?_⟩
      rw [written]
      intro mem
      obtain ⟨segment, there, within⟩ := List.mem_flatMap.mp mem
      rcases List.mem_cons.mp within with slash | within
      · cases slash
      · exact ((proper segment there).safe _ within).ne_break rfl
  · rintro ⟨rfl | ⟨segments, some, good, written⟩, none⟩
    · exact .inl rfl
    · refine .inr ⟨segments, some, fun segment mem => ?_, written⟩
      refine (isSegment_iff_isProper fun within => none ?_).mp (good segment mem)
      rw [written]
      exact List.mem_flatMap.mpr ⟨segment, mem, List.mem_cons_of_mem _ within⟩

/-- A slug is accepted if it follows the grammar, but for a line break that may end each of its
segments, and otherwise it is reported. The slugs of the grammar are those that are accepted and
have no line break. -/
theorem check_eq_ok_iff_madeOf (slug : String) :
    (check (.str slug) = .ok () ↔
      MadeOf (fun segment => IsProper segment ∨ IsBroken segment) slug) ∧
    (check (.str slug) = .error (.slugInvalid (.str slug)) ↔
      ¬MadeOf (fun segment => IsProper segment ∨ IsBroken segment) slug) ∧
    (Error.slugInvalid (.str slug)).kind = some .validation ∧
    (MadeOf IsProper slug ↔ check (.str slug) = .ok () ∧ '\n' ∉ slug.toList) := by
  have accepted : isValid slug = true ↔
      MadeOf (fun segment => IsProper segment ∨ IsBroken segment) slug := by
    simp only [isValid_iff, isSegment_iff]
  rw [check_eq_ok_iff_isValid, check_eq_error_iff, madeOf_isProper_iff, isValid_iff.symm, accepted]
  exact ⟨Iff.rfl, Iff.rfl, rfl, Iff.rfl⟩

example : check (.str "/..\n") = .ok () ∧ ¬MadeOf IsProper "/..\n" :=
  ⟨rfl, fun proper => (madeOf_isProper_iff.mp proper).2 (by decide)⟩

end Sitewright.Slug
