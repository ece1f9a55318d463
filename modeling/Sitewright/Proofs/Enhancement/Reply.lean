import Sitewright.Proofs.Enhancement.Unfenced
import Sitewright.Proofs.Json.Reading

namespace Sitewright

open Enhancement (dropFences dropFences_cons_of_ne dropFences_append)

namespace Json

theorem not_mem_toString (n : Int) : '\x60' ∉ (toString n).toList := by
  have digits (m : Nat) : '\x60' ∉ Nat.toDigits 10 m := fun mem =>
    absurd (Reader.isDigit_of_mem_toDigits m _ mem) (by decide)
  rcases Reader.toString_forms n with ⟨m, -, written⟩ | ⟨m, -, written⟩
  · exact written ▸ digits m
  · rw [written, List.mem_cons, not_or]
    exact ⟨by decide, digits m⟩

theorem dropFences_blanks {blanks : List Char} (h : ∀ c ∈ blanks, Reader.isSpace c = true)
    (rest : List Char) : dropFences (blanks ++ rest) = blanks ++ dropFences rest :=
  dropFences_append (fun mem => absurd (h _ mem) (by decide)) rest

theorem dropFences_quoted (ascii : Bool) (s : String) (rest : List Char) :
    dropFences (quoted ascii s rest) = quoted ascii (withoutFences ascii s) (dropFences rest) := by
  have content := Enhancement.dropFences_enclosed ascii s.toList rest
  rw [quoted, dropFences_cons_of_ne (by decide), quoted, withoutFences, String.toList_ofList]
  exact congrArg ('"' :: ·) content

namespace Layout

variable (layout : Layout)

mutual

/-- The text of a value without its fences is the text of the value without its fences. -/
theorem dropFences_write : ∀ {value : Json} {level : Nat} {rest : List Char},
    value.isWhole = true → dropFences (layout.write level value rest) =
      layout.write level (value.unfenced layout.ascii) (dropFences rest)
  | .null, _, rest, _ => @dropFences_append "null".toList (by decide) rest
  | .bool true, _, rest, _ => @dropFences_append "true".toList (by decide) rest
  | .bool false, _, rest, _ => @dropFences_append "false".toList (by decide) rest
  | .int n, _, rest, _ => dropFences_append (not_mem_toString n) rest
  | .str s, _, rest, _ => dropFences_quoted layout.ascii s rest
  | .arr [], _, rest, _ => @dropFences_append "[]".toList (by decide) rest
  | .obj [], _, rest, _ => @dropFences_append "\x7b\x7d".toList (by decide) rest
  | .arr (item :: items), level, rest, h => by
    have inside := @dropFences_writeItems (item :: items) (level + 1)
      (layout.edge level ++ ']' :: rest) h
    rw [dropFences_blanks (layout.edge_blank level), dropFences_cons_of_ne (by decide)] at inside
    rw [write_arr_cons, dropFences_cons_of_ne (by decide),
      dropFences_blanks (layout.edge_blank _), inside]
    rfl
  | .obj (field :: fields), level, rest, h => by
    have inside := @dropFences_writeFields (field :: fields) (level + 1)
      (layout.edge level ++ '\x7d' :: rest) h
    rw [dropFences_blanks (layout.edge_blank level), dropFences_cons_of_ne (by decide)] at inside
    rw [write_obj_cons, dropFences_cons_of_ne (by decide),
      dropFences_blanks (layout.edge_blank _), inside]
    rfl

theorem dropFences_writeItems : ∀ {items : List Json} {level : Nat} {rest : List Char},
    areWhole items = true → dropFences (layout.writeItems level items rest) =
      layout.writeItems level (unfencedItems layout.ascii items) (dropFences rest)
  | [], _, _, _ => rfl
  | [item], level, rest, h => by
    simp only [areWhole, Bool.and_true] at h
    exact dropFences_write h
  | item :: next :: items, level, rest, h => by
    rw [areWhole, Bool.and_eq_true] at h
    have others := @dropFences_writeItems (next :: items) level rest h.2
    rw [writeItems_cons_cons, dropFences_write h.1, dropFences_cons_of_ne (by decide),
      dropFences_blanks (layout.gap_blank _), others]
    rfl

theorem dropFences_writeFields : ∀ {fields : List (String × Json)} {level : Nat}
    {rest : List Char}, fieldsWhole fields = true →
    dropFences (layout.writeFields level fields rest) =
      layout.writeFields level (unfencedFields layout.ascii fields) (dropFences rest)
  | [], _, _, _ => rfl
  | [(key, value)], level, rest, h => by
    simp only [fieldsWhole, Bool.and_true] at h
    rw [writeFields, dropFences_quoted, dropFences_cons_of_ne (by decide),
      dropFences_cons_of_ne (by decide), dropFences_write h]
    rfl
  | (key, value) :: next :: fields, level, rest, h => by
    rw [fieldsWhole, Bool.and_eq_true] at h
    have others := @dropFences_writeFields (next :: fields) level rest h.2
    rw [writeFields_cons_cons, dropFences_quoted, dropFences_cons_of_ne (by decide),
      dropFences_cons_of_ne (by decide), dropFences_write h.1, dropFences_cons_of_ne (by decide),
      dropFences_blanks (layout.gap_blank _), others]
    rfl

end

end Layout

end Json

namespace Enhancement

open Text (isBlank trimChars dropWhileEnd)

section Blanks

variable {blanks : List Char} (h : ∀ c ∈ blanks, isBlank c = true)

include h

theorem dropFences_append_of_blank (rest : List Char) :
    dropFences (blanks ++ rest) = blanks ++ dropFences rest :=
  dropFences_append (fun mem => absurd (h _ mem) (by decide)) rest

theorem dropFences_of_blank : dropFences blanks = blanks := by
  have dropped := dropFences_append_of_blank h []
  rwa [List.append_nil, dropFences_nil, List.append_nil] at dropped

theorem dropWhile_of_blank (rest : List Char) :
    (blanks ++ rest).dropWhile isBlank = rest.dropWhile isBlank :=
  List.dropWhile_append_of_pos h

end Blanks

theorem isSameLetter_of_isBlank {c : Char} (h : isBlank c = true) : isSameLetter 'j' c = false := by
  have notUpper : Text.inRanges [(0x41, 0x5A)] c = false :=
    Text.not_inRanges_of_apart (by decide) h
  have same : c.toLower = c := by
    refine dif_neg ?_
    rintro ⟨low, high⟩
    have upper : Text.inRanges [(0x41, 0x5A)] c = true := Text.inRanges_iff.mpr
      ⟨_, List.mem_singleton_self _, UInt32.le_iff_toNat_le.mp low, UInt32.le_iff_toNat_le.mp high⟩
    rw [notUpper] at upper
    cases upper
  have other : c ≠ 'j' := by
    rintro rfl
    exact absurd h (by decide)
  simp [isSameLetter, same, other]

theorem dropLanguage_of_head {cs : List Char} (h : ∀ c ∈ cs.head?, isSameLetter 'j' c = false) :
    dropLanguage cs = cs := by
  cases cs with
  | nil => rfl
  | cons c cs =>
    have first := h c rfl
    simp [dropLanguage_eq, language, after?, first]

theorem dropFences_label {label blanks rest : List Char} {c : Char}
    (named : label = [] ∨ label = language) (h : ∀ c ∈ blanks, isBlank c = true)
    (other : isSameLetter 'j' c = false) (shown : isBlank c = false) :
    dropFences (fence ++ (label ++ (blanks ++ c :: rest))) = dropFences (c :: rest) := by
  have unnamed : dropLanguage (label ++ (blanks ++ c :: rest)) = blanks ++ c :: rest := by
    rcases named with rfl | rfl
    · refine dropLanguage_of_head fun first begins => ?_
      cases blanks with
      | nil =>
        cases begins
        exact other
      | cons blank blanks =>
        cases begins
        exact isSameLetter_of_isBlank (h first List.mem_cons_self)
    · rfl
  rw [dropFences_fence, unnamed, dropWhile_of_blank h,
    List.dropWhile_cons_of_neg (by simp [shown])]

theorem dropFences_fence_of_blank {blanks : List Char} (h : ∀ c ∈ blanks, isBlank c = true) :
    dropFences (fence ++ blanks) = [] := by
  have unnamed : dropLanguage blanks = blanks := dropLanguage_of_head fun c begins =>
    isSameLetter_of_isBlank (h c (List.mem_of_mem_head? begins))
  have gone := dropWhile_of_blank h []
  rw [List.append_nil] at gone
  rw [dropFences_fence, unnamed, gone, List.dropWhile_nil, dropFences_nil]

theorem trimChars_of_blank {before after inner : List Char} {first last : Char}
    (leading : ∀ c ∈ before, isBlank c = true) (trailing : ∀ c ∈ after, isBlank c = true)
    (opens : isBlank first = false) (closes : isBlank last = false) :
    trimChars (before ++ first :: (inner ++ last :: after)) = first :: (inner ++ [last]) := by
  have trailing : ∀ c ∈ after.reverse, isBlank c = true := by simpa using trailing
  rw [trimChars, dropWhile_of_blank leading, List.dropWhile_cons_of_neg (by simp [opens]),
    dropWhileEnd]
  have turned : (first :: (inner ++ last :: after)).reverse =
      after.reverse ++ last :: (inner.reverse ++ [first]) := by simp
  rw [turned, dropWhile_of_blank trailing, List.dropWhile_cons_of_neg (by simp [closes])]
  simp

/-- A text as a reply shows it, with blanks around it: bare, or in one fence that may carry the name
of the language. -/
inductive Dressed (text : List Char) : List Char → Prop
  | bare {before after : List Char} : (∀ c ∈ before, isBlank c = true) →
      (∀ c ∈ after, isBlank c = true) → Dressed text (before ++ (text ++ after))
  | fenced {before label inner outer after : List Char} : (∀ c ∈ before, isBlank c = true) →
      (label = [] ∨ label = language) → (∀ c ∈ inner, isBlank c = true) →
      (∀ c ∈ outer, isBlank c = true) → (∀ c ∈ after, isBlank c = true) →
      Dressed text
        (before ++ (fence ++ (label ++ (inner ++ (text ++ (outer ++ (fence ++ after)))))))

theorem textValue_of_dressed [Machine] {layout : Json.Layout} {level : Nat} {fields : Fields Json}
    {raw : String} (whole : (Json.obj fields).isWhole = true)
    (dressed : Dressed (layout.write level (.obj fields) []) raw.toList) :
    textValue raw = Json.read
      (String.ofList (layout.write level ((Json.obj fields).unfenced layout.ascii) [])) := by
  have dropped (rest : List Char) : dropFences (layout.write level (.obj fields) [] ++ rest) =
      layout.write level ((Json.obj fields).unfenced layout.ascii) (dropFences rest) := by
    rw [← layout.write_append, List.nil_append, layout.dropFences_write whole]
  have trimmed {before outer : List Char} (leading : ∀ c ∈ before, isBlank c = true)
      (trailing : ∀ c ∈ outer, isBlank c = true) :
      trimChars (before ++ layout.write level ((Json.obj fields).unfenced layout.ascii) outer) =
        layout.write level ((Json.obj fields).unfenced layout.ascii) [] := by
    obtain ⟨inner, braces⟩ := layout.exists_write_obj level
      (Json.unfencedFields layout.ascii fields)
    rw [Json.unfenced, braces, braces]
    exact trimChars_of_blank leading trailing (by decide) (by decide)
  rw [textValue]
  generalize raw.toList = shown at dressed ⊢
  cases dressed with
  | bare leading trailing =>
    rw [dropFences_append_of_blank leading, dropped, dropFences_of_blank trailing,
      trimmed leading trailing]
  | fenced leading label inner outer trailing =>
    obtain ⟨more, braces⟩ := layout.exists_write_obj level fields
    simp only [braces, List.cons_append] at dropped ⊢
    rw [dropFences_append_of_blank leading,
      dropFences_label label inner (by decide) (by decide), dropped,
      dropFences_append_of_blank outer, dropFences_fence_of_blank trailing, List.append_nil,
      trimmed leading outer]

def IsTextOf (text : String) (value : Json) : Prop :=
  ∃ (layout : Json.Layout) (level : Nat), text.toList = layout.write level value []

theorem isTextOf_compact (ascii : Bool) (value : Json) : IsTextOf (value.compact ascii) value :=
  ⟨.line ascii, 0, by rw [← Json.Layout.toList_compact, List.append_nil]⟩

theorem isTextOf_indented (ascii : Bool) (level : Nat) (value : Json) :
    IsTextOf (value.indented ascii level) value :=
  ⟨.block ascii, level, by rw [← Json.Layout.toList_indented, List.append_nil]⟩

section Mapping

variable {fields : Fields Json} {text raw : String}

theorem textValue_eq_ok_iff [Machine] (distinct : (Json.obj fields).isDistinct = true)
    (whole : (Json.obj fields).isWhole = true) (written : IsTextOf text (.obj fields))
    (dressed : Dressed text.toList raw.toList) :
    textValue raw = .ok (.obj fields) ↔
      (Json.obj fields).Legible Machine.textNesting ∧ (Json.obj fields).isFenceless = true := by
  obtain ⟨layout, level, written⟩ := written
  rw [written] at dressed
  have reads (legible : (Json.obj fields).Legible Machine.textNesting) :
      textValue raw = .ok ((Json.obj fields).unfenced layout.ascii).merged := by
    rw [textValue_of_dressed whole dressed]
    exact Json.Layout.read_of_toList String.toList_ofList (by simp)
      (Json.legible_unfenced layout.ascii legible)
  constructor
  · intro read
    have legible : (Json.obj fields).Legible Machine.textNesting :=
      (Json.lasting_of_read read whole).legible
    refine ⟨legible, ?_⟩
    rw [reads legible] at read
    rw [← Except.ok.inj read]
    exact Json.isFenceless_merged (Json.isFenceless_unfenced layout.ascii _)
  · rintro ⟨legible, fenceless⟩
    rw [reads legible, Json.unfenced_of_isFenceless layout.ascii fenceless,
      Json.merged_of_isDistinct distinct]

end Mapping

end Enhancement

end Sitewright
