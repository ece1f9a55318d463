import Sitewright.Proofs.Markup.Pieces

/-!
Where a value in markup ends. Texts, attributes and styles are written as they are or as
expressions, and whatever follows an expression or a value in quotes, a reader that knows strings
finds its end.
-/

namespace Sitewright.Markup

namespace Reading

/-- An expression up to the brace that ends it, and what follows it. -/
def upToBrace : Scan → List Char → Option (List Char × List Char)
  | _, [] => none
  | scan, c :: rest =>
    match scan.step c with
    | none => some ([], rest)
    | some next => (upToBrace next rest).map fun p => (c :: p.1, p.2)

/-- A value in quotes up to the quote that ends it, which is not one after a backslash, and what
follows it. -/
def upToQuote : List Char → Option (List Char × List Char)
  | [] => none
  | '"' :: rest => some ([], rest)
  | '\\' :: c :: rest => (upToQuote rest).map fun p => ('\\' :: c :: p.1, p.2)
  | c :: rest => (upToQuote rest).map fun p => (c :: p.1, p.2)

/-- What stands in the braces or quotes that a text begins with, and what follows them. -/
def valueAt : List Char → Option (List Char × List Char)
  | '{' :: rest => upToBrace (.plain 0) rest
  | '"' :: rest => upToQuote rest
  | _ => none

theorem upToBrace_append {scan next : Scan} {cs : List Char}
    (h : cs.foldlM Scan.step scan = some next) (rest : List Char) :
    upToBrace scan (cs ++ rest) = (upToBrace next rest).map fun p => (cs ++ p.1, p.2) := by
  induction cs generalizing scan with
  | nil =>
    cases h
    simp
  | cons c cs ih =>
    rw [List.foldlM_cons] at h
    obtain ⟨after, one, more⟩ := Option.bind_eq_some_iff.mp h
    rw [List.cons_append, upToBrace, one]
    simp only [ih more, Option.map_map]
    rfl

theorem upToQuote_append {cs : List Char} (h : ∀ c ∈ cs, c ≠ '"' ∧ c ≠ '\\') (rest : List Char) :
    upToQuote (cs ++ '"' :: rest) = some (cs, rest) := by
  induction cs with
  | nil => rfl
  | cons c cs ih =>
    rw [List.forall_mem_cons] at h
    rw [List.cons_append, upToQuote, ih h.2]
    · rfl
    · exact h.1.1
    · exact fun _ _ same _ => h.1.2 same

end Reading

open Reading

/-- Whatever follows what is written, the value is all that is written of it. -/
def Encloses (written value : String) : Prop :=
  ∀ after, valueAt (written.toList ++ after) = some (value.toList, after)

theorem encloses_braced [Machine] {v : Json} (h : Legible v) :
    Encloses (braced v.literal) v.literal := by
  intro after
  have opened : (braced v.literal).toList ++ after =
      '{' :: (v.literal.toList ++ '}' :: after) := by simp [braced]
  have closed : upToBrace (.plain 0) ('}' :: after) = some ([], after) := rfl
  rw [opened, valueAt, upToBrace_append h.1, closed, Option.map_some, List.append_nil]

/-! What is written as it is -/

/-- What begins or ends an element, an expression, an entity or a line. -/
def marks : List Char := ['{', '}', '<', '>', '&', '\r', '\n']

/-- A text that stands for itself: nothing in it could be taken for markup, and no blank at either
end of it could be left out. -/
structure Bare (s : String) : Prop where
  unmarked : ∀ c ∈ s.toList, c ∉ marks
  first : ∀ c ∈ s.toList.head?, Text.isBlank c = false
  last : ∀ c ∈ s.toList.getLast?, Text.isBlank c = false

def Quotable (s : String) : Prop := ∀ c ∈ s.toList, c ∉ '"' :: '\\' :: marks

theorem isUnsafeInText_iff {c : Char} : isUnsafeInText c = true ↔ c ∈ marks := by
  simp only [isUnsafeInText, marks, Bool.or_eq_true, decide_eq_true_eq, List.mem_cons,
    List.not_mem_nil, or_false]
  tauto

theorem isUnsafeInQuotes_iff {c : Char} :
    isUnsafeInQuotes c = true ↔ c ∈ '"' :: '\\' :: marks := by
  simp only [isUnsafeInQuotes, Bool.or_eq_true, decide_eq_true_eq, isUnsafeInText_iff,
    List.mem_cons]
  tauto

theorem isPlain_iff {s : String} : isPlain s.toList = true ↔ Bare s := by
  simp only [isPlain, Bool.and_eq_true, Bool.not_eq_true', List.any_eq_false, isUnsafeInText_iff,
    Option.any_eq_false]
  exact ⟨fun ⟨⟨unmarked, first⟩, last⟩ => ⟨unmarked, first, last⟩,
    fun ⟨unmarked, first, last⟩ => ⟨⟨unmarked, first⟩, last⟩⟩

theorem any_isUnsafeInQuotes_iff {s : String} :
    s.toList.any isUnsafeInQuotes = false ↔ Quotable s := by
  simp only [List.any_eq_false, isUnsafeInQuotes_iff, Quotable]

theorem encloses_quoted {s : String} (h : Quotable s) : Encloses ("\"" ++ s ++ "\"") s := by
  intro after
  have opened : ("\"" ++ s ++ "\"").toList ++ after = '"' :: (s.toList ++ '"' :: after) := by simp
  have plain : ∀ c ∈ s.toList, c ≠ '"' ∧ c ≠ '\\' := fun c there =>
    ⟨fun quote => h c there (quote ▸ List.mem_cons_self),
      fun backslash => h c there (backslash ▸ List.mem_cons_of_mem _ List.mem_cons_self)⟩
  rw [opened, valueAt, upToQuote_append plain]

/-- A text is written as it is, if nothing in it could be taken for markup, and otherwise as one
expression that holds it. So is the value of an attribute, in quotes or in an expression, and a
style is written as an expression that holds its entries in order. However such a value is followed,
its end is found. -/
theorem encloses_of_written [Machine] (s name : String) (style : Fields String) :
    ((Bare s ∧ writeText s = s) ∨
      (¬Bare s ∧ writeText s = braced (Json.str s).literal ∧
        Json.parse? (Json.str s).literal = some (.str s) ∧
        Encloses (braced (Json.str s).literal) (Json.str s).literal)) ∧
    ((Quotable s ∧ writeAttribute name (.str s) = name ++ "=" ++ ("\"" ++ s ++ "\"") ∧
        Encloses ("\"" ++ s ++ "\"") s) ∨
      (¬Quotable s ∧ writeAttribute name (.str s) = name ++ "=" ++ braced (Json.str s).literal ∧
        Json.parse? (Json.str s).literal = some (.str s) ∧
        Encloses (braced (Json.str s).literal) (Json.str s).literal)) ∧
    ((style.map Prod.fst).Nodup → style ≠ [] →
      writeStyle (.obj (Json.texts style)) =
          "style=" ++ braced (Json.obj (Json.texts style)).literal ∧
        Json.parse? (Json.obj (Json.texts style)).literal = some (.obj (Json.texts style)) ∧
        Encloses (braced (Json.obj (Json.texts style)).literal)
          (Json.obj (Json.texts style)).literal) := by
  refine ⟨?_, ?_, fun distinct some => ?_⟩
  · by_cases bare : isPlain s.toList = true
    · exact .inl ⟨isPlain_iff.mp bare, if_pos bare⟩
    · exact .inr ⟨mt isPlain_iff.mpr bare, if_neg bare, (legible_str s).2,
        encloses_braced (legible_str s)⟩
  · cases quoted : s.toList.any isUnsafeInQuotes with
    | false =>
      have plain := any_isUnsafeInQuotes_iff.mp quoted
      refine .inl ⟨plain, ?_, encloses_quoted plain⟩
      have opening : "=\"" = "=" ++ "\"" := rfl
      simp only [writeAttribute, quoted, Bool.false_eq_true, if_false, opening,
        String.append_assoc]
    | true =>
      refine .inr ⟨fun plain => ?_, ?_, (legible_str s).2, encloses_braced (legible_str s)⟩
      · rw [any_isUnsafeInQuotes_iff.mpr plain] at quoted
        cases quoted
      · rw [writeAttribute, if_pos quoted]
  · have legible := legible_texts distinct
    refine ⟨if_pos ?_, legible.2, encloses_braced legible⟩
    simpa [Json.isTruthy, Json.texts] using some

theorem encloses_of_written_unruly :
    Encloses (braced (Json.obj (Json.texts [("\\\"\x7d", "\x7d\n\x7b")])).literal)
      (Json.obj (Json.texts [("\\\"\x7d", "\x7d\n\x7b")])).literal :=
  ((encloses_of_written "</p>" "title" [("\\\"\x7d", "\x7d\n\x7b")]).2.2
    (by decide) (by decide)).2.2

end Sitewright.Markup
