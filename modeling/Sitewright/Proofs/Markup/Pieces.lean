import Sitewright.Markup.Element
import Sitewright.Proofs.Json.Reading
import Sitewright.Proofs.Markup.Reading

/-!
The pieces of an element read one by one: texts, expressions, attributes and tags. Each is read as
what it was written for, whatever characters are in it.
-/

namespace Sitewright.Markup.Reading

theorem run_append [Machine] (state : Mode × Nest) (as bs : List Char) :
    run state (as ++ bs) = (run state as).bind fun next => run next bs := by
  simp [run, List.foldlM_append]

theorem run_append_of [Machine] {state next : Mode × Nest} {as : List Char}
    (h : run state as = some next) (bs : List Char) : run state (as ++ bs) = run next bs := by
  rw [run_append, h]
  rfl

theorem run_cons_of [Machine] {state next : Mode × Nest} {c : Char} (h : step state c = some next)
    (cs : List Char) : run state (c :: cs) = run next cs := by
  rw [run, List.foldlM_cons, h]
  rfl

theorem run_gather [Machine] (mode : List Char → Mode) (taken : Char → Prop) {nest : Nest}
    (h : ∀ text c, taken c → step (mode text, nest) c = some (mode (text ++ [c]), nest))
    (text : List Char) {cs : List Char} (all : ∀ c ∈ cs, taken c) :
    run (mode text, nest) cs = some (mode (text ++ cs), nest) := by
  induction cs generalizing text with
  | nil => simp [run]
  | cons c cs ih =>
    rw [run_cons_of (h text c (all c List.mem_cons_self)),
      ih _ fun d hd => all d (List.mem_cons_of_mem c hd), List.append_assoc, List.singleton_append]

/-! ### Expressions -/

theorem scan_append_of {scan next : Scan} {as : List Char}
    (h : as.foldlM Scan.step scan = some next) (bs : List Char) :
    (as ++ bs).foldlM Scan.step scan = bs.foldlM Scan.step next := by
  rw [List.foldlM_append, h]
  rfl

theorem scan_quoted {depth : Nat} {c : Char} (noQuote : c ≠ '"') (noBackslash : c ≠ '\\') :
    Scan.step (.quoted depth) c = some (.quoted depth) := by
  simp [Scan.step, noQuote, noBackslash]

theorem hexDigit_plain : ∀ n < 16, Text.hexDigit n ≠ '"' ∧ Text.hexDigit n ≠ '\\' := by decide

@[simp] theorem scan_hexDigits (depth width n : Nat) :
    (Text.hexDigits width n).foldlM Scan.step (.quoted depth) = some (.quoted depth) := by
  induction width generalizing n with
  | zero => rfl
  | succ width ih =>
    have last := hexDigit_plain (n % 16) (Nat.mod_lt n (by decide))
    rw [Text.hexDigits, scan_append_of (ih (n / 16)), List.foldlM_cons,
      scan_quoted last.1 last.2]
    rfl

@[simp] theorem scan_escapeChar (depth : Nat) (c : Char) :
    (Json.escapeChar false c).foldlM Scan.step (.quoted depth) = some (.quoted depth) := by
  rcases Json.escapeChar_cases c with ⟨e, -, -, written⟩ | ⟨-, written⟩ |
    ⟨noQuote, noBackslash, -, written⟩
  · rw [written]
    rfl
  · rw [written]
    exact scan_hexDigits depth 4 c.toNat
  · rw [written, List.foldlM_cons, scan_quoted noQuote noBackslash]
    rfl

@[simp] theorem scan_stringText (depth : Nat) (s : String) :
    (Json.stringText false s).toList.foldlM Scan.step (.plain depth) = some (.plain depth) := by
  have inner : ∀ cs : List Char,
      (cs.flatMap (Json.escapeChar false)).foldlM Scan.step (.quoted depth) =
        some (.quoted depth) := by
    intro cs
    induction cs with
    | nil => rfl
    | cons c cs ih => rw [List.flatMap_cons, scan_append_of (scan_escapeChar depth c), ih]
  have start : Scan.step (.plain depth) '"' = some (.quoted depth) := rfl
  rw [Json.toList_stringText, List.foldlM_cons, start]
  exact scan_append_of (inner s.toList) _

@[simp] theorem scan_texts (depth : Nat) (entries : Fields String) :
    (Json.compactFields false (Json.texts entries)).toList.foldlM Scan.step (.plain depth) =
      some (.plain depth) := by
  have field : ∀ entry : String × String,
      (Json.stringText false entry.1 ++ ": " ++ Json.stringText false entry.2).toList.foldlM
        Scan.step (.plain depth) = some (.plain depth) := by
    intro entry
    have colon : ": ".toList.foldlM Scan.step (.plain depth) = some (.plain depth) := rfl
    rw [String.toList_append, String.toList_append, List.append_assoc,
      scan_append_of (scan_stringText depth entry.1), scan_append_of colon,
      scan_stringText]
  induction entries with
  | nil => rfl
  | cons entry entries ih =>
    cases entries with
    | nil => rw [Json.toList_compactFields_one, field]
    | cons next entries =>
      have comma : [',', ' '].foldlM Scan.step (.plain depth) = some (.plain depth) := rfl
      rw [Json.toList_compactFields_more, scan_append_of (field entry)]
      exact (scan_append_of comma _).trans ih

/-- The text of the value has no brace that could be taken for the one that ends an expression, and
it has no other value. -/
def Legible [Machine] (v : Json) : Prop :=
  v.literal.toList.foldlM Scan.step (.plain 0) = some (.plain 0) ∧ Json.parse? v.literal = some v

theorem legible_str [Machine] (s : String) : Legible (.str s) :=
  ⟨scan_stringText 0 s, Json.parse?_literal_str s⟩

theorem legible_texts [Machine] {entries : Fields String}
    (distinct : (entries.map Prod.fst).Nodup) :
    Legible (.obj (Json.texts entries)) := by
  refine ⟨?_, Json.parse?_literal_texts distinct⟩
  have written : (Json.obj (Json.texts entries)).literal.toList =
      '\x7b' :: ((Json.compactFields false (Json.texts entries)).toList ++ ['\x7d']) := by
    simp [Json.literal, Json.compact]
  have start : Scan.step (.plain 0) '\x7b' = some (.plain 1) := rfl
  rw [written, List.foldlM_cons, start]
  exact scan_append_of (scan_texts 1 entries) _

theorem run_expression [Machine] (mode : Scan → List Char → Mode) {nest : Nest} {v : Json}
    {found : Mode × Nest}
    (inside : ∀ scan next text c, Scan.step scan c = some next →
      step (mode scan text, nest) c = some (mode next (text ++ [c]), nest))
    (last : step (mode (.plain 0) v.literal.toList, nest) '\x7d' = some found) (h : Legible v) :
    run (mode (.plain 0) [], nest) (v.literal.toList ++ ['\x7d']) = some found := by
  have gathered : ∀ (cs : List Char) (scan next : Scan) (text : List Char),
      cs.foldlM Scan.step scan = some next →
      run (mode scan text, nest) cs = some (mode next (text ++ cs), nest) := by
    intro cs
    induction cs with
    | nil =>
      rintro scan next text ⟨⟩
      simp [run]
    | cons c cs ih =>
      intro scan next text scanned
      rw [List.foldlM_cons] at scanned
      obtain ⟨after, one, rest⟩ := Option.bind_eq_some_iff.mp scanned
      rw [run_cons_of (inside scan after text c one), ih after next _ rest, List.append_assoc,
        List.singleton_append]
  rw [run_append_of (gathered _ _ _ [] h.1), List.nil_append, run_cons_of last]
  rfl

/-! ### Attributes -/

theorem IsWord.toList_ne_nil {s : String} (h : IsWord s) : s.toList ≠ [] := by
  simpa using h.1

theorem ne_of_not_isDelimiter {c d : Char} (h : isDelimiter c = false)
    (delimiter : isDelimiter d = true) : c ≠ d := by
  rintro rfl
  simp [h] at delimiter

structure Sayable (a : String × Json) : Prop where
  word : IsWord a.1
  value : a.2 = .bool true ∨ (∃ s, a.2 = .str s) ∨
    ∃ entries : Fields String, (entries.map Prod.fst).Nodup ∧ a.2 = .obj (Json.texts entries)

section Attribute

variable (name : String) (attributes : Fields Json) (nest : Nest)

theorem run_key [Machine] {key : String} (h : IsWord key) :
    run (.tag name attributes [], nest) key.toList =
      some (.tag name attributes key.toList, nest) := by
  refine run_gather (.tag name attributes) (isDelimiter · = false) (fun text c word => ?_) [] h.2
  have noEquals : c ≠ '=' := ne_of_not_isDelimiter word rfl
  simp [step, noEquals, word]

theorem run_equals [Machine] {key : String} (h : IsWord key) (cs : List Char) :
    run (.tag name attributes [], nest) (key.toList ++ '=' :: cs) =
      run (.assigned name attributes key, nest) cs := by
  rw [run_append_of (run_key name attributes nest h)]
  refine run_cons_of ?_ cs
  simp [step, h.toList_ne_nil]

theorem run_quoted [Machine] {key s : String} (h : s.toList.any isUnsafeInQuotes = false) :
    run (.assigned name attributes key, nest) ("\"" ++ s ++ "\"").toList =
      some (.tag name (attributes ++ [(key, .str s)]) [], nest) := by
  have taken : ∀ c ∈ s.toList, c ≠ '"' ∧ c ≠ '&' := by
    intro c hc
    have safe := List.any_eq_false.mp h c hc
    simp only [isUnsafeInQuotes, isUnsafeInText] at safe
    constructor <;> rintro rfl <;> simp at safe
  have written : ("\"" ++ s ++ "\"").toList = '"' :: (s.toList ++ ['"']) := by simp
  have start : step (.assigned name attributes key, nest) '"' =
      some (.quoted name attributes key [], nest) := rfl
  have gathered : run (.quoted name attributes key [], nest) s.toList =
      some (.quoted name attributes key s.toList, nest) :=
    run_gather (.quoted name attributes key) (fun c => c ≠ '"' ∧ c ≠ '&')
      (fun text c safe => by simp [step, safe]) [] taken
  rw [written, run_cons_of start, run_append_of gathered]
  refine run_cons_of ?_ []
  simp [step]

theorem run_computed [Machine] {key : String} {v : Json} (h : Legible v) :
    run (.assigned name attributes key, nest) (braced v.literal).toList =
      some (.tag name (attributes ++ [(key, v)]) [], nest) := by
  have written : (braced v.literal).toList = '\x7b' :: (v.literal.toList ++ ['\x7d']) := by
    simp [braced]
  have start : step (.assigned name attributes key, nest) '\x7b' =
      some (.computed name attributes key (.plain 0) [], nest) := rfl
  rw [written, run_cons_of start]
  refine run_expression (.computed name attributes key) (fun scan next text c one => ?_) ?_ h
  · simp [step, one]
  · have done : Scan.step (.plain 0) '\x7d' = none := rfl
    simp [step, done, h.2]

/-- A flag is not done before the character after it, so the name that is being read counts. -/
theorem run_attribute [Machine] {a : String × Json} (h : Sayable a) (key : List Char) :
    ∃ given rest, run (.tag name attributes key, nest) (' ' :: (writeAttribute a.1 a.2).toList) =
        some (.tag name given rest, nest) ∧
      flagged given rest = flagged attributes key ++ [a] := by
  obtain ⟨k, v⟩ := a
  have blank : step (.tag name attributes key, nest) ' ' =
      some (.tag name (flagged attributes key) [], nest) := rfl
  have computed : ∀ v, Legible v →
      run (.tag name (flagged attributes key) [], nest) (k ++ "=" ++ braced v.literal).toList =
        some (.tag name (flagged attributes key ++ [(k, v)]) [], nest) := by
    intro v legible
    have written : (k ++ "=" ++ braced v.literal).toList =
        k.toList ++ '=' :: (braced v.literal).toList := by simp
    rw [written, run_equals name _ nest h.word, run_computed name _ nest legible]
  rw [run_cons_of blank]
  rcases h.value with flag | ⟨s, text⟩ | ⟨entries, distinct, fields⟩
  · obtain rfl : v = .bool true := flag
    refine ⟨_, _, run_key name _ nest h.word, ?_⟩
    show flagged _ k.toList = _
    rw [flagged, if_neg h.word.toList_ne_nil, String.ofList_toList]
  · obtain rfl : v = .str s := text
    cases quoted : s.toList.any isUnsafeInQuotes with
    | true =>
      refine ⟨_, [], ?_, rfl⟩
      rw [← computed _ (legible_str s), writeAttribute, if_pos quoted]
    | false =>
      refine ⟨_, [], ?_, rfl⟩
      have written : (k ++ "=\"" ++ s ++ "\"").toList =
          k.toList ++ '=' :: ("\"" ++ s ++ "\"").toList := by simp
      rw [writeAttribute, if_neg (by simp [quoted]), written, run_equals name _ nest h.word,
        run_quoted name _ nest quoted]
  · obtain rfl : v = .obj (Json.texts entries) := fields
    exact ⟨_, [], computed _ (legible_texts distinct), rfl⟩

theorem run_attributes [Machine] {given : Fields Json} (h : ∀ a ∈ given, Sayable a)
    (key : List Char) :
    ∃ found rest, run (.tag name attributes key, nest)
        (given.flatMap fun a => ' ' :: (writeAttribute a.1 a.2).toList) =
        some (.tag name found rest, nest) ∧
      flagged found rest = flagged attributes key ++ given := by
  induction given generalizing attributes key with
  | nil => exact ⟨attributes, key, rfl, by simp⟩
  | cons a given ih =>
    obtain ⟨found, rest, read, one⟩ :=
      run_attribute name attributes nest (h a List.mem_cons_self) key
    obtain ⟨found, rest, more, all⟩ :=
      ih found (fun b hb => h b (List.mem_cons_of_mem a hb)) rest
    refine ⟨found, rest, ?_, by rw [all, one, List.append_assoc, List.singleton_append]⟩
    rw [List.flatMap_cons, run_append_of read, more]

end Attribute

end Sitewright.Markup.Reading
