import Sitewright.Error
import Sitewright.Json.Reader
import Sitewright.Json.Writer

namespace Sitewright

namespace Text

theorem hexValue?_hexDigit : ∀ n < 16, hexValue? (hexDigit n) = some n := by decide

theorem hexNumber?_hexDigits {n : Nat} (h : n < 0x10000) : hexNumber? (hexDigits 4 n) = some n := by
  have digit (n : Nat) : hexValue? (hexDigit (n % 16)) = some (n % 16) :=
    hexValue?_hexDigit _ (Nat.mod_lt n (by omega))
  simp only [hexDigits, List.nil_append, List.cons_append, hexNumber?, List.foldlM_cons,
    List.foldlM_nil, digit, Option.map_some, Option.bind_eq_bind, Option.bind_some, Option.pure_def,
    Option.some.injEq]
  omega

namespace Utf16

@[simp] theorem isHigh_toNat (c : Char) : isHigh c.toNat = false := by
  have valid : c.toNat < 0xD800 ∨ 0xDFFF < c.toNat ∧ c.toNat < 0x110000 := c.valid
  simp only [isHigh, Bool.and_eq_false_iff, decide_eq_false_iff_not]
  omega

@[simp] theorem single?_toNat (c : Char) : single? c.toNat = some c := by
  have valid : c.toNat < 0xD800 ∨ 0xDFFF < c.toNat ∧ c.toNat < 0x110000 := c.valid
  have low : isLow c.toNat = false := by
    simp only [isLow, Bool.and_eq_false_iff, decide_eq_false_iff_not]
    omega
  rw [single?, isHigh_toNat, low, Bool.false_or, if_neg Bool.false_ne_true, Char.ofNat_toNat]

theorem decode?_toNat (c : Char) (rest : List Nat) :
    decode? (c.toNat :: rest) = (decode? rest).map (c :: ·) := by
  cases rest with
  | nil => simp only [decode?, single?_toNat, Option.map_some]; rfl
  | cons n rest =>
    rw [decode?, isHigh_toNat, Bool.false_and, if_neg Bool.false_ne_true, single?_toNat]
    cases decode? (n :: rest) <;> rfl

/-- The two units of a character beyond the first plane. -/
def pair (n : Nat) : List Nat := [0xD800 + (n - 0x10000) / 0x400, 0xDC00 + (n - 0x10000) % 0x400]

theorem decode?_pair {c : Char} (beyond : 0x10000 ≤ c.toNat) (rest : List Nat) :
    decode? (pair c.toNat ++ rest) = (decode? rest).map (c :: ·) := by
  have valid : c.toNat < 0xD800 ∨ 0xDFFF < c.toNat ∧ c.toNat < 0x110000 := c.valid
  have high : isHigh (0xD800 + (c.toNat - 0x10000) / 0x400) = true := by
    simp only [isHigh, Bool.and_eq_true, decide_eq_true_eq]
    omega
  have low : isLow (0xDC00 + (c.toNat - 0x10000) % 0x400) = true := by
    simp only [isLow, Bool.and_eq_true, decide_eq_true_eq]
    omega
  have whole : 0x10000 + (0xD800 + (c.toNat - 0x10000) / 0x400 - 0xD800) * 0x400 +
      (0xDC00 + (c.toNat - 0x10000) % 0x400 - 0xDC00) = c.toNat := by omega
  rw [pair, List.cons_append, List.cons_append, List.nil_append, decode?, high, low, Bool.true_and,
    if_pos rfl, whole, Char.ofNat_toNat]
  cases decode? rest <;> rfl

end Utf16

end Text

namespace Json

open Reader

/-- What a character is read as: its two code units if it is written by them, and otherwise its code
point. -/
def unitsOf (ascii : Bool) (c : Char) : List Nat :=
  if ascii && decide (0x10000 ≤ c.toNat) then Text.Utf16.pair c.toNat else [c.toNat]

theorem unitsOf_of_le {ascii : Bool} {c : Char} (h : ascii = true → c.toNat ≤ 0x7E) :
    unitsOf ascii c = [c.toNat] := by
  rw [unitsOf, if_neg]
  simp only [Bool.and_eq_true, decide_eq_true_eq, not_and]
  intro only
  have := h only
  omega

theorem decode?_unitsOf (ascii : Bool) (c : Char) (rest : List Nat) :
    Text.Utf16.decode? (unitsOf ascii c ++ rest) = (Text.Utf16.decode? rest).map (c :: ·) := by
  rw [unitsOf]
  split
  · next paired =>
    simp only [Bool.and_eq_true, decide_eq_true_eq] at paired
    exact Text.Utf16.decode?_pair paired.2 rest
  · exact Text.Utf16.decode?_toNat c rest

@[simp] theorem decode?_flatMap_unitsOf (ascii : Bool) (cs : List Char) :
    Text.Utf16.decode? (cs.flatMap (unitsOf ascii)) = some cs := by
  induction cs with
  | nil => rfl
  | cons c cs ih => rw [List.flatMap_cons, decode?_unitsOf, ih, Option.map_some]

theorem units_unitEscape {n : Nat} (h : n < 0x10000) (cs : List Char) :
    units (unitEscape n ++ cs) = (units cs).map fun p => (n :: p.1, p.2) := by
  obtain ⟨a, b, c, d, digits⟩ : ∃ a b c d, Text.hexDigits 4 n = [a, b, c, d] :=
    ⟨_, _, _, _, rfl⟩
  have read : hexUnit? a b c d = some n := by
    rw [hexUnit?, ← digits, Text.hexNumber?_hexDigits h]
  simp only [unitEscape, digits, List.cons_append, List.nil_append, units, read]
  cases units cs <;> rfl

theorem escapeChar_forms (ascii : Bool) (c : Char) :
    (∃ e, e ≠ 'u' ∧ escaped? e = some c ∧ c.toNat ≤ 0x7E ∧ escapeChar ascii c = ['\\', e]) ∨
    ((c.toNat < 0x20 ∨ ascii = true) ∧ escapeChar ascii c = codePointEscape c.toNat) ∨
    (c ≠ '"' ∧ c ≠ '\\' ∧ 0x20 ≤ c.toNat ∧ (ascii = true → c.toNat ≤ 0x7E) ∧
      escapeChar ascii c = [c]) := by
  by_cases named : c ∈ ['"', '\\', '\n', '\r', '\t', '\x08', '\x0c']
  · simp only [List.mem_cons, List.not_mem_nil, or_false] at named
    rcases named with rfl | rfl | rfl | rfl | rfl | rfl | rfl
    all_goals exact .inl ⟨_, by decide, rfl, by decide, rfl⟩
  · simp only [List.mem_cons, List.not_mem_nil, or_false, not_or] at named
    by_cases coded : c.toNat < 0x20 || (ascii && 0x7E < c.toNat)
    · refine .inr (.inl ⟨?_, by simp [escapeChar, named, coded]⟩)
      simp only [Bool.or_eq_true, Bool.and_eq_true, decide_eq_true_eq] at coded
      exact coded.imp_right And.left
    · refine .inr (.inr ⟨named.1, named.2.1, ?_, ?_, by simp [escapeChar, named, coded]⟩)
      all_goals
        simp only [Bool.or_eq_true, Bool.and_eq_true, decide_eq_true_eq, not_or, not_and] at coded
      · omega
      · intro only
        have := coded.2 only
        omega

theorem escapeChar_cases (c : Char) :
    (∃ e, e ≠ 'u' ∧ escaped? e = some c ∧ escapeChar false c = ['\\', e]) ∨
    (c.toNat < 0x20 ∧ escapeChar false c = unitEscape c.toNat) ∨
    (c ≠ '"' ∧ c ≠ '\\' ∧ 0x20 ≤ c.toNat ∧ escapeChar false c = [c]) := by
  rcases escapeChar_forms false c with ⟨e, plain, named, -, written⟩ | ⟨control, written⟩ |
    ⟨quote, backslash, ge, -, written⟩
  · exact .inl ⟨e, plain, named, written⟩
  · have control : c.toNat < 0x20 := by simpa using control
    rw [codePointEscape, if_pos (by omega)] at written
    exact .inr (.inl ⟨control, written⟩)
  · exact .inr (.inr ⟨quote, backslash, ge, written⟩)

theorem units_codePointEscape {ascii : Bool} {c : Char} (h : c.toNat < 0x20 ∨ ascii = true)
    (cs : List Char) :
    units (codePointEscape c.toNat ++ cs) =
      (units cs).map fun p => (unitsOf ascii c ++ p.1, p.2) := by
  have valid : c.toNat < 0xD800 ∨ 0xDFFF < c.toNat ∧ c.toNat < 0x110000 := c.valid
  rw [codePointEscape, unitsOf]
  by_cases first : c.toNat < 0x10000
  · have whole : (ascii && decide (0x10000 ≤ c.toNat)) = false := by
      simp only [Bool.and_eq_false_iff, decide_eq_false_iff_not]
      omega
    rw [if_pos first, whole, if_neg Bool.false_ne_true, units_unitEscape first]
    rfl
  · have paired : (ascii && decide (0x10000 ≤ c.toNat)) = true := by
      rw [h.resolve_left (by omega), Bool.true_and, decide_eq_true_eq]
      omega
    rw [if_neg first, if_pos paired, List.append_assoc, units_unitEscape (by omega),
      units_unitEscape (by omega), Option.map_map]
    rfl

theorem units_escapeChar (ascii : Bool) (c : Char) (cs : List Char) :
    units (escapeChar ascii c ++ cs) = (units cs).map fun p => (unitsOf ascii c ++ p.1, p.2) := by
  rcases escapeChar_forms ascii c with ⟨e, plain, named, low, written⟩ | ⟨coded, written⟩ |
    ⟨noQuote, noBackslash, printable, low, written⟩
  · rw [unitsOf_of_le fun _ => low, written, List.cons_append, List.cons_append, List.nil_append,
      units]
    · rw [named]
      cases units cs <;> rfl
    · exact fun _ _ _ _ _ same _ => plain same
  · rw [written, units_codePointEscape coded]
  · rw [unitsOf_of_le low, written, List.cons_append, List.nil_append, units]
    · rw [if_neg (by simp [noBackslash, printable])]
      cases units cs <;> rfl
    · exact noQuote
    · exact fun _ _ _ _ _ same _ => noBackslash same
    · exact fun _ _ same _ => noBackslash same

theorem units_flatMap_escapeChar (ascii : Bool) (cs rest : List Char) :
    units (cs.flatMap (escapeChar ascii) ++ '"' :: rest) =
      some (cs.flatMap (unitsOf ascii), rest) := by
  induction cs with
  | nil => rfl
  | cons c cs ih =>
    rw [List.flatMap_cons, List.append_assoc, units_escapeChar, ih]
    rfl

theorem toList_stringText (ascii : Bool) (s : String) :
    (stringText ascii s).toList = '"' :: (s.toList.flatMap (escapeChar ascii) ++ ['"']) := by
  simp [stringText]

theorem string_flatMap_escapeChar (ascii : Bool) (s : String) (rest : List Char) :
    string (s.toList.flatMap (escapeChar ascii) ++ '"' :: rest) = .ok (s, rest) := by
  rw [string, units_flatMap_escapeChar]
  simp

end Json

end Sitewright
