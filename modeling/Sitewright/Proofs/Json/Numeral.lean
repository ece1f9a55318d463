import Mathlib.Data.List.Induction
import Mathlib.Data.List.TakeDrop
import Mathlib.Data.List.TakeWhile
import Sitewright.Json.Reader

namespace Sitewright.Json.Reader

open Text (Fits)

theorem isDigit_of_isDigit {c : Char} (h : c.isDigit = true) : isDigit c = true := by
  simp only [Char.isDigit, Bool.and_eq_true, decide_eq_true_eq, ge_iff_le] at h
  simpa [isDigit, Char.le_def] using h

theorem toNat_sub_lt {c : Char} (h : isDigit c = true) : c.toNat - 0x30 < 10 := by
  simp only [isDigit, Bool.and_eq_true, decide_eq_true_eq, Char.le_def, UInt32.le_iff_toNat_le] at h
  have : c.toNat ≤ 0x39 := h.2
  omega

theorem natOf_eq_ofDigitChars (ds : List Char) : natOf ds = Nat.ofDigitChars 10 ds 0 := by
  rw [natOf, Text.ofDigits, Nat.ofDigitChars_eq_foldl, List.foldl_map]
  simp only [Nat.mul_comm]
  rfl

theorem natOf_append_singleton (ds : List Char) (d : Char) :
    natOf (ds ++ [d]) = natOf ds * 10 + (d.toNat - 0x30) := by
  simp [natOf, Text.ofDigits]

theorem natOf_cons_zero (ds : List Char) : natOf ('0' :: ds) = natOf ds := rfl

theorem natOf_lt {ds : List Char} (h : ∀ d ∈ ds, isDigit d = true) :
    natOf ds < Nat.pow 10 ds.length := by
  induction ds using List.reverseRecOn with
  | nil => decide
  | append_singleton ds d ih =>
    have last := toNat_sub_lt (h d (by simp))
    have before := ih fun e he => h e (by simp [he])
    rw [natOf_append_singleton, List.length_append, List.length_singleton]
    calc natOf ds * 10 + (d.toNat - 0x30) < Nat.pow 10 ds.length * 10 := by omega
      _ = Nat.pow 10 (ds.length + 1) := rfl

theorem length_toDigits_natOf_le {ds : List Char} (h : ∀ d ∈ ds, isDigit d = true)
    (some : 0 < ds.length) : (Nat.toDigits 10 (natOf ds)).length ≤ ds.length :=
  (Nat.length_toDigits_le_iff (by decide) some).mpr (natOf_lt h)

section Digits

variable (n : Nat)

theorem isDigit_of_mem_toDigits : ∀ d ∈ Nat.toDigits 10 n, isDigit d = true := fun _ hd =>
  isDigit_of_isDigit (Nat.isDigit_of_mem_toDigits (by decide) (by decide) hd)

theorem natOf_toDigits : natOf (Nat.toDigits 10 n) = n := by
  rw [natOf_eq_ofDigitChars, Nat.ofDigitChars_ten_toDigits]

theorem exists_toDigits : ∃ d ds, Nat.toDigits 10 n = d :: ds ∧ isDigit d = true := by
  cases same : Nat.toDigits 10 n with
  | nil => exact absurd same Nat.toDigits_ne_nil
  | cons d ds => exact ⟨d, ds, rfl, isDigit_of_mem_toDigits n d (same ▸ List.mem_cons_self)⟩

theorem toDigits_of_head_zero {ds : List Char} (h : Nat.toDigits 10 n = '0' :: ds) : ds = [] := by
  rcases List.eq_nil_or_concat ds with none | ⟨more, last, some⟩
  · exact none
  · have digits := isDigit_of_mem_toDigits n
    have value := natOf_toDigits n
    rw [h] at digits value
    have short := length_toDigits_natOf_le (fun d hd => digits d (List.mem_cons_of_mem _ hd))
      (by simp [some])
    rw [← natOf_cons_zero, value, h, List.length_cons] at short
    omega

end Digits

/-- A character that cannot go on with an integer: no digit, no point and no exponent. -/
def IsStop (c : Char) : Prop := isDigit c = false ∧ c ≠ '.' ∧ c ≠ 'e' ∧ c ≠ 'E'

instance (c : Char) : Decidable (IsStop c) := inferInstanceAs (Decidable (_ ∧ _))

def Stops (rest : List Char) : Prop := ∀ c ∈ rest.head?, IsStop c

theorem isStop_of_isSpace {c : Char} (h : isSpace c = true) : IsStop c := by
  simp only [isSpace, Bool.or_eq_true, decide_eq_true_eq] at h
  rcases h with ((rfl | rfl) | rfl) | rfl
  all_goals decide

theorem not_isSpace_of_isDigit {c : Char} (h : isDigit c = true) : isSpace c = false := by
  rw [← Bool.not_eq_true]
  intro blank
  rw [(isStop_of_isSpace blank).1] at h
  cases h

theorem stops_cons {c : Char} (h : IsStop c) (rest : List Char) : Stops (c :: rest) := by
  rintro _ ⟨⟩
  exact h

variable {rest : List Char}

theorem span_digits {ds : List Char} (digits : ∀ d ∈ ds, isDigit d = true) (stops : Stops rest) :
    (ds ++ rest).span isDigit = (ds, rest) := by
  have none : rest.takeWhile isDigit = [] ∧ rest.dropWhile isDigit = rest := by
    cases rest with
    | nil => exact ⟨rfl, rfl⟩
    | cons c rest =>
      have no := (stops c rfl).1
      simp [no]
  rw [List.span_eq_takeWhile_dropWhile, List.takeWhile_append_of_pos digits,
    List.dropWhile_append_of_pos digits, none.1, none.2, List.append_nil]

theorem whole?_toDigits (n : Nat) (stops : Stops rest) :
    whole? (Nat.toDigits 10 n ++ rest) = some (Nat.toDigits 10 n, rest) := by
  have span := span_digits (isDigit_of_mem_toDigits n) stops
  obtain ⟨d, ds, digits, -⟩ := exists_toDigits n
  rw [digits, List.cons_append] at span ⊢
  by_cases zero : d = '0'
  · subst zero
    rw [toDigits_of_head_zero n digits]
    rfl
  · rw [whole?, span]
    intro ds' same
    exact zero (List.cons.inj same).1

theorem fraction_of_stops (stops : Stops rest) : fraction rest = ([], rest) := by
  cases rest with
  | nil => rfl
  | cons c rest =>
    rw [fraction]
    intro rest' same
    exact (stops c rfl).2.1 (List.cons.inj same).1

theorem exponent?_of_stops (stops : Stops rest) : exponent? rest = none := by
  cases rest with
  | nil => rfl
  | cons c rest =>
    obtain ⟨-, -, lower, upper⟩ := stops c rfl
    simp [exponent?, lower, upper]

theorem unsignedNumber_toDigits (negative : Bool) {n : Nat} (fits : Fits n) (stops : Stops rest) :
    unsignedNumber negative (Nat.toDigits 10 n ++ rest) =
      .ok (.int (if negative then -(n : Int) else n), rest) := by
  rw [Fits, Int.natAbs_natCast] at fits
  rw [unsignedNumber, whole?_toDigits n stops]
  simp only [fraction_of_stops stops, exponent?_of_stops stops, natOf_toDigits,
    List.isEmpty_nil, if_true, if_pos fits]
  rfl

theorem toString_forms (n : Int) :
    (∃ m : Nat, n = m ∧ (toString n).toList = Nat.toDigits 10 m) ∨
      ∃ m : Nat, n = -m ∧ (toString n).toList = '-' :: Nat.toDigits 10 m := by
  rw [Int.toString_eq_repr, Int.repr_eq_if]
  split
  · next positive =>
    exact .inl ⟨n.toNat, by omega, Nat.toList_repr⟩
  · next negative =>
    refine .inr ⟨(-n).toNat, by omega, ?_⟩
    rw [String.toList_append, Nat.toList_repr]
    rfl

theorem toString_injective : Function.Injective (toString : Int → String) := by
  have apart (m k : Nat) : Nat.toDigits 10 m ≠ '-' :: Nat.toDigits 10 k := by
    obtain ⟨d, ds, digits, digit⟩ := exists_toDigits m
    rw [digits]
    intro same
    rw [(List.cons.inj same).1] at digit
    exact absurd digit (by decide)
  have one {m k : Nat} (same : Nat.toDigits 10 m = Nat.toDigits 10 k) : m = k := by
    rw [← natOf_toDigits m, same, natOf_toDigits]
  intro a b same
  have same := congrArg String.toList same
  obtain ⟨m, rfl, written⟩ | ⟨m, rfl, written⟩ := toString_forms a <;>
    obtain ⟨k, rfl, written'⟩ | ⟨k, rfl, written'⟩ := toString_forms b <;>
    rw [written, written'] at same
  · rw [one same]
  · exact absurd same (apart m k)
  · exact absurd same.symm (apart k m)
  · rw [one (List.cons.inj same).2]

theorem number_toString {n : Int} (fits : Fits n) (stops : Stops rest) :
    number ((toString n).toList ++ rest) = .ok (.int n, rest) := by
  rcases toString_forms n with ⟨m, rfl, written⟩ | ⟨m, rfl, written⟩
  · obtain ⟨d, ds, digits, digit⟩ := exists_toDigits m
    have read := unsignedNumber_toDigits false fits stops
    rw [digits, List.cons_append] at read
    rw [written, digits, List.cons_append, number, read]
    · rfl
    · rintro rest' same
      rw [(List.cons.inj same).1] at digit
      exact absurd digit (by decide)
  · rw [Fits, Int.natAbs_neg] at fits
    rw [written]
    exact unsignedNumber_toDigits true fits stops

theorem isDigit_of_whole? {cs ds : List Char} (h : whole? cs = some (ds, rest)) :
    ∀ d ∈ ds, isDigit d = true := by
  unfold whole? at h
  split at h
  · cases h
    simp [isDigit]
  · split at h
    · cases h
    · next same =>
      cases h
      rw [List.span_eq_takeWhile_dropWhile] at same
      rw [← (Prod.mk.inj same).1]
      exact fun d hd => List.mem_takeWhile_imp hd

theorem fits_natOf {ds : List Char} (digits : ∀ d ∈ ds, isDigit d = true)
    (short : ds.length ≤ Text.maxNumeralLength) : Fits (natOf ds) := by
  rw [Fits, Int.natAbs_natCast]
  cases ds with
  | nil => decide
  | cons d ds => exact Nat.le_trans (length_toDigits_natOf_le digits (Nat.succ_pos _)) short

variable {cs : List Char} {v : Json}

/-- What is read is no integer, or one whose numeral is not too long. -/
theorem forms_of_unsignedNumber {negative : Bool}
    (h : unsignedNumber negative cs = .ok (v, rest)) :
    (∃ x, v = .float x) ∨ ∃ n, v = .int n ∧ Fits n := by
  unfold unsignedNumber at h
  split at h
  · next ds after read =>
    simp only at h
    split at h
    · cases h
      exact .inl ⟨_, rfl⟩
    · split at h
      · split at h
        · next short =>
          cases h
          have fits := fits_natOf (isDigit_of_whole? read) short
          refine .inr ⟨_, rfl, ?_⟩
          cases negative
          · exact fits
          · rw [if_pos rfl, Fits, Int.natAbs_neg]
            exact fits
        · cases h
      · cases h
        exact .inl ⟨_, rfl⟩
  · cases h

theorem forms_of_number (h : number cs = .ok (v, rest)) :
    (∃ x, v = .float x) ∨ ∃ n, v = .int n ∧ Fits n := by
  unfold number at h
  split at h
  · exact forms_of_unsignedNumber h
  · exact forms_of_unsignedNumber h

end Sitewright.Json.Reader
