import Sitewright.Text.Decimal

namespace Sitewright.Text

@[simp] theorem asciiDigit?_digitChar (n : Nat) : asciiDigit? (digitChar n) = some (n % 10) := by
  have digits : ∀ k < 10, asciiDigit? (Char.ofNat (0x30 + k)) = some k := by decide
  exact digits (n % 10) (Nat.mod_lt n (by decide))

@[simp] theorem length_padded (width n : Nat) : (padded width n).length = width := by
  induction width generalizing n with
  | zero => rfl
  | succ width ih => rw [padded, List.length_append, ih, List.length_singleton]

theorem isSome_of_mem_padded {width n : Nat} {c : Char} (h : c ∈ padded width n) :
    (asciiDigit? c).isSome := by
  induction width generalizing n with
  | zero => exact (List.not_mem_nil h).elim
  | succ width ih =>
    obtain before | last := List.mem_append.mp h
    · exact ih before
    · rw [List.mem_singleton.mp last, asciiDigit?_digitChar]
      rfl

theorem ne_of_mem_padded {width n : Nat} {c d : Char} (h : c ∈ padded width n)
    (other : asciiDigit? d = none) : c ≠ d := by
  rintro rfl
  have digit := isSome_of_mem_padded h
  rw [other] at digit
  cases digit

theorem takeNumber?_go_succ (width n : Nat) (cs : List Char) :
    takeNumber?.go (width + 1) n cs =
      (takeNumber?.go width n cs).bind fun p => takeNumber?.go 1 p.1 p.2 := by
  induction width generalizing n cs with
  | zero => rfl
  | succ width ih =>
    cases cs with
    | nil => rfl
    | cons c rest =>
      rw [takeNumber?.go, takeNumber?.go]
      cases asciiDigit? c with
      | none => rfl
      | some digit => exact ih (n * 10 + digit) rest

theorem takeNumber?_go_padded {width n : Nat} (h : n < Nat.pow 10 width) (before : Nat)
    (rest : List Char) :
    takeNumber?.go width before (padded width n ++ rest) =
      some (before * Nat.pow 10 width + n, rest) := by
  induction width generalizing n rest with
  | zero =>
    have none : n = 0 := by simpa using h
    simp [takeNumber?.go, padded, none]
  | succ width ih =>
    have more : Nat.pow 10 (width + 1) = Nat.pow 10 width * 10 := rfl
    have smaller : n / 10 < Nat.pow 10 width := by
      rw [Nat.div_lt_iff_lt_mul (by decide)]
      rwa [more] at h
    rw [takeNumber?_go_succ, padded, List.append_assoc, ih smaller]
    simp only [List.singleton_append, Option.bind_some, takeNumber?.go, asciiDigit?_digitChar,
      Option.bind_eq_bind, Option.some.injEq, Prod.mk.injEq, and_true]
    rw [more]
    have parts := Nat.div_add_mod n 10
    rw [Nat.add_mul, Nat.mul_assoc]
    omega

theorem takeNumber?_padded {width n : Nat} (h : n < Nat.pow 10 width) (rest : List Char) :
    takeNumber? width (padded width n ++ rest) = some (n, rest) := by
  rw [takeNumber?, takeNumber?_go_padded h, Nat.zero_mul, Nat.zero_add]

theorem digitChar_lt_iff {n m : Nat} : digitChar n < digitChar m ↔ n % 10 < m % 10 := by
  have digits : ∀ k < 10, ∀ l < 10, Char.ofNat (0x30 + k) < Char.ofNat (0x30 + l) ↔ k < l := by
    decide
  exact digits _ (Nat.mod_lt n (by decide)) _ (Nat.mod_lt m (by decide))

theorem digitChar_eq_iff {n m : Nat} : digitChar n = digitChar m ↔ n % 10 = m % 10 := by
  have digits : ∀ k < 10, ∀ l < 10, Char.ofNat (0x30 + k) = Char.ofNat (0x30 + l) ↔ k = l := by
    decide
  exact digits _ (Nat.mod_lt n (by decide)) _ (Nat.mod_lt m (by decide))

/-- The first numerals decide, and what follows them where they are the same. -/
theorem padded_append_lt_iff {width n m : Nat} (hn : n < Nat.pow 10 width)
    (hm : m < Nat.pow 10 width) {as bs : List Char} :
    padded width n ++ as < padded width m ++ bs ↔ n < m ∨ n = m ∧ as < bs := by
  induction width generalizing n m as bs with
  | zero =>
    obtain rfl : n = 0 := Nat.lt_one_iff.mp hn
    obtain rfl : m = 0 := Nat.lt_one_iff.mp hm
    simp [padded]
  | succ width ih =>
    have more : Nat.pow 10 (width + 1) = Nat.pow 10 width * 10 := rfl
    rw [more] at hn hm
    rw [padded, padded, List.append_assoc, List.append_assoc,
      ih (Nat.div_lt_of_lt_mul (by omega)) (Nat.div_lt_of_lt_mul (by omega)),
      List.singleton_append, List.singleton_append, List.cons_lt_cons_iff, digitChar_lt_iff,
      digitChar_eq_iff]
    by_cases later : as < bs
    · simp only [later, and_true]
      omega
    · simp only [later, and_false, or_false]
      omega

end Sitewright.Text
