import Mathlib.Algebra.CharP.Two
import Mathlib.Algebra.Field.ZMod
import Mathlib.Algebra.Polynomial.Div
import Mathlib.Tactic.Ring
import Sitewright.Site.Crc32

/-!
What the checksum of bytes is. Their bits are the coefficients of a polynomial over two elements,
and the checksum is the remainder of it by the generator, where the first 32 bits and those of the
remainder are turned over.
-/

namespace Sitewright.Crc32

open Polynomial Finset

/-! ### Bits as coefficients -/

/-- The polynomial whose coefficients are the bits of a word, the lowest bit for the highest
power. -/
noncomputable def reflected {w : Nat} (x : BitVec w) : (ZMod 2)[X] :=
  ∑ i ∈ range w, if x.getLsbD i then X ^ (w - 1 - i) else 0

section Words

variable {w : Nat} (x y : BitVec w)

theorem degree_reflected : (reflected x).degree < w := by
  refine (degree_sum_le _ _).trans_lt ((Finset.sup_lt_iff (WithBot.bot_lt_coe w)).mpr ?_)
  intro i hi
  rw [mem_range] at hi
  split
  · rw [degree_X_pow]
    exact Nat.cast_lt.mpr (by omega)
  · rw [degree_zero]
    exact WithBot.bot_lt_coe w

theorem coeff_reflected {i : Nat} (h : i < w) :
    (reflected x).coeff (w - 1 - i) = if x.getLsbD i then 1 else 0 := by
  rw [reflected, finsetSum_coeff, sum_eq_single_of_mem i (mem_range.mpr h)]
  · cases x.getLsbD i <;> simp
  · intro j hj ne
    rw [mem_range] at hj
    have other : w - 1 - i ≠ w - 1 - j := by omega
    cases x.getLsbD j <;> simp [coeff_X_pow, other]

theorem reflected_injective {x y : BitVec w} (h : reflected x = reflected y) : x = y := by
  refine BitVec.eq_of_getLsbD_eq fun i hi => ?_
  have same := congrArg (coeff · (w - 1 - i)) h
  simp only [coeff_reflected _ hi] at same
  cases hx : x.getLsbD i <;> cases hy : y.getLsbD i <;> simp [hx, hy] at same ⊢

@[simp] theorem reflected_xor : reflected (x ^^^ y) = reflected x + reflected y := by
  rw [reflected, reflected, reflected, ← sum_add_distrib]
  refine sum_congr rfl fun i _ => ?_
  rw [BitVec.getLsbD_xor]
  cases x.getLsbD i <;> cases y.getLsbD i <;> simp [CharTwo.add_self_eq_zero]

/-- A shift takes off the lowest bit, which is that of the highest power. -/
theorem X_mul_reflected :
    X * reflected x = reflected (x >>> 1) + if x.getLsbD 0 then X ^ w else 0 := by
  cases w with
  | zero => simp [reflected]
  | succ w =>
    rw [reflected, reflected, sum_range_succ', sum_range_succ, mul_add, mul_sum]
    have last : (x >>> 1).getLsbD w = false := by simp
    have others : ∀ i ∈ range w, X * (if x.getLsbD (i + 1) then X ^ (w + 1 - 1 - (i + 1)) else 0) =
        (if (x >>> 1).getLsbD i then X ^ (w + 1 - 1 - i) else 0 : (ZMod 2)[X]) := by
      intro i hi
      rw [mem_range] at hi
      have power : w + 1 - 1 - i = w + 1 - 1 - (i + 1) + 1 := by omega
      rw [BitVec.getLsbD_ushiftRight, Nat.add_comm 1 i, mul_ite, mul_zero, power, pow_succ']
    rw [sum_congr rfl others, last]
    simp [pow_succ']

/-- A shorter word stands for the highest powers of a longer one. -/
theorem reflected_setWidth (k : Nat) : reflected (x.setWidth (w + k)) = X ^ k * reflected x := by
  rw [reflected, reflected, sum_range_add, mul_sum]
  have beyond : ∀ i ∈ range k,
      (if (x.setWidth (w + k)).getLsbD (w + i) then X ^ (w + k - 1 - (w + i)) else 0) =
        (0 : (ZMod 2)[X]) := by
    intro i _
    simp
  rw [sum_eq_zero beyond, add_zero]
  refine sum_congr rfl fun i hi => ?_
  rw [mem_range] at hi
  have within : i < w + k := by omega
  have power : w + k - 1 - i = k + (w - 1 - i) := by omega
  rw [BitVec.getLsbD_setWidth, decide_eq_true within, Bool.true_and, mul_ite, mul_zero, power,
    pow_add]

end Words

/-- What the checksum is taken by. -/
noncomputable def generator : (ZMod 2)[X] :=
  X ^ 32 + (X ^ 26 + X ^ 23 + X ^ 22 + X ^ 16 + X ^ 12 + X ^ 11 + X ^ 10 + X ^ 8 + X ^ 7 + X ^ 5 +
    X ^ 4 + X ^ 2 + X + 1)

theorem generator_eq : generator = X ^ 32 + reflected (0xEDB88320 : BitVec 32) := by
  rw [generator, reflected]
  simp [sum_range_succ]

theorem degree_generator : generator.degree = 32 := by
  have below := degree_reflected (0xEDB88320 : BitVec 32)
  rw [generator_eq, degree_add_eq_left_of_degree_lt] <;> rw [degree_X_pow]
  · rfl
  · exact below

theorem monic_generator : generator.Monic := by
  rw [generator_eq]
  exact monic_X_pow_add (degree_reflected _)

/-! ### Steps of the checksum -/

theorem and_one_eq (s : UInt32) : (s &&& 1 == 1) = s.toBitVec.getLsbD 0 := by
  have low : (s &&& 1).toBitVec = (BitVec.ofBool (s.toBitVec.getLsbD 0)).setWidth 32 := by
    rw [UInt32.toBitVec_and]
    exact BitVec.and_one_eq_setWidth_ofBool_getLsbD
  rw [Bool.eq_iff_iff, beq_iff_eq, ← UInt32.toBitVec_inj, low]
  cases s.toBitVec.getLsbD 0 <;> decide

/-- A step for one bit multiplies by the variable, less a multiple of the generator. -/
theorem reflected_shiftBit (s : UInt32) :
    ∃ q, reflected (shiftBit s).toBitVec = X * reflected s.toBitVec + q * generator := by
  have shifted : (s >>> 1).toBitVec = s.toBitVec >>> 1 := by simp
  rw [shiftBit, and_one_eq, X_mul_reflected]
  cases s.toBitVec.getLsbD 0 with
  | false => exact ⟨0, by simp⟩
  | true =>
    refine ⟨1, ?_⟩
    rw [if_pos rfl, if_pos rfl, UInt32.toBitVec_xor, shifted, reflected_xor, one_mul, generator_eq,
      add_assoc, CharTwo.add_cancel_left]
    rfl

theorem reflected_shiftBits (n : Nat) (s : UInt32) :
    ∃ q, reflected (shiftBits n s).toBitVec = X ^ n * reflected s.toBitVec + q * generator := by
  induction n generalizing s with
  | zero => exact ⟨0, by simp [shiftBits]⟩
  | succ n ih =>
    obtain ⟨q, one⟩ := reflected_shiftBit s
    obtain ⟨r, more⟩ := ih (shiftBit s)
    refine ⟨X ^ n * q + r, ?_⟩
    rw [shiftBits, more, one]
    ring

theorem reflected_step (s : UInt32) (b : UInt8) :
    ∃ q, reflected (step s b).toBitVec =
      X ^ 8 * reflected s.toBitVec + X ^ 32 * reflected b.toBitVec + q * generator := by
  obtain ⟨q, shifted⟩ := reflected_shiftBits 8 (s ^^^ b.toUInt32)
  have wide : reflected b.toUInt32.toBitVec = X ^ 24 * reflected b.toBitVec :=
    reflected_setWidth b.toBitVec 24
  refine ⟨q, ?_⟩
  rw [step, shifted, UInt32.toBitVec_xor, reflected_xor, wide]
  ring

/-- The polynomial of bytes, the first byte for the highest powers. -/
noncomputable def message : List UInt8 → (ZMod 2)[X]
  | [] => 0
  | b :: rest => X ^ (8 * rest.length) * reflected b.toBitVec + message rest

theorem reflected_foldl_step (bytes : List UInt8) (s : UInt32) :
    ∃ q, reflected (bytes.foldl step s).toBitVec =
      X ^ (8 * bytes.length) * reflected s.toBitVec + X ^ 32 * message bytes + q * generator := by
  -- whatever was there before stands for higher powers than the bytes that come
  induction bytes generalizing s with
  | nil => exact ⟨0, by simp [message]⟩
  | cons b rest ih =>
    obtain ⟨q, one⟩ := reflected_step s b
    obtain ⟨r, more⟩ := ih (step s b)
    refine ⟨X ^ (8 * rest.length) * q + r, ?_⟩
    rw [List.foldl_cons, more, one, message, List.length_cons]
    ring

/-- The remainder of bytes by the generator, where their first 32 bits are turned over, and then
those of the remainder. -/
def IsChecksum (sum : Nat) (bytes : List UInt8) : Prop :=
  sum < 2 ^ 32 ∧ reflected (BitVec.ofNat 32 sum) + reflected (BitVec.allOnes 32) =
    (X ^ (8 * bytes.length) * reflected (BitVec.allOnes 32) + X ^ 32 * message bytes) %ₘ generator

theorem isChecksum_iff {sum : Nat} {bytes : List UInt8} :
    IsChecksum sum bytes ↔ sum = (checksum bytes).toNat := by
  have whole : IsChecksum (checksum bytes).toNat bytes := by
    have ones : (0xFFFFFFFF : UInt32).toBitVec = BitVec.allOnes 32 := rfl
    have kept : BitVec.ofNat 32 (checksum bytes).toNat = (checksum bytes).toBitVec := by simp
    obtain ⟨q, folded⟩ := reflected_foldl_step bytes 0xFFFFFFFF
    have small := degree_reflected (bytes.foldl step 0xFFFFFFFF).toBitVec
    refine ⟨(checksum bytes).toNat_lt, ?_⟩
    rw [kept, checksum, UInt32.toBitVec_xor, reflected_xor, ones, CharTwo.add_cancel_right]
    refine (div_modByMonic_unique q _ monic_generator ⟨?_, ?_⟩).2.symm
    · rw [folded, ones, mul_comm generator q, CharTwo.add_cancel_right]
    · rw [degree_generator]
      exact small
  constructor
  · rintro ⟨small, same⟩
    rw [← whole.2] at same
    have same := congrArg BitVec.toNat (reflected_injective (add_right_cancel same))
    rwa [BitVec.toNat_ofNat, BitVec.toNat_ofNat, Nat.mod_eq_of_lt small,
      Nat.mod_eq_of_lt whole.1] at same
  · rintro rfl
    exact whole

example : checksum (String.toUTF8 "123456789").data.toList = 0xCBF43926 := by decide +kernel

end Sitewright.Crc32
