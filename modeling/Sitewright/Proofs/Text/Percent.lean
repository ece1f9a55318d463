import Mathlib.Data.List.Basic
import Sitewright.Text.Percent

/-!
Texts that are written with escapes and read back. UTF-8 is read as it was written, character by
character, and so is a text of which some characters stand for themselves and the bytes of all
others are escaped.
-/

namespace Sitewright.Text

namespace Utf8

theorem encode_ofList (cs : List Char) :
    encode (String.ofList cs) = cs.flatMap String.utf8EncodeChar := by
  rw [encode, String.toUTF8_eq_toByteArray]
  simp [String.ofList, List.utf8Encode]

theorem toNat_ofNat {n : Nat} (h : n < 256) : (UInt8.ofNat n).toNat = n := by
  simp [Nat.mod_eq_of_lt h]

theorem encodeChar_of_lt {c : Char} (h : c.toNat < 0x80) :
    String.utf8EncodeChar c = [UInt8.ofNat c.toNat] := by
  have small : c.val.toNat ≤ 127 := Nat.le_of_lt_succ h
  simp only [String.utf8EncodeChar, if_pos small]
  rfl

variable (stray : List UInt8 → List Char)

theorem run_cons (state : State) (b : UInt8) (rest : List UInt8) :
    run stray state (b :: rest) =
      (step stray state b).1 ++ run stray (step stray state b).2 rest := by
  cases state <;> rfl

theorem run_encodeChar (c : Char) (rest : List UInt8) :
    run stray .start (String.utf8EncodeChar c ++ rest) = c :: run stray .start rest := by
  have valid : c.toNat < 0xD800 ∨ (0xDFFF < c.toNat ∧ c.toNat < 0x110000) := c.valid
  have same : Char.ofNat c.toNat = c := Char.ofNat_toNat c
  generalize hv : c.toNat = v at valid same
  have value : c.val.toNat = v := hv
  simp only [String.utf8EncodeChar, value]
  split
  · next one =>
    simp (disch := omega) only [List.cons_append, List.nil_append, run_cons, step, begin,
      toNat_ofNat, if_pos]
    rw [same]
  split
  · next many two =>
    have last : (v / 64 % 32 + 192 - 0xC0) * 64 + (v % 64 + 128) % 64 = v := by omega
    simp (disch := omega) only [List.cons_append, List.nil_append, run_cons, step, begin,
      toNat_ofNat, if_pos, if_neg]
    rw [last, same]
  split
  · next many three =>
    have last : ((v / 4096 % 16 + 224 - 0xE0) * 64 + (v / 64 % 64 + 128) % 64) * 64 +
        (v % 64 + 128) % 64 = v := by omega
    have low : (if v / 4096 % 16 + 224 = 0xE0 then 0xA0 else 0x80) ≤ v / 64 % 64 + 128 := by
      split <;> omega
    have high : v / 64 % 64 + 128 ≤ if v / 4096 % 16 + 224 = 0xED then 0x9F else 0xBF := by
      split <;> omega
    simp (disch := omega) only [List.cons_append, List.nil_append, run_cons, step, begin,
      toNat_ofNat, if_pos, if_neg]
    rw [last, same]
  · next many =>
    have last : (((v / 262144 % 8 + 240 - 0xF0) * 64 + (v / 4096 % 64 + 128) % 64) * 64 +
        (v / 64 % 64 + 128) % 64) * 64 + (v % 64 + 128) % 64 = v := by omega
    have low : (if v / 262144 % 8 + 240 = 0xF0 then 0x90 else 0x80) ≤ v / 4096 % 64 + 128 := by
      split <;> omega
    have high : v / 4096 % 64 + 128 ≤ if v / 262144 % 8 + 240 = 0xF4 then 0x8F else 0xBF := by
      split <;> omega
    simp (disch := omega) only [List.cons_append, List.nil_append, run_cons, step, begin,
      toNat_ofNat, if_pos, if_neg]
    rw [last, same]

@[simp] theorem run_encode (cs : List Char) : run stray .start (cs.flatMap String.utf8EncodeChar) = cs := by
  induction cs with
  | nil => rfl
  | cons c rest ih => rw [List.flatMap_cons, run_encodeChar, ih]

@[simp] theorem decode_encode (s : String) : decode (encode s) = s := by
  have encoded : encode s = s.toList.flatMap String.utf8EncodeChar := by
    rw [← encode_ofList, String.ofList_toList]
  rw [decode, decodeWith, encoded, run_encode, String.ofList_toList]

end Utf8

namespace Percent

/-- A character of ASCII that is shown, and that has no meaning of its own in a path. -/
def isPlain (c : Char) : Bool :=
  decide (0x20 < c.toNat) && decide (c.toNat < 0x7F) && !(['%', '/', '?', '#'].contains c)

theorem of_isPlain {c : Char} (h : isPlain c = true) :
    0x20 < c.toNat ∧ c.toNat < 0x7F ∧ c ≠ '%' ∧ c ≠ '?' ∧ c ≠ '#' := by
  simp only [isPlain, Bool.and_eq_true, decide_eq_true_eq, Bool.not_eq_true',
    List.contains_eq_mem, decide_eq_false_iff_not, List.mem_cons, List.not_mem_nil, or_false,
    not_or] at h
  exact ⟨h.1.1, h.1.2, h.2.1, h.2.2.2⟩

def quoteChar (keep : Char → Bool) (c : Char) : List Char :=
  if keep c && isPlain c then [c] else (String.utf8EncodeChar c).flatMap escape

/-- A text with escapes. It is free which plain characters are kept. -/
def quote (keep : Char → Bool) (s : String) : List Char := s.toList.flatMap (quoteChar keep)

theorem bytes_cons {b : UInt8} (h : b ≠ 0x25) (rest : List UInt8) :
    bytes (b :: rest) = b :: bytes rest := by
  match rest with
  | [] => rfl
  | [_] => rfl
  | high :: low :: rest => rw [bytes, escaped?, if_neg h]

def digitByte (n : Nat) : UInt8 := UInt8.ofNat (hexDigit n).toUpper.toNat

theorem encodeChar_hexDigit :
    ∀ n < 16, String.utf8EncodeChar (hexDigit n).toUpper = [digitByte n] := by
  decide

theorem hexValue?_digitByte : ∀ n < 16, hexValue? (Char.ofNat (digitByte n).toNat) = some n := by
  decide

theorem encode_escape (b : UInt8) :
    (escape b).flatMap String.utf8EncodeChar =
      [0x25, digitByte (b.toNat / 16 % 16), digitByte (b.toNat % 16)] := by
  have high := encodeChar_hexDigit (b.toNat / 16 % 16) (Nat.mod_lt _ (by decide))
  have low := encodeChar_hexDigit (b.toNat % 16) (Nat.mod_lt _ (by decide))
  simp only [escape, hexDigits, List.nil_append, List.map_cons, List.map_nil, List.cons_append,
    List.flatMap_cons, List.flatMap_nil, high, low]
  rfl

@[simp] theorem escaped?_digitByte (b : UInt8) :
    escaped? 0x25 (digitByte (b.toNat / 16 % 16)) (digitByte (b.toNat % 16)) = some b := by
  have high := hexValue?_digitByte (b.toNat / 16 % 16) (Nat.mod_lt _ (by decide))
  have low := hexValue?_digitByte (b.toNat % 16) (Nat.mod_lt _ (by decide))
  have small : b.toNat < 256 := b.toNat_lt
  have value : (0 * 16 + b.toNat / 16 % 16) * 16 + b.toNat % 16 = b.toNat := by omega
  have number : hexNumber? [Char.ofNat (digitByte (b.toNat / 16 % 16)).toNat,
      Char.ofNat (digitByte (b.toNat % 16)).toNat] = some b.toNat := by
    simp only [hexNumber?, List.foldlM_cons, List.foldlM_nil, high, low, Option.map_some, value,
      Option.bind_eq_bind, Option.bind_some]
    rfl
  rw [escaped?, if_pos rfl, number, Option.map_some, UInt8.ofNat_toNat]

@[simp] theorem bytes_escape (b : UInt8) (rest : List UInt8) :
    bytes ((escape b).flatMap String.utf8EncodeChar ++ rest) = b :: bytes rest := by
  rw [encode_escape, List.cons_append, List.cons_append, List.cons_append, List.nil_append, bytes,
    escaped?_digitByte]

theorem bytes_escapes (bs rest : List UInt8) :
    bytes ((bs.flatMap escape).flatMap String.utf8EncodeChar ++ rest) = bs ++ bytes rest := by
  induction bs with
  | nil => rfl
  | cons b bs ih =>
    rw [List.flatMap_cons, List.flatMap_append, List.append_assoc, bytes_escape, ih,
      List.cons_append]

theorem bytes_encodeChar {c : Char} (ascii : c.toNat < 0x80) (other : c ≠ '%')
    (rest : List UInt8) :
    bytes (String.utf8EncodeChar c ++ rest) = String.utf8EncodeChar c ++ bytes rest := by
  rw [Utf8.encodeChar_of_lt ascii, List.singleton_append, List.singleton_append]
  apply bytes_cons
  intro same
  apply other
  have value := congrArg UInt8.toNat same
  rw [Utf8.toNat_ofNat (Nat.lt_trans ascii (by decide))] at value
  rw [← Char.ofNat_toNat c, value]
  rfl

theorem bytes_quoteChar (keep : Char → Bool) (c : Char) (rest : List UInt8) :
    bytes ((quoteChar keep c).flatMap String.utf8EncodeChar ++ rest) =
      String.utf8EncodeChar c ++ bytes rest := by
  rw [quoteChar]
  split
  · next kept =>
    obtain ⟨-, ascii, other, -⟩ := of_isPlain (Bool.and_eq_true_iff.mp kept).2
    rw [List.flatMap_singleton]
    exact bytes_encodeChar (Nat.lt_succ_of_lt ascii) other rest
  · exact bytes_escapes _ rest

theorem bytes_quote (keep : Char → Bool) (s : String) :
    bytes ((quote keep s).flatMap String.utf8EncodeChar) =
      s.toList.flatMap String.utf8EncodeChar := by
  rw [quote]
  induction s.toList with
  | nil => rfl
  | cons c rest ih =>
    rw [List.flatMap_cons, List.flatMap_append, bytes_quoteChar, ih, List.flatMap_cons]

theorem decode_append_quote {front : List Char} (plain : ∀ c ∈ front, c.toNat < 0x80 ∧ c ≠ '%')
    (keep : Char → Bool) (s : String) :
    decode (String.ofList (front ++ quote keep s)) = String.ofList (front ++ s.toList) := by
  have read : bytes ((front ++ quote keep s).flatMap String.utf8EncodeChar) =
      (front ++ s.toList).flatMap String.utf8EncodeChar := by
    induction front with
    | nil => exact bytes_quote keep s
    | cons c rest ih =>
      rw [List.forall_mem_cons] at plain
      rw [List.cons_append, List.flatMap_cons, bytes_encodeChar plain.1.1 plain.1.2, ih plain.2,
        List.cons_append, List.flatMap_cons]
  rw [decode, Utf8.encode_ofList, read, Utf8.decode, Utf8.decodeWith, Utf8.run_encode]

/-- What a path is written in: it ends nowhere, and nothing in it is passed over. -/
def IsPathChar (c : Char) : Prop := 0x20 < c.toNat ∧ c ≠ '?' ∧ c ≠ '#'

theorem isPathChar_hexDigit : ∀ n < 16, IsPathChar (hexDigit n).toUpper := by
  unfold IsPathChar
  decide

theorem isPathChar_of_mem_escape {b : UInt8} {c : Char} (h : c ∈ escape b) : IsPathChar c := by
  simp only [escape, hexDigits, List.nil_append, List.map_cons, List.map_nil, List.cons_append,
    List.mem_cons, List.not_mem_nil, or_false] at h
  rcases h with rfl | rfl | rfl
  · unfold IsPathChar
    decide
  · exact isPathChar_hexDigit _ (Nat.mod_lt _ (by decide))
  · exact isPathChar_hexDigit _ (Nat.mod_lt _ (by decide))

theorem isPathChar_of_mem_quote {keep : Char → Bool} {s : String} {c : Char}
    (h : c ∈ quote keep s) : IsPathChar c := by
  obtain ⟨source, -, there⟩ := List.mem_flatMap.mp h
  rw [quoteChar] at there
  split at there
  · next kept =>
    rw [List.mem_singleton] at there
    subst there
    obtain ⟨above, -, -, query, fragment⟩ := of_isPlain (Bool.and_eq_true_iff.mp kept).2
    exact ⟨above, query, fragment⟩
  · obtain ⟨b, -, here⟩ := List.mem_flatMap.mp there
    exact isPathChar_of_mem_escape here

end Percent

end Sitewright.Text
