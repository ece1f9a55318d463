import Mathlib.Data.List.TakeWhile
import Sitewright.Proofs.Text.Decimal
import Sitewright.Proofs.Time.Calendar
import Sitewright.Time.Iso

/-!
A date and time written in the international format is read back as it was. Of offsets only those in
whole minutes are considered.
-/

namespace Sitewright.Time

open Text (padded takeNumber? takeNumber?_padded)

namespace Iso

@[simp] theorem dateLength?_dateText (t : DateTime) (c : Char) (rest : List Char) :
    dateLength? (t.dateText ++ c :: rest) = some 10 := by
  have digit : Text.digitChar (t.month / 10) ≠ 'W' :=
    Text.ne_of_mem_padded (by simp [padded] : Text.digitChar (t.month / 10) ∈ padded 2 t.month)
      (by decide)
  have length : (t.dateText ++ c :: rest).length = rest.length + 11 := by
    simp only [DateTime.dateText, List.length_append, List.length_cons, Text.length_padded]
    omega
  have dash : (t.dateText ++ c :: rest)[4]? = some '-' := rfl
  have month : (t.dateText ++ c :: rest)[5]? = some (Text.digitChar (t.month / 10)) := rfl
  simp only [dateLength?, length, dash, month, Option.some.injEq, digit]
  rw [if_neg (by omega), if_neg (by omega)]
  rfl

theorem takeNumber?_padded_nil {width n : Nat} (h : n < Nat.pow 10 width) :
    takeNumber? width (padded width n) = some (n, []) := by
  have whole := takeNumber?_padded h []
  rwa [List.append_nil] at whole

@[simp] theorem date?_dateText {t : DateTime} (valid : t.Valid) :
    date? t.dateText = some (t.year, t.month, t.day) := by
  obtain ⟨year, month, day, -⟩ := DateTime.lt_of_valid valid
  have text : t.dateText =
      padded 4 t.year ++ '-' :: (padded 2 t.month ++ '-' :: padded 2 t.day) := by
    simp [DateTime.dateText]
  rw [date?, text, takeNumber?_padded year]
  simp only [Option.bind_eq_bind, Option.bind_some]
  split
  · next week =>
    have first : Text.digitChar (t.month / 10) = 'W' := (List.cons.inj week).1
    exact absurd first (Text.ne_of_mem_padded
      (by simp [padded] : Text.digitChar (t.month / 10) ∈ padded 2 t.month) (by decide))
  · rw [takeNumber?_padded month]
    simp only [Option.bind_some]
    rw [takeNumber?_padded_nil day]
    rfl

def fraction (micro : Nat) : List Char := if micro == 0 then [] else '.' :: padded 6 micro

theorem fraction?_padded (clock : Clock) {micro : Nat} (h : micro < 1000000) :
    fraction? clock (padded 6 micro) = some { clock with micro, complete := true } := by
  have width : min 6 (padded 6 micro).length = 6 := by rw [Text.length_padded]; rfl
  rw [fraction?, width, takeNumber?_padded_nil h]
  simp [isEnd]

theorem seconds?_padded {clock : Clock} (whole : clock.micro = 0) (complete : clock.complete = true)
    {second micro : Nat} (h : second < 100) (k : micro < 1000000) :
    seconds? true clock (padded 2 second ++ fraction micro) =
      some { clock with second, micro } := by
  rw [seconds?, takeNumber?_padded h]
  simp only [Option.bind_eq_bind, Option.bind_some, fraction]
  by_cases none : micro = 0
  · simp [none, ← whole]
  · have text : (if micro == 0 then [] else '.' :: padded 6 micro) = '.' :: padded 6 micro := by
      simp [none]
    rw [text]
    split
    · next empty => cases empty
    · next single => cases single
    · next c more _ same =>
      obtain ⟨rfl, rfl⟩ := List.cons.inj same
      rw [if_pos (by decide), fraction?_padded _ k, ← complete]

theorem minutes?_padded {clock : Clock} (whole : clock.micro = 0) (complete : clock.complete = true)
    {minute second micro : Nat} (h : minute < 100) (k : second < 100) (l : micro < 1000000) :
    minutes? true clock (padded 2 minute ++ ':' :: (padded 2 second ++ fraction micro)) =
      some { clock with minute, second, micro } := by
  rw [minutes?, takeNumber?_padded h]
  simp only [Option.bind_eq_bind, Option.bind_some]
  split
  · next empty => cases empty
  · next single => cases single
  · next c more _ same =>
    obtain ⟨rfl, rfl⟩ := List.cons.inj same
    rw [if_neg (by decide), if_pos rfl, if_pos trivial]
    exact @seconds?_padded { clock with minute } whole complete _ _ k l

theorem clock?_clockText {t : DateTime} (valid : t.Valid) :
    clock? (t.clockText ++ fraction t.micro) =
      some { hour := t.hour, minute := t.minute, second := t.second, micro := t.micro } := by
  obtain ⟨-, -, -, hour, minute, second, micro⟩ := DateTime.lt_of_valid valid
  have text : t.clockText ++ fraction t.micro = padded 2 t.hour ++
      ':' :: (padded 2 t.minute ++ ':' :: (padded 2 t.second ++ fraction t.micro)) := by
    simp [DateTime.clockText]
  rw [clock?, text, takeNumber?_padded hour]
  simp only [Option.bind_eq_bind, Option.bind_some]
  split
  · next empty => cases empty
  · next single => cases single
  · next c more _ same =>
    obtain ⟨rfl, rfl⟩ := List.cons.inj same
    rw [if_pos rfl]
    exact minutes?_padded rfl rfl minute second micro

theorem clock?_minutes {hour minute : Nat} (h : hour < 100) (k : minute < 100) :
    clock? (padded 2 hour ++ ':' :: padded 2 minute) = some { hour, minute } := by
  rw [clock?, takeNumber?_padded h]
  simp only [Option.bind_eq_bind, Option.bind_some]
  split
  · next empty => cases empty
  · next single => cases single
  · next c more _ same =>
    obtain ⟨rfl, rfl⟩ := List.cons.inj same
    rw [if_pos rfl, minutes?, takeNumber?_padded_nil k]
    rfl

def IsMinutes (offset : Int) : Prop :=
  offset % 60000000 = 0 ∧ -microsPerDay < offset ∧ offset < microsPerDay

theorem offsetText_of_isMinutes {offset : Int} (h : IsMinutes offset) :
    offsetText offset = (if offset < 0 then '-' else '+') ::
      (padded 2 (offset.natAbs / 3600000000) ++
        ':' :: padded 2 (offset.natAbs / 60000000 % 60)) := by
  obtain ⟨minutes, -⟩ := h
  have seconds : offset.natAbs / 1000000 % 60 = 0 := by omega
  have micros : offset.natAbs % 1000000 = 0 := by omega
  simp only [offsetText, seconds, micros, beq_self_eq_true, Bool.and_self, if_true,
    List.append_nil, Nat.div_div_eq_div_mul]
  rfl

theorem offset?_of_isMinutes {offset : Int} (h : IsMinutes offset) :
    offset? (decide (offset < 0)) (padded 2 (offset.natAbs / 3600000000) ++
        ':' :: padded 2 (offset.natAbs / 60000000 % 60)) = some offset := by
  obtain ⟨minutes, low, high⟩ := h
  have day : microsPerDay = 86400000000 := rfl
  have hour : offset.natAbs / 3600000000 < 100 := by omega
  have minute : offset.natAbs / 60000000 % 60 < 100 := by omega
  have size : (((offset.natAbs / 3600000000 * 60 + offset.natAbs / 60000000 % 60) * 60 : Nat) : Int)
      * 1000000 = offset.natAbs := by omega
  rw [offset?, clock?_minutes hour minute]
  simp only [Option.bind_eq_bind, Option.bind_some, Bool.not_true, Nat.add_zero, Int.natCast_zero,
    Int.add_zero, size, beq_iff_eq]
  have amount : (if (offset.natAbs / 3600000000 * 60 + offset.natAbs / 60000000 % 60) * 60 = 0
      then 0 else (offset.natAbs : Int)) = offset.natAbs := by
    split <;> omega
  rw [amount, if_neg Bool.false_ne_true, if_pos (by omega)]
  by_cases negative : offset < 0
  · rw [if_pos (decide_eq_true negative), Int.ofNat_natAbs_of_nonpos (by omega), Int.neg_neg]
    rfl
  · rw [if_neg (by simp [negative]), Int.natAbs_of_nonneg (by omega)]
    rfl

def zone : Option Int → List Char
  | none => []
  | some offset => offsetText offset

theorem not_isZoneMark_clock {t : DateTime} {c : Char}
    (h : c ∈ t.clockText ++ fraction t.micro) : isZoneMark c = false := by
  have digit {width n : Nat} (h : c ∈ padded width n) : isZoneMark c = false := by
    have plus := Text.ne_of_mem_padded h (by decide : Text.asciiDigit? '+' = none)
    have minus := Text.ne_of_mem_padded h (by decide : Text.asciiDigit? '-' = none)
    have universal := Text.ne_of_mem_padded h (by decide : Text.asciiDigit? 'Z' = none)
    simp [isZoneMark, plus, minus, universal]
  have colon : isZoneMark ':' = false := by decide
  have point : isZoneMark '.' = false := by decide
  simp only [DateTime.clockText, fraction, List.mem_append, List.mem_cons] at h
  obtain ((hour | rfl | minute) | rfl | second) | micro := h
  · exact digit hour
  · exact colon
  · exact digit minute
  · exact colon
  · exact digit second
  · split at micro
    · exact (List.not_mem_nil micro).elim
    · obtain rfl | micro := List.mem_cons.mp micro
      · exact point
      · exact digit micro

theorem time?_text {t : DateTime} (valid : t.Valid) (minutes : ∀ o ∈ t.offset, IsMinutes o) :
    time? (t.clockText ++ fraction t.micro ++ zone t.offset) =
      some ({ hour := t.hour, minute := t.minute, second := t.second, micro := t.micro },
        t.offset) := by
  have clock : ∀ c ∈ t.clockText ++ fraction t.micro, (!isZoneMark c) = true :=
    fun c h => by rw [not_isZoneMark_clock h]; rfl
  rw [time?, List.takeWhile_append_of_pos clock, List.dropWhile_append_of_pos clock]
  rcases place : t.offset with _ | offset
  · rw [zone, List.takeWhile_nil, List.append_nil, clock?_clockText valid]
    rfl
  · have whole := minutes offset place
    have mark : (!isZoneMark (if offset < 0 then '-' else '+')) = false := by
      split <;> decide
    rw [zone, offsetText_of_isMinutes whole, List.takeWhile_cons_of_neg (by simp [mark]),
      List.dropWhile_cons_of_neg (by simp [mark]), List.append_nil, clock?_clockText valid]
    have read := offset?_of_isMinutes whole
    simp only [Option.bind_eq_bind, Option.bind_some]
    by_cases negative : offset < 0
    · simp only [negative, decide_true, if_true] at read ⊢
      change (offset? true _).bind _ = _
      rw [read]
      rfl
    · simp only [negative, decide_false, if_false] at read ⊢
      change (offset? false _).bind _ = _
      rw [read]
      rfl

end Iso

open Iso

theorem DateTime.toList_iso (t : DateTime) :
    t.iso.toList = t.dateText ++ 'T' :: (t.clockText ++ fraction t.micro ++ zone t.offset) := by
  rcases place : t.offset with _ | offset <;> simp [iso, fraction, zone, place]

theorem DateTime.ofIso?_iso {t : DateTime} (valid : t.Valid)
    (minutes : ∀ o ∈ t.offset, IsMinutes o) : DateTime.ofIso? t.iso = some t := by
  have length : t.dateText.length = 10 := by
    simp [DateTime.dateText]
  rw [ofIso?, toList_iso, chars?, dateLength?_dateText]
  simp only [Option.bind_eq_bind, Option.bind_some]
  rw [← length, List.take_left, List.drop_left, date?_dateText valid]
  simp only [Option.bind_some]
  rw [time?_text valid minutes]
  exact if_pos valid

end Sitewright.Time
