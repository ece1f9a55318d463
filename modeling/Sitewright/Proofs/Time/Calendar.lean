import Mathlib.Order.Monotone.Basic
import Sitewright.Time.DateTime

/-!
The date of a day number is a date of the calendar and has that number. A wall clock of universal
time therefore shows the instant that it was made of. Days are numbered in the order of their dates.
-/

namespace Sitewright.Time

theorem monthLength_le (year month : Nat) : monthLength year month ≤ 31 := by
  simp only [monthLength]
  split
  · split <;> decide
  all_goals decide

theorem daysBeforeMonth_succ {month : Nat} (h : 1 ≤ month) (year : Nat) :
    daysBeforeMonth year (month + 1) = daysBeforeMonth year month + monthLength year month := by
  obtain ⟨before, rfl⟩ := Nat.exists_eq_add_of_le' h
  rfl

def yearLength (year : Nat) : Nat := if isLeap year then 366 else 365

@[simp] theorem daysBeforeMonth_thirteen (year : Nat) : daysBeforeMonth year 13 = yearLength year := by
  simp only [daysBeforeMonth, monthLength, yearLength]
  split <;> rfl

theorem monthDay_eq {year fuel month d : Nat} (first : 1 ≤ month)
    (enough : daysBeforeMonth year month + d < daysBeforeMonth year (month + fuel + 1)) :
    let date := monthDay year fuel month d
    month ≤ date.1 ∧ date.1 ≤ month + fuel ∧ 1 ≤ date.2 ∧ date.2 ≤ monthLength year date.1 ∧
      daysBeforeMonth year date.1 + (date.2 - 1) = daysBeforeMonth year month + d := by
  -- days are counted on from the first day of a month, and the months that are left are enough
  induction fuel generalizing month d with
  | zero =>
    rw [Nat.add_zero, daysBeforeMonth_succ first] at enough
    simp only [monthDay]
    omega
  | succ fuel ih =>
    have next := daysBeforeMonth_succ first year
    by_cases within : d < monthLength year month
    · rw [monthDay, if_pos within]
      dsimp only
      omega
    · rw [monthDay, if_neg within]
      have enough' : daysBeforeMonth year (month + 1) + (d - monthLength year month) <
          daysBeforeMonth year (month + 1 + fuel + 1) := by
        rw [show month + 1 + fuel + 1 = month + (fuel + 1) + 1 by omega]
        omega
      obtain ⟨low, high, day, last, number⟩ := ih (by omega) enough'
      exact ⟨by omega, by omega, day, last, by omega⟩

/-! Years in the cycle of 400 years: `a` cycles, `b` centuries, `c` spans of four years and `e`
years have passed before the year. -/

section

variable {a b c e : Nat}

theorem daysBeforeYear_cycles (hb : b ≤ 3) (hc : c ≤ 24) (he : e ≤ 3) :
    daysBeforeYear (a * 400 + b * 100 + c * 4 + e + 1) =
      a * 146097 + b * 36524 + c * 1461 + e * 365 := by
  have fours : (a * 400 + b * 100 + c * 4 + e) / 4 = a * 100 + b * 25 + c := by omega
  have centuries : (a * 400 + b * 100 + c * 4 + e) / 100 = a * 4 + b := by omega
  have cycles : (a * 400 + b * 100 + c * 4 + e) / 400 = a := by omega
  simp only [daysBeforeYear, Nat.add_sub_cancel, fours, centuries, cycles]
  omega

theorem isLeap_cycles (hb : b ≤ 3) (hc : c ≤ 24) (he : e ≤ 3) :
    isLeap (a * 400 + b * 100 + c * 4 + e + 1) = true ↔ e = 3 ∧ (c < 24 ∨ b = 3) := by
  simp only [isLeap, Bool.and_eq_true, Bool.or_eq_true, beq_iff_eq, bne_iff_ne]
  omega

end

/-- The last day of a cycle or of a span is the one left over: it falls into a leap year. -/
theorem dateOf_eq {n : Nat} (h : n < calendarDays) :
    ∃ year d, dateOf n = (year, monthDay year 11 1 d) ∧ 1 ≤ year ∧ year ≤ 9999 ∧
      d < yearLength year ∧ daysBeforeYear year + d = n := by
  have bound : n < 3652059 := h
  refine ⟨_, _, rfl, Nat.le_add_left .., ?_⟩
  generalize cycles : n / 146097 = a
  generalize inCycle : n % 146097 = r
  generalize centuries : min (r / 36524) 3 = b
  generalize inCentury : r - b * 36524 = s
  generalize fours : s / 1461 = c
  generalize inFour : s % 1461 = t
  generalize years : min (t / 365) 3 = e
  have hb : b ≤ 3 := by omega
  have hc : c ≤ 24 := by omega
  have he : e ≤ 3 := by omega
  have leap := @isLeap_cycles a b c e hb hc he
  rw [daysBeforeYear_cycles hb hc he]
  refine ⟨by omega, ?_, by omega⟩
  by_cases last : e = 3 ∧ (c < 24 ∨ b = 3)
  · rw [yearLength, if_pos (leap.mpr last)]
    omega
  · rw [yearLength, if_neg (mt leap.mp last)]
    omega

def IsDate (year month day : Nat) : Prop :=
  1 ≤ year ∧ year ≤ 9999 ∧ 1 ≤ month ∧ month ≤ 12 ∧ 1 ≤ day ∧ day ≤ monthLength year month

theorem dateOf_spec {n : Nat} (h : n < calendarDays) :
    IsDate (dateOf n).1 (dateOf n).2.1 (dateOf n).2.2 ∧
      dayNumber (dateOf n).1 (dateOf n).2.1 (dateOf n).2.2 = n := by
  obtain ⟨year, d, date, low, high, short, number⟩ := dateOf_eq h
  have enough : daysBeforeMonth year 1 + d < daysBeforeMonth year (1 + 11 + 1) := by
    rw [daysBeforeMonth_thirteen]
    simpa [daysBeforeMonth] using short
  obtain ⟨first, last, day, within, sum⟩ := monthDay_eq (Nat.le_refl 1) enough
  rw [date]
  refine ⟨⟨low, high, first, last, day, within⟩, ?_⟩
  have none : daysBeforeMonth year 1 = 0 := rfl
  simp only [dayNumber]
  omega

/-! The order of days -/

theorem daysBeforeYear_succ {year : Nat} (h : 1 ≤ year) :
    daysBeforeYear (year + 1) = daysBeforeYear year + yearLength year := by
  obtain ⟨before, rfl⟩ := Nat.exists_eq_add_of_le' h
  have count (span : Nat) : (before + 1) / span =
      before / span + if (before + 1) % span = 0 then 1 else 0 := by
    simp only [Nat.succ_div, Nat.dvd_iff_mod_eq_zero]
  have fewer : before / 100 ≤ before / 4 := Nat.div_le_div_left (by decide) (by decide)
  have fours : (before + 1) % 100 = 0 → (before + 1) % 4 = 0 := by omega
  have centuries : (before + 1) % 400 = 0 → (before + 1) % 100 = 0 := by omega
  simp only [daysBeforeYear, yearLength, isLeap, Nat.add_sub_cancel, count, Bool.and_eq_true,
    Bool.or_eq_true, beq_iff_eq, bne_iff_ne]
  generalize before / 4 = a, before / 100 = b, before / 400 = c at *
  split_ifs <;> omega

theorem daysBeforeYear_mono : Monotone daysBeforeYear := by
  apply monotone_nat_of_le_succ
  intro year
  rcases Nat.eq_zero_or_pos year with rfl | some
  · exact Nat.le_refl _
  · rw [daysBeforeYear_succ some]
    exact Nat.le_add_right _ _

theorem daysBeforeMonth_mono (year : Nat) : Monotone (daysBeforeMonth year) := by
  apply monotone_nat_of_le_succ
  intro month
  rcases Nat.eq_zero_or_pos month with rfl | some
  · exact Nat.le_refl _
  · rw [daysBeforeMonth_succ some]
    exact Nat.le_add_right _ _

section

variable {year month day year' month' day' : Nat}

theorem IsDate.within (h : IsDate year month day) :
    daysBeforeMonth year month + (day - 1) < daysBeforeMonth year (month + 1) ∧
      daysBeforeMonth year (month + 1) ≤ yearLength year := by
  obtain ⟨-, -, first, last, some, within⟩ := h
  constructor
  · rw [daysBeforeMonth_succ first]
    omega
  · rw [← daysBeforeMonth_thirteen]
    exact daysBeforeMonth_mono year (Nat.succ_le_succ last)

theorem IsDate.dayNumber_lt (h : IsDate year month day) :
    dayNumber year month day < daysBeforeYear (year + 1) := by
  have within := h.within
  rw [daysBeforeYear_succ h.1, dayNumber]
  omega

theorem IsDate.dayNumber_lt_calendarDays (h : IsDate year month day) :
    dayNumber year month day < calendarDays := by
  apply Nat.lt_of_lt_of_le h.dayNumber_lt
  exact daysBeforeYear_mono (Nat.succ_le_succ h.2.1)

def Earlier (year month day year' month' day' : Nat) : Prop :=
  year < year' ∨ year = year' ∧ (month < month' ∨ month = month' ∧ day < day')

theorem dayNumber_lt_of_earlier (h : IsDate year month day) (k : IsDate year' month' day')
    (earlier : Earlier year month day year' month' day') :
    dayNumber year month day < dayNumber year' month' day' := by
  rcases earlier with before | ⟨rfl, before | ⟨rfl, before⟩⟩
  · calc dayNumber year month day
      _ < daysBeforeYear (year + 1) := h.dayNumber_lt
      _ ≤ daysBeforeYear year' := daysBeforeYear_mono before
      _ ≤ dayNumber year' month' day' := by
        rw [dayNumber, Nat.add_assoc]
        exact Nat.le_add_right _ _
  · have within := h.within.1
    have later : daysBeforeMonth year (month + 1) ≤ daysBeforeMonth year month' :=
      daysBeforeMonth_mono year before
    simp only [dayNumber]
    omega
  · have some := h.2.2.2.2.1
    simp only [dayNumber]
    omega

theorem dayNumber_lt_iff (h : IsDate year month day) (k : IsDate year' month' day') :
    dayNumber year month day < dayNumber year' month' day' ↔
      Earlier year month day year' month' day' := by
  refine ⟨fun less => ?_, dayNumber_lt_of_earlier h k⟩
  by_contra notEarlier
  have others : Earlier year' month' day' year month day ∨
      year = year' ∧ month = month' ∧ day = day' := by
    unfold Earlier at *
    omega
  rcases others with later | ⟨rfl, rfl, rfl⟩
  · exact Nat.lt_asymm less (dayNumber_lt_of_earlier k h later)
  · exact Nat.lt_irrefl _ less

theorem dayNumber_eq_iff (h : IsDate year month day) (k : IsDate year' month' day') :
    dayNumber year month day = dayNumber year' month' day' ↔
      year = year' ∧ month = month' ∧ day = day' := by
  have before := dayNumber_lt_iff h k
  have after := dayNumber_lt_iff k h
  unfold Earlier at before after
  omega

end

/-! Wall clocks of universal time -/

namespace DateTime

variable {instant : Instant} {t : DateTime}

theorem lt_of_valid (valid : t.Valid) :
    t.year < 10000 ∧ t.month < 100 ∧ t.day < 100 ∧ t.hour < 100 ∧ t.minute < 100 ∧
      t.second < 100 ∧ t.micro < 1000000 := by
  obtain ⟨-, year, -, month, -, day, hour, minute, second, micro, -⟩ := valid
  have short := monthLength_le t.year t.month
  omega

theorem hours_lt {micros : Nat} (h : micros < 86400000000) : micros / 1000000 / 3600 < 24 := by
  omega

theorem clock_eq (micros : Nat) :
    ((micros / 1000000 / 3600 * 60 + micros / 1000000 / 60 % 60) * 60 + micros / 1000000 % 60) *
      1000000 + micros % 1000000 = micros := by
  omega

theorem ofInstant?_eq_some (h : ofInstant? instant = some t) :
    t.Valid ∧ t.offset = some 0 ∧ t.instant = instant := by
  have least := Int.emod_nonneg instant (by decide : microsPerDay ≠ 0)
  have short : (instant % microsPerDay).toNat < 86400000000 :=
    (Int.toNat_lt least).mpr (Int.emod_lt_of_pos instant (by decide))
  rw [ofInstant?] at h
  obtain ⟨within, h⟩ := Option.ite_none_right_eq_some.mp h
  generalize number : instant / microsPerDay + epochDay = day at h within
  generalize inDay : (instant % microsPerDay).toNat = micros at h short
  obtain ⟨n, rfl⟩ := Int.eq_ofNat_of_zero_le within.1
  have date := dateOf_spec (Int.ofNat_lt.mp within.2)
  rw [Int.toNat_natCast] at h
  generalize dateOf n = shown at h date
  obtain ⟨y, m, d⟩ := shown
  obtain ⟨⟨year, year', month, month', first, last⟩, same⟩ := date
  cases h
  have zone : ∀ o ∈ some (0 : Int), -microsPerDay < o ∧ o < microsPerDay := by
    rintro _ ⟨⟩
    decide
  refine ⟨⟨year, year', month, month', first, last, hours_lt short, ?_, ?_, ?_, zone⟩, rfl, ?_⟩
  · exact Nat.mod_lt _ (by decide)
  · exact Nat.mod_lt _ (by decide)
  · exact Nat.mod_lt _ (by decide)
  · have days : (n : Int) - epochDay = instant / microsPerDay := by
      rw [← number, Int.add_sub_cancel]
    have rest : (micros : Int) = instant % microsPerDay := by
      rw [← inDay, Int.toNat_of_nonneg least]
    simp only [DateTime.instant, same, timeOfDay, clock_eq, Option.getD_some]
    rw [days, rest, Int.sub_zero, Int.ediv_mul_add_emod]

theorem exists_ofInstant? (within : 0 ≤ instant / microsPerDay + epochDay ∧
    instant / microsPerDay + epochDay < calendarDays) : ∃ t, ofInstant? instant = some t := by
  rw [ofInstant?, if_pos within]
  generalize dateOf _ = date
  obtain ⟨y, m, d⟩ := date
  exact ⟨_, rfl⟩

end DateTime

end Sitewright.Time
