import Mathlib.Data.String.Basic
import Sitewright.Proofs.Text.Decimal
import Sitewright.Proofs.Time.Calendar
import Sitewright.Time.Iso

namespace Sitewright.Time

open Text (padded)

/-! Days and milliseconds -/

def millisecondOf (instant : Instant) : Int := instant / 1000

namespace DateTime

variable {t u v : DateTime}

theorem isDate_of_valid (h : t.Valid) : IsDate t.year t.month t.day := by
  obtain ⟨year, year', month, month', first, last, -⟩ := h
  exact ⟨year, year', month, month', first, last⟩

theorem timeOfDay_lt (h : t.Valid) : t.timeOfDay < 86400000000 := by
  obtain ⟨-, -, -, -, -, -, hour, minute, second, micro, -⟩ := h
  unfold timeOfDay
  omega

theorem dayOf_instant (h : t.Valid) (universal : t.offset = some 0) :
    t.instant / microsPerDay + epochDay = dayNumber t.year t.month t.day := by
  have whole (day clock : Nat) (short : clock < 86400000000) :
      (((day : Int) - epochDay) * 86400000000 + clock - 0) / 86400000000 + epochDay = day := by
    omega
  simp only [instant, universal]
  exact whole _ _ (timeOfDay_lt h)

def millisecondOfDay (t : DateTime) : Nat :=
  ((t.hour * 60 + t.minute) * 60 + t.second) * 1000 + t.micro / 1000

theorem millisecondOfDay_lt (h : t.Valid) : t.millisecondOfDay < 86400000 := by
  obtain ⟨-, -, -, -, -, -, hour, minute, second, micro, -⟩ := h
  unfold millisecondOfDay
  omega

theorem millisecondOf_instant (universal : t.offset = some 0) :
    millisecondOf t.instant =
      ((dayNumber t.year t.month t.day : Int) - epochDay) * 86400000 + t.millisecondOfDay := by
  have cut (day clock micro : Nat) :
      (((day : Int) - epochDay) * 86400000000 + (clock * 1000000 + micro : Nat) - 0) / 1000 =
        ((day : Int) - epochDay) * 86400000 + (clock * 1000 + micro / 1000 : Nat) := by omega
  simp only [millisecondOf, instant, timeOfDay, millisecondOfDay, universal]
  exact cut _ _ _

def EarlierInDay (u v : DateTime) : Prop :=
  u.hour < v.hour ∨ u.hour = v.hour ∧ (u.minute < v.minute ∨ u.minute = v.minute ∧
    (u.second < v.second ∨ u.second = v.second ∧ u.micro / 1000 < v.micro / 1000))

theorem millisecondOfDay_lt_iff (hu : u.Valid) (hv : v.Valid) :
    u.millisecondOfDay < v.millisecondOfDay ↔ EarlierInDay u v := by
  obtain ⟨-, -, -, -, -, -, -, minute, second, micro, -⟩ := hu
  obtain ⟨-, -, -, -, -, -, -, minute', second', micro', -⟩ := hv
  unfold millisecondOfDay EarlierInDay
  omega

theorem millisecondOf_lt_iff (hu : u.Valid) (hv : v.Valid) (universal : u.offset = some 0)
    (universal' : v.offset = some 0) :
    millisecondOf u.instant < millisecondOf v.instant ↔
      Earlier u.year u.month u.day v.year v.month v.day ∨
        (u.year = v.year ∧ u.month = v.month ∧ u.day = v.day) ∧ EarlierInDay u v := by
  have day := millisecondOfDay_lt hu
  have day' := millisecondOfDay_lt hv
  rw [millisecondOf_instant universal, millisecondOf_instant universal',
    ← dayNumber_lt_iff (isDate_of_valid hu) (isDate_of_valid hv),
    ← dayNumber_eq_iff (isDate_of_valid hu) (isDate_of_valid hv),
    ← millisecondOfDay_lt_iff hu hv]
  omega

/-! Stamps -/

def stampChars (u : DateTime) : List Char :=
  u.dateText ++ 'T' :: u.clockText ++ '.' :: padded 3 (u.micro / 1000) ++ ['Z']

theorem stampChars_eq (u : DateTime) : u.stampChars =
    padded 4 u.year ++ '-' :: (padded 2 u.month ++ '-' :: (padded 2 u.day ++ 'T' ::
      (padded 2 u.hour ++ ':' :: (padded 2 u.minute ++ ':' :: (padded 2 u.second ++ '.' ::
        (padded 3 (u.micro / 1000) ++ ['Z'])))))) := by
  simp [stampChars, dateText, clockText]

theorem stampChars_lt_iff (hu : u.Valid) (hv : v.Valid) :
    u.stampChars < v.stampChars ↔
      Earlier u.year u.month u.day v.year v.month v.day ∨
        (u.year = v.year ∧ u.month = v.month ∧ u.day = v.day) ∧ EarlierInDay u v := by
  obtain ⟨year, month, day, hour, minute, second, micro⟩ := lt_of_valid hu
  obtain ⟨year', month', day', hour', minute', second', micro'⟩ := lt_of_valid hv
  have milli : u.micro / 1000 < 1000 := by omega
  have milli' : v.micro / 1000 < 1000 := by omega
  rw [stampChars_eq, stampChars_eq]
  simp only [List.cons_lt_cons_self, @Text.padded_append_lt_iff 4 _ _ year year',
    @Text.padded_append_lt_iff 2 _ _ month month', @Text.padded_append_lt_iff 2 _ _ day day',
    @Text.padded_append_lt_iff 2 _ _ hour hour', @Text.padded_append_lt_iff 2 _ _ minute minute',
    @Text.padded_append_lt_iff 2 _ _ second second', @Text.padded_append_lt_iff 3 _ _ milli milli',
    List.lt_irrefl, and_false, or_false]
  unfold Earlier EarlierInDay
  omega

/-- Some wall clock of universal time shows the moment: its year there has four digits. -/
def InCalendar (t : DateTime) : Prop :=
  ∃ u : DateTime, u.Valid ∧ u.offset = some 0 ∧ u.instant = t.instant

theorem exists_toUniversal (h : t.InCalendar) :
    ∃ u, t.toUniversal? = some u ∧ u.Valid ∧ u.offset = some 0 ∧ u.instant = t.instant := by
  obtain ⟨shown, valid, universal, same⟩ := h
  have date := (isDate_of_valid valid).dayNumber_lt_calendarDays
  have within : 0 ≤ t.instant / microsPerDay + epochDay ∧
      t.instant / microsPerDay + epochDay < calendarDays := by
    rw [← same, dayOf_instant valid universal]
    exact ⟨Int.natCast_nonneg _, Int.ofNat_lt.mpr date⟩
  obtain ⟨u, found⟩ := exists_ofInstant? within
  exact ⟨u, found, ofInstant?_eq_some found⟩

theorem exists_stamp (h : t.InCalendar) :
    ∃ u : DateTime, t.stamp? = some (String.ofList u.stampChars) ∧ u.Valid ∧
      u.offset = some 0 ∧ u.instant = t.instant := by
  obtain ⟨u, shown, valid, universal, same⟩ := exists_toUniversal h
  exact ⟨u, by rw [stamp?, shown]; rfl, valid, universal, same⟩

/-- Two times with a year of four digits in universal time have stamps, and these sort by the
milliseconds that the times fall in. Whatever the zone a moment is given in, its stamp is one. -/
theorem stamp_le_iff {a b : DateTime} (ha : a.InCalendar) (hb : b.InCalendar) :
    ∃ s t, a.stamp? = some s ∧ b.stamp? = some t ∧
      (s ≤ t ↔ millisecondOf a.instant ≤ millisecondOf b.instant) ∧
      (s = t ↔ millisecondOf a.instant = millisecondOf b.instant) ∧
      ∀ c : DateTime, c.instant = a.instant → c.stamp? = some s := by
  obtain ⟨u, first, hu, universal, same⟩ := exists_stamp ha
  obtain ⟨v, second, hv, universal', same'⟩ := exists_stamp hb
  have before : String.ofList u.stampChars < String.ofList v.stampChars ↔
      millisecondOf a.instant < millisecondOf b.instant := by
    rw [String.lt_iff_toList_lt, String.toList_ofList, String.toList_ofList,
      stampChars_lt_iff hu hv, ← millisecondOf_lt_iff hu hv universal universal', same, same']
  have after : String.ofList v.stampChars < String.ofList u.stampChars ↔
      millisecondOf b.instant < millisecondOf a.instant := by
    rw [String.lt_iff_toList_lt, String.toList_ofList, String.toList_ofList,
      stampChars_lt_iff hv hu, ← millisecondOf_lt_iff hv hu universal' universal, same, same']
  refine ⟨_, _, first, second, ?_, ?_, ?_⟩
  · rw [← not_lt, after, not_lt]
  · rw [le_antisymm_iff, ← not_lt, ← not_lt, before, after]
    omega
  · intro c moment
    rw [← first, stamp?, stamp?, toUniversal?, toUniversal?, moment]

/-- On the first of March where it is given, and on a leap day in universal time. -/
def easternTime : DateTime where
  year := 2024
  month := 3
  day := 1
  minute := 30
  micro := 999
  offset := some 3600000000

/-- One microsecond later, in no zone. -/
def leapDayTime : DateTime where
  year := 2024
  month := 2
  day := 29
  hour := 23
  minute := 30
  micro := 1000

theorem stamp_le_iff_leapDay :
    (easternTime.InCalendar ∧ leapDayTime.InCalendar) ∧
    easternTime.stamp? = some "2024-02-29T23:30:00.000Z" ∧
    leapDayTime.stamp? = some "2024-02-29T23:30:00.001Z" ∧
    "2024-02-29T23:30:00.000Z" ≤ "2024-02-29T23:30:00.001Z" := by
  have eastern : easternTime.InCalendar :=
    ⟨{ leapDayTime with micro := 999, offset := some 0 }, by decide, rfl, by decide⟩
  have leapDay : leapDayTime.InCalendar :=
    ⟨{ leapDayTime with offset := some 0 }, by decide, rfl, by decide⟩
  have first : easternTime.stamp? = some "2024-02-29T23:30:00.000Z" := by decide
  have second : leapDayTime.stamp? = some "2024-02-29T23:30:00.001Z" := by decide
  obtain ⟨s, t, hs, ht, sorted, -⟩ := stamp_le_iff eastern leapDay
  obtain rfl := Option.some.inj (first.symm.trans hs)
  obtain rfl := Option.some.inj (second.symm.trans ht)
  exact ⟨⟨eastern, leapDay⟩, first, second, sorted.mpr (by decide)⟩

end DateTime

end Sitewright.Time
