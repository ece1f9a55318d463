import Sitewright.Time.Calendar

/-!
Dates with a time of day, in a zone given by its distance from universal time or in no zone. A time
in no zone is read as universal time.
-/

namespace Sitewright.Time

structure DateTime where
  year : Nat
  month : Nat
  day : Nat
  hour : Nat := 0
  minute : Nat := 0
  second : Nat := 0
  micro : Nat := 0
  /-- Microseconds east of universal time. -/
  offset : Option Int := none
  deriving DecidableEq, Repr, Inhabited

namespace DateTime

/-- No zone is a day or more away from universal time. -/
def HasZone (t : DateTime) : Prop := ∀ o ∈ t.offset, -microsPerDay < o ∧ o < microsPerDay

instance (t : DateTime) : Decidable t.HasZone := by
  unfold HasZone
  infer_instance

def Valid (t : DateTime) : Prop :=
  1 ≤ t.year ∧ t.year ≤ 9999 ∧ 1 ≤ t.month ∧ t.month ≤ 12 ∧ 1 ≤ t.day ∧
    t.day ≤ monthLength t.year t.month ∧ t.hour < 24 ∧ t.minute < 60 ∧ t.second < 60 ∧
    t.micro < 1000000 ∧ t.HasZone

instance (t : DateTime) : Decidable t.Valid := by
  unfold Valid
  infer_instance

def timeOfDay (t : DateTime) : Nat :=
  ((t.hour * 60 + t.minute) * 60 + t.second) * 1000000 + t.micro

/-- The point in time, with the wall clock read in no zone as universal time. -/
def instant (t : DateTime) : Instant :=
  ((dayNumber t.year t.month t.day : Int) - epochDay) * microsPerDay + t.timeOfDay -
    t.offset.getD 0

def naive (t : DateTime) : DateTime := { t with offset := none }

def zoned (t : DateTime) : DateTime := { t with offset := some (t.offset.getD 0) }

/-- The wall clock of universal time at a point in time, if its year has four digits. -/
def ofInstant? (instant : Instant) : Option DateTime :=
  let day := instant / microsPerDay + epochDay
  let micros := (instant % microsPerDay).toNat
  if 0 ≤ day ∧ day < calendarDays then
    let (year, month, d) := dateOf day.toNat
    let seconds := micros / 1000000
    some
      { year, month, day := d
        hour := seconds / 3600
        minute := seconds / 60 % 60
        second := seconds % 60
        micro := micros % 1000000
        offset := some 0 }
  else none

def toUniversal? (t : DateTime) : Option DateTime := ofInstant? t.instant

def ofInstant (instant : Instant) : DateTime := (ofInstant? instant).getD default

@[simp] theorem offset_ofInstant (instant : Instant) : (ofInstant instant).offset.getD 0 = 0 := by
  simp only [ofInstant, ofInstant?]
  split <;> rfl

end DateTime

end Sitewright.Time
