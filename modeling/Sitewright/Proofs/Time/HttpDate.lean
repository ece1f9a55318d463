import Mathlib.Tactic.IntervalCases
import Sitewright.Proofs.Text.Decimal
import Sitewright.Proofs.Time.Calendar
import Sitewright.Time.DateText
import Sitewright.Time.Freshness

/-!
A date in a header is read back as the second that it was written for. A client that sends it back
therefore knows the second in which a document was written, and nothing finer.
-/

namespace Sitewright.Time

open Text (padded takeNumber? takeNumber?_padded)

namespace HttpDate

@[simp] theorem expect?_append (wanted rest : List Char) : expect? wanted (wanted ++ rest) = some rest := by
  have before : wanted.isPrefixOf (wanted ++ rest) = true :=
    List.isPrefixOf_iff_prefix.mpr (List.prefix_append wanted rest)
  rw [expect?, if_pos before, List.drop_left]

theorem takeName?_weekday {k : Nat} (h : k < 7) (rest : List Char) :
    takeName? weekdayNames 0 ((weekdayNames.getD k "").toList ++ rest) = some (k, rest) := by
  interval_cases k <;> rfl

theorem takeName?_month {k : Nat} (low : 1 ≤ k) (high : k ≤ 12) (rest : List Char) :
    takeName? monthNames 1 ((monthNames.getD (k - 1) "").toList ++ rest) = some (k, rest) := by
  interval_cases k <;> rfl

theorem chars_eq (t : DateTime) : chars t =
    (weekdayNames.getD t.weekday "").toList ++ ([',', ' '] ++ (padded 2 t.day ++ ([' '] ++
      ((monthNames.getD (t.month - 1) "").toList ++ ([' '] ++ (padded 4 t.year ++ ([' '] ++
        (padded 2 t.hour ++ ([':'] ++ (padded 2 t.minute ++ ([':'] ++ (padded 2 t.second ++
          (" GMT".toList ++ []))))))))))))) := by
  simp only [chars, DateTime.clockChars, List.append_assoc, List.cons_append, List.nil_append,
    List.append_nil]

theorem read?_chars {t : DateTime} (valid : t.Valid) (era : 100 ≤ t.year) :
    read? (chars t) = some { t with micro := 0, offset := some 0 } := by
  obtain ⟨year, -, day, hour, minute, second, -⟩ := DateTime.lt_of_valid valid
  have whole : DateTime.Valid { t with micro := 0, offset := some 0 } := by
    obtain ⟨year, year', month, month', first, last, hour, minute, second, -⟩ := valid
    refine ⟨year, year', month, month', first, last, hour, minute, second, Nat.succ_pos _, ?_⟩
    rintro _ ⟨⟩
    decide
  have seven : t.weekday < 7 := Nat.mod_lt _ (by decide)
  rw [chars_eq]
  refine Option.bind_eq_some_iff.mpr ⟨_, takeName?_weekday seven _, ?_⟩
  refine Option.bind_eq_some_iff.mpr ⟨_, expect?_append _ _, ?_⟩
  refine Option.bind_eq_some_iff.mpr ⟨_, @takeNumber?_padded 2 _ day _, ?_⟩
  refine Option.bind_eq_some_iff.mpr ⟨_, expect?_append _ _, ?_⟩
  refine Option.bind_eq_some_iff.mpr ⟨_, takeName?_month valid.2.2.1 valid.2.2.2.1 _, ?_⟩
  refine Option.bind_eq_some_iff.mpr ⟨_, expect?_append _ _, ?_⟩
  refine Option.bind_eq_some_iff.mpr ⟨_, @takeNumber?_padded 4 _ year _, ?_⟩
  refine Option.bind_eq_some_iff.mpr ⟨_, expect?_append _ _, ?_⟩
  refine Option.bind_eq_some_iff.mpr ⟨_, @takeNumber?_padded 2 _ hour _, ?_⟩
  refine Option.bind_eq_some_iff.mpr ⟨_, expect?_append _ _, ?_⟩
  refine Option.bind_eq_some_iff.mpr ⟨_, @takeNumber?_padded 2 _ minute _, ?_⟩
  refine Option.bind_eq_some_iff.mpr ⟨_, expect?_append _ _, ?_⟩
  refine Option.bind_eq_some_iff.mpr ⟨_, @takeNumber?_padded 2 _ second _, ?_⟩
  refine Option.bind_eq_some_iff.mpr ⟨_, expect?_append _ _, ?_⟩
  exact if_pos ⟨rfl, era, whole⟩

end HttpDate

/-! Seconds -/

def secondOf (instant : Instant) : Int := instant / 1000000

theorem secondOf_le {first last : Instant} (h : first ≤ last) : secondOf first ≤ secondOf last :=
  Int.ediv_le_ediv (by decide) h

namespace DateTime

/-- A time within its second, in a zone that is whole seconds away from universal time. -/
structure Legible (t : DateTime) : Prop where
  micro : t.micro < 1000000
  whole : t.offset.getD 0 % 1000000 = 0

theorem legible_of_valid {t : DateTime} (valid : t.Valid) (universal : t.offset.getD 0 = 0) :
    t.Legible := by
  obtain ⟨-, -, -, -, -, -, -, -, -, micro, -⟩ := valid
  exact ⟨micro, by rw [universal, Int.zero_emod]⟩

theorem legible_ofInstant (instant : Instant) : (ofInstant instant).Legible := by
  refine ⟨?_, by rw [offset_ofInstant, Int.zero_emod]⟩
  rw [ofInstant, ofInstant?]
  split
  · exact Nat.mod_lt _ (by decide)
  · decide

theorem Legible.naive {t : DateTime} (h : t.Legible) : t.naive.Legible := ⟨h.micro, rfl⟩

theorem instant_toSecond {t : DateTime} (h : t.Legible) :
    t.toSecond.instant = secondOf t.instant * 1000000 := by
  obtain ⟨micro, whole⟩ := h
  have cut (day clock : Nat) (offset : Int) (whole : offset % 1000000 = 0) :
      ((day : Int) - epochDay) * 86400000000 + (clock * 1000000 + 0 : Nat) - offset =
        (((day : Int) - epochDay) * 86400000000 + (clock * 1000000 + t.micro : Nat) - offset) /
          1000000 * 1000000 := by omega
  simp only [instant, toSecond, timeOfDay, secondOf]
  exact cut _ _ _ whole

theorem isModifiedSince_iff {written known : DateTime} (h : written.Legible) {second : Int}
    (knows : known.toSecond.instant = second * 1000000) :
    written.isModifiedSince known = true ↔ second < secondOf written.instant := by
  rw [isModifiedSince, decide_eq_true_iff, knows, instant_toSecond h]
  exact Int.mul_lt_mul_right (by decide)

end DateTime

def DateText.Names (today : DateTime) (text : String) (second : Int) : Prop :=
  ∃ known, knownTime today (some text) = .ok (some known) ∧ known.HasZone ∧
    known.toSecond.instant = second * 1000000

/-- The date that a header holds for a time is read as the second of that time. -/
def DateText.ReadsBack (today t : DateTime) : Prop :=
  ∀ text, HttpDate.ofDateTime? t = some text → Names today text (secondOf t.instant)

/-- So it is from the year 100 on. A year before that is read as one of this century. -/
theorem DateText.readsBack_of_era {t u : DateTime} (today : DateTime)
    (shown : t.toUniversal? = some u) (era : 100 ≤ u.year) : ReadsBack today t := by
  intro text written
  obtain ⟨valid, universal, same⟩ := DateTime.ofInstant?_eq_some shown
  rw [HttpDate.ofDateTime?, shown, Option.map_some] at written
  obtain rfl := Option.some.inj written
  have there : String.ofList (HttpDate.chars u) ≠ "" := by
    rw [ne_eq, String.ofList_eq_empty_iff, HttpDate.chars_eq, List.append_eq_nil_iff]
    rintro ⟨-, ⟨⟩⟩
  refine ⟨{ u with micro := 0, offset := some 0 }, ?_, ?_, ?_⟩
  · rw [knownTime]
    · rw [read, String.toList_ofList, HttpDate.read?_chars valid era]
      rfl
    · exact there
  · rintro _ ⟨⟩
    decide
  · have legible := DateTime.legible_of_valid valid (by rw [universal]; rfl)
    rw [← same, ← DateTime.instant_toSecond legible, ← universal]
    rfl

end Sitewright.Time
