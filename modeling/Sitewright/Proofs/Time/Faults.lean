import Sitewright.Proofs.Foreseen
import Sitewright.Time.DateText
import Sitewright.Time.MailDate

namespace Sitewright.Time

namespace MailDate

/-- A part of a date, or the distance of its zone in days, that nothing has room for. -/
def Numbers.Overflows (n : Numbers) : Prop :=
  let days := Int.fdiv (n.zone.getD 0) 86400
  days < -maxDays ∨ maxDays < days ∨
    ∃ part ∈ [n.year, n.day, n.hour, n.minute, n.second], isHuge part = true

def Overflows (s : String) : Prop :=
  ∃ numbers, numbers? (wordsOf s.toList) = some numbers ∧ numbers.Overflows

theorem Numbers.foreseen_date (n : Numbers) : ForeseenUnless n.Overflows n.date := by
  simp only [Numbers.date]
  split
  · next far =>
    refine .of_cause ?_ _
    simp only [Bool.or_eq_true, decide_eq_true_eq] at far
    exact far.imp_right .inl
  split
  · exact .ok _
  split
  · next huge => exact .of_cause (.inr (.inr (List.any_eq_true.mp huge))) _
  split
  · exact .ok _
  · exact .ok _

theorem foreseen_read (s : String) : ForeseenUnless (Overflows s) (read s) := by
  unfold read
  split
  · exact .ok _
  · next numbers found => exact numbers.foreseen_date.imp fun overflows => ⟨numbers, found, overflows⟩

end MailDate

namespace DateText

/-- A numeral of so many digits that no fraction can be told apart from it. -/
def Numeral.IsOverlong (n : Numeral) : Prop := Nat.pow 10 ShortDecimal.precision ≤ n.whole

def HasOverlong (ts : List String) : Prop :=
  ∃ token ∈ ts, ∃ n, numeral? token = some n ∧ n.IsOverlong

theorem Numeral.foreseen_sixtieths (n : Numeral) : ForeseenUnless n.IsOverlong n.sixtieths := by
  have fraction : ForeseenUnless n.IsOverlong n.fractionOf := by
    unfold fractionOf
    split
    · next overlong => exact .of_cause overlong _
    · exact .ok _
  exact fraction.bind fun _ _ => .ok _

variable {cause : Prop}

theorem foreseen_needed {α : Type} (a? : Option α) : ForeseenUnless cause (needed a?) := by
  cases a? with
  | none => exact .error trivial
  | some a => exact .ok a

theorem eq_some_of_needed {α : Type} {a? : Option α} {a : α} (h : needed a? = .ok a) :
    a? = some a := by
  cases a? with
  | none => cases h
  | some b => rw [Except.ok.inj h]

theorem foreseen_setMinute (found : Found) (n : Numeral) :
    ForeseenUnless n.IsOverlong (setMinute found n) :=
  n.foreseen_sixtieths.bind fun _ _ => .ok _

theorem foreseen_setUnit (found : Found) (n : Numeral) (unit : Nat) :
    ForeseenUnless n.IsOverlong (setUnit found n unit) := by
  unfold setUnit
  split
  · exact n.foreseen_sixtieths.bind fun _ _ => .ok _
  · exact foreseen_setMinute found n
  · exact (foreseen_needed _).bind fun _ _ => .ok _
  · exact .ok _

theorem foreseen_takeClock (ts : List String) (i : Nat) (n : Numeral) (found : Found) :
    ForeseenUnless (HasOverlong ts) (takeClock ts i n found) := by
  refine (foreseen_needed _).bind fun minute there => ?_
  refine ForeseenUnless.bind ?_ fun found _ => ?_
  · refine (foreseen_setMinute _ minute).imp fun overlong => ?_
    obtain ⟨token, here, numeral⟩ := Option.bind_eq_some_iff.mp (eq_some_of_needed there)
    exact ⟨token, List.mem_of_getElem? here, minute, numeral, overlong⟩
  · split
    · exact (foreseen_needed _).bind fun _ _ => .ok _
    · exact .ok _

theorem foreseen_takeNumeral {ts : List String} {n : Numeral} (i : Nat) (found : Found)
    (among : n.IsOverlong → HasOverlong ts) :
    ForeseenUnless (HasOverlong ts) (takeNumeral ts i n found) := by
  simp only [takeNumeral]
  split
  · exact (foreseen_needed _).bind fun _ _ => .ok _
  split
  · exact (foreseen_needed _).bind fun _ _ => .ok _
  split
  · refine (foreseen_needed _).bind fun unit _ => ?_
    split
    · exact ((foreseen_setUnit _ _ _).imp among).bind fun _ _ => .ok _
    · exact ((foreseen_setUnit _ _ _).imp among).bind fun _ _ => .ok _
  split
  · exact foreseen_takeClock ts i n found
  split
  · exact foreseen_needed _
  · exact foreseen_needed _

theorem foreseen_takeToken {ts : List String} {token : String} (i thisYear : Nat) (found : Found)
    (there : token ∈ ts) :
    ForeseenUnless (HasOverlong ts) (takeToken ts i thisYear token found) := by
  simp only [takeToken]
  split
  · next n numeral =>
    exact (foreseen_takeNumeral i found fun overlong => ⟨token, there, n, numeral, overlong⟩).bind
      fun _ _ => .ok _
  split
  · exact .error trivial
  split
  · exact .ok _
  split
  · exact (foreseen_needed _).bind fun _ _ => .ok _
  split
  · refine (foreseen_needed _).bind fun hour _ => ?_
    split
    · exact .error trivial
    · exact .ok _
  split
  · split
    · exact .ok _
    · exact .ok _
    · exact .ok _
  split
  · exact (foreseen_needed _).bind fun _ _ => .ok _
  split
  · exact .ok _
  · exact .error trivial

theorem tokens_of_takeToken {ts later : List String} {token : String} {i thisYear last : Nat}
    {found next : Found} (h : takeToken ts i thisYear token found = .ok (next, later, last)) :
    later = ts ∨ ∃ sign, (sign = "-" ∨ sign = "+") ∧ later = ts.set (i + 1) sign := by
  simp only [takeToken] at h
  split at h
  · obtain ⟨_, -, answered⟩ := bind_eq_ok.mp h
    cases answered
    exact .inl rfl
  split at h
  · cases h
  split at h
  · cases h
    exact .inl rfl
  split at h
  · obtain ⟨_, -, answered⟩ := bind_eq_ok.mp h
    cases answered
    exact .inl rfl
  split at h
  · obtain ⟨_, -, checking⟩ := bind_eq_ok.mp h
    split at checking
    · cases checking
    · cases checking
      exact .inl rfl
  split at h
  · split at h
    · cases h
      exact .inr ⟨"-", .inl rfl, rfl⟩
    · cases h
      exact .inr ⟨"+", .inr rfl, rfl⟩
    · cases h
      exact .inl rfl
  split at h
  · obtain ⟨_, -, answered⟩ := bind_eq_ok.mp h
    cases answered
    exact .inl rfl
  split at h
  · cases h
    exact .inl rfl
  · cases h

theorem HasOverlong.of_set {ts : List String} {sign : String} (h : sign = "-" ∨ sign = "+")
    {i : Nat} (overlong : HasOverlong (ts.set i sign)) : HasOverlong ts := by
  obtain ⟨token, there, n, numeral, long⟩ := overlong
  rcases List.mem_or_eq_of_mem_set there with old | rfl
  · exact ⟨token, old, n, numeral, long⟩
  · obtain rfl | rfl := h
    · cases numeral
    · cases numeral

theorem foreseen_takeAll (thisYear fuel : Nat) (ts : List String) (i : Nat) (found : Found) :
    ForeseenUnless (HasOverlong ts) (takeAll thisYear fuel ts i found) := by
  -- on the number of tokens that may still be taken, since a sign may be turned round in the others
  induction fuel generalizing ts i found with
  | zero => exact .ok _
  | succ fuel ih =>
    unfold takeAll
    split
    · exact .ok _
    · next token here =>
      refine (foreseen_takeToken i thisYear found (List.mem_of_getElem? here)).bind
        fun ⟨next, later, last⟩ taken => (ih later (last + 1) next).imp fun overlong => ?_
      obtain rfl | ⟨sign, signs, rfl⟩ := tokens_of_takeToken taken
      · exact overlong
      · exact overlong.of_set signs

theorem foreseen_read (today : DateTime) (s : String) :
    ForeseenUnless (HasOverlong (tokens s)) (read today s) := by
  unfold read
  split
  · exact .ok _
  · refine (foreseen_takeAll _ _ _ _ _).bind fun found _ => ?_
    split
    · exact .error trivial
    · exact foreseen_needed _

theorem foreseen_knownTime (today : DateTime) (header? : Option String) :
    ForeseenUnless (∃ s, header? = some s ∧ HasOverlong (tokens s)) (knownTime today header?) := by
  unfold knownTime
  split
  · exact .ok _
  · exact .ok _
  · next s _ => exact ((foreseen_read today s).imp fun overlong => ⟨s, rfl, overlong⟩).map _

end DateText

end Sitewright.Time
