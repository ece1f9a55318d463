import Mathlib.Data.Nat.Find
import Mathlib.Data.Set.Finite.Basic
import Sitewright.Document.Identifier
import Sitewright.Proofs.Json.Numeral

namespace Sitewright

namespace Identifier

def drawn (type : String) (millis : Int) (random : Random) (n : Nat) : String :=
  ofChance type millis (random.chance n)

@[simp] theorem drawn_drop (type : String) (millis : Int) (random : Random) (count n : Nat) :
    drawn type millis (random.drop count) n = drawn type millis random (n + count) := rfl

variable {taken : String → Bool} {type : String} {millis : Int} {random : Random}

@[simp] theorem freshOutside_of_free (h : taken (drawn type millis random 0) = false) :
    freshOutside taken type millis random = (drawn type millis random 0, random.drop 1) := by
  have here : taken (fresh type millis random).1 = false := h
  rw [freshOutside_eq, here, if_neg Bool.false_ne_true]
  rfl

theorem freshOutside_eq_drawn {n : Nat} (free : taken (drawn type millis random n) = false)
    (earlier : ∀ m < n, taken (drawn type millis random m) = true) :
    freshOutside taken type millis random =
      (drawn type millis random n, random.drop (n + 1)) := by
  induction n generalizing random with
  | zero => exact freshOutside_of_free free
  | succ n ih =>
    have here : taken (fresh type millis random).1 = true := earlier 0 (Nat.succ_pos n)
    rw [freshOutside_eq, if_pos here]
    exact @ih (random.drop 1) free fun m before => earlier (m + 1) (Nat.succ_lt_succ before)

end Identifier

namespace Random

variable {random : Random} {millis : Int}

/-- The source does not run out: whatever identifiers are taken, it goes on to give another. -/
def IsEndless (millis : Int) (random : Random) : Prop :=
  ∀ type (taken : List String), ∃ n, Identifier.drawn type millis random n ∉ taken

theorem IsEndless.drop (h : random.IsEndless millis) (count : Nat) :
    (random.drop count).IsEndless millis := by
  intro type taken
  obtain ⟨n, free⟩ :=
    h type (taken ++ (List.range count).map (Identifier.drawn type millis random))
  rw [List.mem_append, not_or, List.mem_map] at free
  have later : count ≤ n := by
    by_contra before
    exact free.2 ⟨n, List.mem_range.mpr (Nat.lt_of_not_le before), rfl⟩
  refine ⟨n - count, ?_⟩
  rw [Identifier.drawn_drop, Nat.sub_add_cancel later]
  exact free.1

/-- A clock that goes on is enough, whatever characters are chosen. -/
theorem isEndless_of_injective (h : Function.Injective fun n => (random.chance n).elapsed) :
    random.IsEndless millis := by
  intro type taken
  have apart : Function.Injective (Identifier.drawn type millis random) := by
    intro m n same
    have same := congrArg String.toList same
    simp only [Identifier.drawn, Identifier.ofChance, String.toList_append,
      String.toList_ofList] at same
    have before := (List.append_inj' same (by simp)).1
    have stamp := (List.append_inj' before rfl).1
    have millis := Json.Reader.toString_injective
      (String.toList_inj.mp (List.append_cancel_left stamp))
    exact h (Int.add_left_cancel millis)
  obtain ⟨_, ⟨n, rfl⟩, free⟩ :=
    (Set.infinite_range_of_injective apart).exists_notMem_finset taken.toFinset
  exact ⟨n, fun used => free (List.mem_toFinset.mpr used)⟩

end Random

/-- A moment at which an identifier is drawn: what is taken, what it is for, and what the source has
to give. -/
structure Draw where
  taken : String → Bool
  type : String
  random : Random

namespace Draw

/-- The source sooner or later gives an identifier that is not taken. -/
def Succeeds (millis : Int) (draw : Draw) : Prop :=
  ∃ n, draw.taken (Identifier.drawn draw.type millis draw.random n) = false

def result (millis : Int) (draw : Draw) : String × Random :=
  Identifier.freshOutside draw.taken draw.type millis draw.random

/-- The draw ends, after the given number of identifiers that are taken, with one that is not. -/
structure EndsAfter (millis : Int) (draw : Draw) (n : Nat) : Prop where
  free : draw.taken (draw.result millis).1 = false
  passed : ∀ m < n, draw.taken (Identifier.drawn draw.type millis draw.random m) = true
  result_eq : draw.result millis =
    (Identifier.drawn draw.type millis draw.random n, draw.random.drop (n + 1))

theorem exists_endsAfter {millis : Int} {draw : Draw} (h : draw.Succeeds millis) :
    ∃ n, draw.EndsAfter millis n := by
  have free := Nat.find_spec h
  have passed : ∀ m < Nat.find h,
      draw.taken (Identifier.drawn draw.type millis draw.random m) = true :=
    fun m earlier => Bool.not_eq_false _ ▸ Nat.find_min h earlier
  have found := Identifier.freshOutside_eq_drawn free passed
  have there : draw.taken (draw.result millis).1 = false := by rwa [result, found]
  exact ⟨Nat.find h, there, passed, found⟩

theorem result_ne_empty {millis : Int} {draw : Draw} (h : draw.Succeeds millis) :
    (draw.result millis).1 ≠ "" := by
  obtain ⟨n, ends⟩ := exists_endsAfter h
  rw [ends.result_eq]
  exact Identifier.ofChance_ne_empty _ _ _

end Draw

end Sitewright
