import Sitewright.Error
import Sitewright.Proofs.Json.Distinct
import Sitewright.Proofs.Json.Numeral

/-!
What can be read from a text. Numerals have a greatest length, arrays and objects a greatest
nesting, and no name comes twice in an object. Every value that is read keeps within these limits.
-/

namespace Sitewright.Json

mutual

def isWhole : Json → Bool
  | .float _ => false
  | .arr items => areWhole items
  | .obj fields => fieldsWhole fields
  | _ => true

def areWhole : List Json → Bool
  | [] => true
  | item :: rest => item.isWhole && areWhole rest

def fieldsWhole : List (String × Json) → Bool
  | [] => true
  | (_, value) :: rest => value.isWhole && fieldsWhole rest

end

theorem areWhole_iff {items : List Json} :
    areWhole items = true ↔ ∀ item ∈ items, item.isWhole = true := by
  induction items with
  | nil => simp [areWhole]
  | cons first rest ih => rw [areWhole, Bool.and_eq_true, ih, List.forall_mem_cons]

theorem fieldsWhole_iff {fields : List (String × Json)} :
    fieldsWhole fields = true ↔ ∀ field ∈ fields, field.2.isWhole = true := by
  induction fields with
  | nil => simp [fieldsWhole]
  | cons first rest ih => rw [fieldsWhole, Bool.and_eq_true, ih, List.forall_mem_cons]

/-- A value that is no longer and no deeper than what can be read with a number of levels left. -/
inductive Legible : Nat → Json → Prop
  | null {levels : Nat} : Legible levels .null
  | bool {levels : Nat} (b : Bool) : Legible levels (.bool b)
  | int {levels : Nat} {n : Int} : Text.Fits n → Legible levels (.int n)
  | str {levels : Nat} (s : String) : Legible levels (.str s)
  | arr {levels : Nat} {items : List Json} : (∀ item ∈ items, Legible levels item) →
      Legible (levels + 1) (.arr items)
  | obj {levels : Nat} {fields : List (String × Json)} :
      (∀ field ∈ fields, Legible levels field.2) → Legible (levels + 1) (.obj fields)

/-- A value that comes back from its text. -/
structure Lasting (levels : Nat) (value : Json) : Prop where
  legible : value.Legible levels
  distinct : value.isDistinct = true

namespace Lasting

variable {levels : Nat}

theorem null : Lasting levels .null := ⟨.null, rfl⟩

theorem bool (b : Bool) : Lasting levels (.bool b) := ⟨.bool b, rfl⟩

theorem int {n : Int} (fits : Text.Fits n) : Lasting levels (.int n) := ⟨.int fits, rfl⟩

theorem str (s : String) : Lasting levels (.str s) := ⟨.str s, rfl⟩

theorem arr {items : List Json} (h : ∀ item ∈ items, Lasting levels item) :
    Lasting (levels + 1) (.arr items) where
  legible := .arr fun item hItem => (h item hItem).legible
  distinct := by
    rw [isDistinct, areDistinct_iff]
    exact fun item hItem => (h item hItem).distinct

theorem obj {fields : List (String × Json)} (once : (fields.map Prod.fst).Nodup)
    (h : ∀ field ∈ fields, Lasting levels field.2) : Lasting (levels + 1) (.obj fields) where
  legible := .obj fun field hField => (h field hField).legible
  distinct := by
    rw [isDistinct, Bool.and_eq_true, decide_eq_true_eq, fieldsDistinct_iff]
    exact ⟨once, fun field hField => (h field hField).distinct⟩

theorem arr_iff {items : List Json} :
    Lasting (levels + 1) (.arr items) ↔ ∀ item ∈ items, Lasting levels item := by
  refine ⟨fun ⟨legible, distinct⟩ item hItem => ⟨?_, isDistinct_of_mem distinct hItem⟩, arr⟩
  cases legible with
  | arr inside => exact inside item hItem

theorem obj_iff {fields : List (String × Json)} :
    Lasting (levels + 1) (.obj fields) ↔
      (fields.map Prod.fst).Nodup ∧ ∀ field ∈ fields, Lasting levels field.2 := by
  refine ⟨fun ⟨legible, distinct⟩ => ?_, fun ⟨once, h⟩ => obj once h⟩
  rw [isDistinct, Bool.and_eq_true, decide_eq_true_eq, fieldsDistinct_iff] at distinct
  cases legible with
  | obj inside =>
    exact ⟨distinct.1, fun field hField => ⟨inside field hField, distinct.2 field hField⟩⟩

theorem put {fields : Fields Json} (h : Lasting (levels + 1) (.obj fields)) (key : String)
    {v : Json} (new : Lasting levels v) : Lasting (levels + 1) (.obj (fields.put key v)) := by
  obtain ⟨once, values⟩ := obj_iff.mp h
  refine obj (Fields.nodup_put once key v) fun field hField => ?_
  rcases Fields.mem_of_mem_put hField with old | rfl
  · exact values field old
  · exact new

theorem value {fields : Fields Json} (h : ∀ field ∈ fields, Lasting levels field.2) (key : String) :
    Lasting levels (fields.value key) := by
  induction fields with
  | nil => exact null
  | cons field rest ih =>
    rw [List.forall_mem_cons] at h
    obtain ⟨name, v⟩ := field
    rw [Fields.value_cons]
    split
    · exact h.1
    · exact ih h.2

end Lasting

namespace Reader

theorem lasting_of_number {levels : Nat} {cs rest : List Char} {v : Json}
    (h : number cs = .ok (v, rest)) (whole : v.isWhole = true) : Lasting levels v := by
  obtain ⟨x, rfl⟩ | ⟨n, rfl, fits⟩ := forms_of_number h
  · cases whole
  · exact .int fits

mutual

theorem lasting_of_value : ∀ (fuel : Nat) {levels : Nat} {cs rest : List Char} {v : Json},
    value fuel levels cs = .ok (v, rest) → v.isWhole = true → Lasting levels v
  | 0, _, _, _, _, h, _ => by simp [value] at h
  | fuel + 1, levels, cs, rest, v, h, whole => by
    rw [value.eq_def] at h
    simp only at h
    split at h
    · obtain ⟨⟨s, after⟩, -, same⟩ := map_eq_ok.mp h
      cases same
      exact .str _
    · split at h
      · cases h
      · next some =>
        obtain ⟨levels, rfl⟩ := Nat.exists_eq_succ_of_ne_zero some
        split at h
        · cases h
          exact .obj List.nodup_nil (List.forall_mem_nil _)
        · obtain ⟨⟨found, after⟩, read, same⟩ := map_eq_ok.mp h
          cases same
          rw [isWhole, fieldsWhole_iff] at whole
          exact .obj (Fields.nodup_ofPairs found) fun field hField =>
            lasting_of_fields fuel read field (Fields.mem_of_mem_ofPairs hField)
              (whole field hField)
    · split at h
      · cases h
      · next some =>
        obtain ⟨levels, rfl⟩ := Nat.exists_eq_succ_of_ne_zero some
        split at h
        · cases h
          exact .arr (List.forall_mem_nil _)
        · obtain ⟨⟨found, after⟩, read, same⟩ := map_eq_ok.mp h
          cases same
          rw [isWhole, areWhole_iff] at whole
          exact .arr fun item hItem => lasting_of_items fuel read item hItem (whole item hItem)
    · cases h
      exact .null
    · cases h
      exact .bool true
    · cases h
      exact .bool false
    · cases h
      cases whole
    · cases h
      cases whole
    · cases h
      cases whole
    · exact lasting_of_number h whole

theorem lasting_of_items : ∀ (fuel : Nat) {levels : Nat} {cs rest : List Char} {vs : List Json},
    items fuel levels cs = .ok (vs, rest) → ∀ v ∈ vs, v.isWhole = true → Lasting levels v
  | 0, _, _, _, _, h => by simp [items] at h
  | fuel + 1, levels, cs, rest, vs, h => by
    rw [items] at h
    obtain ⟨⟨item, after⟩, hItem, h⟩ := bind_eq_ok.mp h
    simp only at h
    split at h
    · obtain ⟨⟨more, last⟩, hMore, h⟩ := bind_eq_ok.mp h
      cases h
      rw [List.forall_mem_cons]
      exact ⟨lasting_of_value fuel hItem, lasting_of_items fuel hMore⟩
    · cases h
      rw [List.forall_mem_singleton]
      exact lasting_of_value fuel hItem
    · cases h

theorem lasting_of_fields : ∀ (fuel : Nat) {levels : Nat} {cs rest : List Char}
    {found : List (String × Json)}, fields fuel levels cs = .ok (found, rest) →
    ∀ field ∈ found, field.2.isWhole = true → Lasting levels field.2
  | 0, _, _, _, _, h => by simp [fields] at h
  | fuel + 1, levels, cs, rest, found, h => by
    rw [fields.eq_def] at h
    simp only at h
    split at h
    · obtain ⟨⟨key, named⟩, -, h⟩ := bind_eq_ok.mp h
      simp only at h
      split at h
      · obtain ⟨⟨item, after⟩, hItem, h⟩ := bind_eq_ok.mp h
        simp only at h
        split at h
        · obtain ⟨⟨more, last⟩, hMore, h⟩ := bind_eq_ok.mp h
          cases h
          rw [List.forall_mem_cons]
          exact ⟨lasting_of_value fuel hItem, lasting_of_fields fuel hMore⟩
        · cases h
          rw [List.forall_mem_singleton]
          exact lasting_of_value fuel hItem
        · cases h
      · cases h
    · cases h

end

end Reader

theorem lasting_of_read [Machine] {text : String} {v : Json} (h : read text = .ok v)
    (whole : v.isWhole = true) : Lasting Machine.textNesting v := by
  unfold read at h
  split at h
  · next found =>
    split at h
    · cases h
      exact Reader.lasting_of_value _ found whole
    · cases h
  · cases h

end Sitewright.Json
