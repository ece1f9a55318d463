import Mathlib.Data.List.Infix
import Sitewright.Proofs.Enhancement.Fences
import Sitewright.Proofs.Json.Legible

namespace Sitewright

namespace Json

open Enhancement (fence)

def withoutFences (ascii : Bool) (s : String) : String :=
  String.ofList (Enhancement.unfenced ascii s.toList)

mutual

def unfenced (ascii : Bool) : Json → Json
  | .str s => .str (withoutFences ascii s)
  | .arr items => .arr (unfencedItems ascii items)
  | .obj fields => .obj (unfencedFields ascii fields)
  | value => value

def unfencedItems (ascii : Bool) : List Json → List Json
  | [] => []
  | item :: rest => item.unfenced ascii :: unfencedItems ascii rest

def unfencedFields (ascii : Bool) : List (String × Json) → List (String × Json)
  | [] => []
  | (key, value) :: rest =>
    (withoutFences ascii key, value.unfenced ascii) :: unfencedFields ascii rest

end

def isClear (s : String) : Bool := decide (¬ fence <:+: s.toList)

mutual

def isFenceless : Json → Bool
  | .str s => isClear s
  | .arr items => areFenceless items
  | .obj fields => fieldsFenceless fields
  | _ => true

def areFenceless : List Json → Bool
  | [] => true
  | item :: rest => item.isFenceless && areFenceless rest

def fieldsFenceless : List (String × Json) → Bool
  | [] => true
  | (key, value) :: rest => isClear key && (value.isFenceless && fieldsFenceless rest)

end

theorem fieldsFenceless_iff {fields : List (String × Json)} :
    fieldsFenceless fields = true ↔
      ∀ field ∈ fields, isClear field.1 = true ∧ field.2.isFenceless = true := by
  induction fields with
  | nil => simp [fieldsFenceless]
  | cons first rest ih =>
    rw [fieldsFenceless, Bool.and_eq_true, Bool.and_eq_true, ih, List.forall_mem_cons, and_assoc]

section Text

variable (ascii : Bool)

theorem withoutFences_of_isClear {s : String} (h : isClear s = true) :
    withoutFences ascii s = s := by
  rw [withoutFences, Enhancement.unfenced_of_not_infix ascii (by simpa [isClear] using h),
    String.ofList_toList]

@[simp] theorem isClear_withoutFences (s : String) : isClear (withoutFences ascii s) = true := by
  simp [isClear, withoutFences, Enhancement.not_infix_unfenced]

end Text

variable (ascii : Bool)

mutual

theorem unfenced_of_isFenceless :
    ∀ {value : Json}, value.isFenceless = true → value.unfenced ascii = value
  | .null, _ | .bool _, _ | .int _, _ | .float _, _ => rfl
  | .str s, h => by rw [unfenced, withoutFences_of_isClear ascii h]
  | .arr items, h => by rw [unfenced, unfencedItems_of_areFenceless h]
  | .obj fields, h => by rw [unfenced, unfencedFields_of_fieldsFenceless h]

theorem unfencedItems_of_areFenceless :
    ∀ {items : List Json}, areFenceless items = true → unfencedItems ascii items = items
  | [], _ => rfl
  | item :: rest, h => by
    simp only [areFenceless, Bool.and_eq_true] at h
    rw [unfencedItems, unfenced_of_isFenceless h.1, unfencedItems_of_areFenceless h.2]

theorem unfencedFields_of_fieldsFenceless : ∀ {fields : List (String × Json)},
    fieldsFenceless fields = true → unfencedFields ascii fields = fields
  | [], _ => rfl
  | (key, value) :: rest, h => by
    simp only [fieldsFenceless, Bool.and_eq_true] at h
    rw [unfencedFields, withoutFences_of_isClear ascii h.1, unfenced_of_isFenceless h.2.1,
      unfencedFields_of_fieldsFenceless h.2.2]

end

mutual

@[simp] theorem isFenceless_unfenced : ∀ value : Json, (value.unfenced ascii).isFenceless = true
  | .null | .bool _ | .int _ | .float _ => rfl
  | .str s => isClear_withoutFences ascii s
  | .arr items => areFenceless_unfencedItems items
  | .obj fields => fieldsFenceless_unfencedFields fields

@[simp] theorem areFenceless_unfencedItems :
    ∀ items : List Json, areFenceless (unfencedItems ascii items) = true
  | [] => rfl
  | item :: rest => by
    rw [unfencedItems, areFenceless, isFenceless_unfenced item, areFenceless_unfencedItems rest,
      Bool.true_and]

@[simp] theorem fieldsFenceless_unfencedFields :
    ∀ fields : List (String × Json), fieldsFenceless (unfencedFields ascii fields) = true
  | [] => rfl
  | (key, value) :: rest => by
    rw [unfencedFields, fieldsFenceless, isClear_withoutFences, isFenceless_unfenced value,
      fieldsFenceless_unfencedFields rest, Bool.true_and, Bool.true_and]

end

mutual

theorem isFenceless_merged : ∀ {value : Json}, value.isFenceless = true →
    value.merged.isFenceless = true
  | .null, h | .bool _, h | .int _, h | .float _, h | .str _, h => h
  | .arr items, h => @areFenceless_mergedItems items h
  | .obj fields, h => by
    have inside := @fieldsFenceless_mergedFields fields h
    rw [merged, isFenceless, fieldsFenceless_iff]
    rw [fieldsFenceless_iff] at inside
    exact fun field hField => inside field (Fields.mem_of_mem_ofPairs hField)

theorem areFenceless_mergedItems : ∀ {items : List Json}, areFenceless items = true →
    areFenceless (mergedItems items) = true
  | [], _ => rfl
  | item :: rest, h => by
    simp only [areFenceless, Bool.and_eq_true] at h
    rw [mergedItems, areFenceless, isFenceless_merged h.1, areFenceless_mergedItems h.2,
      Bool.true_and]

theorem fieldsFenceless_mergedFields : ∀ {fields : List (String × Json)},
    fieldsFenceless fields = true → fieldsFenceless (mergedFields fields) = true
  | [], _ => rfl
  | (key, value) :: rest, h => by
    simp only [fieldsFenceless, Bool.and_eq_true] at h
    rw [mergedFields, fieldsFenceless, h.1, isFenceless_merged h.2.1,
      fieldsFenceless_mergedFields h.2.2, Bool.true_and, Bool.true_and]

end

mutual

theorem legible_unfenced : ∀ {value : Json} {levels : Nat}, value.Legible levels →
    (value.unfenced ascii).Legible levels
  | .null, _, _ => .null
  | .bool b, _, _ => .bool b
  | .int _, _, .int fits => .int fits
  | .str _, _, _ => .str _
  | .arr _, _, .arr inside => .arr (legible_unfencedItems inside)
  | .obj _, _, .obj inside => .obj (legible_unfencedFields inside)

theorem legible_unfencedItems : ∀ {items : List Json} {levels : Nat},
    (∀ item ∈ items, item.Legible levels) →
    ∀ item ∈ unfencedItems ascii items, item.Legible levels
  | [], _, _ => List.forall_mem_nil _
  | item :: rest, _, h => by
    rw [List.forall_mem_cons] at h
    rw [unfencedItems, List.forall_mem_cons]
    exact ⟨legible_unfenced h.1, legible_unfencedItems h.2⟩

theorem legible_unfencedFields : ∀ {fields : List (String × Json)} {levels : Nat},
    (∀ field ∈ fields, field.2.Legible levels) →
    ∀ field ∈ unfencedFields ascii fields, field.2.Legible levels
  | [], _, _ => List.forall_mem_nil _
  | (key, value) :: rest, _, h => by
    rw [List.forall_mem_cons] at h
    rw [unfencedFields, List.forall_mem_cons]
    exact ⟨legible_unfenced h.1, legible_unfencedFields h.2⟩

end

end Json

end Sitewright
