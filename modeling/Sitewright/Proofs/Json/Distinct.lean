import Sitewright.Json.Basic

namespace Sitewright

namespace Fields

variable {α : Type}

theorem mem_of_mem_put {fields : Fields α} {key : String} {value : α} {field : String × α}
    (h : field ∈ fields.put key value) : field ∈ fields ∨ field = (key, value) := by
  induction fields with
  | nil => exact .inr (List.mem_singleton.mp h)
  | cons first rest ih =>
    obtain ⟨name, v⟩ := first
    rw [put] at h
    split at h
    · next same =>
      subst same
      rcases List.mem_cons.mp h with rfl | old
      · exact .inr rfl
      · exact .inl (List.mem_cons_of_mem _ old)
    · rcases List.mem_cons.mp h with rfl | later
      · exact .inl List.mem_cons_self
      · exact (ih later).imp_left (List.mem_cons_of_mem _)

theorem mem_of_mem_merge {base extra : Fields α} {field : String × α}
    (h : field ∈ base.merge extra) : field ∈ base ∨ field ∈ extra := by
  induction extra generalizing base with
  | nil => exact .inl h
  | cons first rest ih =>
    rcases ih h with old | later
    · rcases mem_of_mem_put old with old | rfl
      · exact .inl old
      · exact .inr List.mem_cons_self
    · exact .inr (List.mem_cons_of_mem _ later)

theorem mem_of_mem_ofPairs {pairs : List (String × α)} {field : String × α}
    (h : field ∈ ofPairs pairs) : field ∈ pairs :=
  (mem_of_mem_merge h).resolve_left List.not_mem_nil

theorem nodup_ofPairs (pairs : List (String × α)) : ((ofPairs pairs).map Prod.fst).Nodup :=
  @nodup_merge α [] List.nodup_nil pairs

theorem ofPairs_of_nodup {pairs : List (String × α)} (distinct : (pairs.map Prod.fst).Nodup) :
    ofPairs pairs = pairs :=
  merge_eq_append distinct fun _ none => absurd none List.not_mem_nil

end Fields

namespace Json

mutual

def isDistinct : Json → Bool
  | .arr items => areDistinct items
  | .obj fields => decide (fields.map Prod.fst).Nodup && fieldsDistinct fields
  | _ => true

def areDistinct : List Json → Bool
  | [] => true
  | item :: rest => item.isDistinct && areDistinct rest

def fieldsDistinct : List (String × Json) → Bool
  | [] => true
  | (_, value) :: rest => value.isDistinct && fieldsDistinct rest

end

theorem areDistinct_iff {items : List Json} :
    areDistinct items = true ↔ ∀ item ∈ items, item.isDistinct = true := by
  induction items with
  | nil => simp [areDistinct]
  | cons first rest ih => rw [areDistinct, Bool.and_eq_true, ih, List.forall_mem_cons]

theorem isDistinct_of_mem {items : List Json} (h : areDistinct items = true) {item : Json}
    (mem : item ∈ items) : item.isDistinct = true :=
  areDistinct_iff.mp h item mem

theorem fieldsDistinct_iff {fields : List (String × Json)} :
    fieldsDistinct fields = true ↔ ∀ field ∈ fields, field.2.isDistinct = true := by
  induction fields with
  | nil => simp [fieldsDistinct]
  | cons first rest ih => rw [fieldsDistinct, Bool.and_eq_true, ih, List.forall_mem_cons]

theorem isDistinct_value {fields : Fields Json} (h : fieldsDistinct fields = true) (key : String) :
    (fields.value key).isDistinct = true := by
  induction fields with
  | nil => rfl
  | cons field rest ih =>
    obtain ⟨name, v⟩ := field
    simp only [fieldsDistinct, Bool.and_eq_true] at h
    rw [Fields.value_cons]
    split
    · exact h.1
    · exact ih h.2

mutual

/-- The value with the fields of every object put in by name. -/
def merged : Json → Json
  | .arr items => .arr (mergedItems items)
  | .obj fields => .obj (Fields.ofPairs (mergedFields fields))
  | value => value

def mergedItems : List Json → List Json
  | [] => []
  | item :: rest => item.merged :: mergedItems rest

def mergedFields : List (String × Json) → List (String × Json)
  | [] => []
  | (key, value) :: rest => (key, value.merged) :: mergedFields rest

end

mutual

theorem merged_of_isDistinct : ∀ {value : Json}, value.isDistinct = true → value.merged = value
  | .null, _ | .bool _, _ | .int _, _ | .float _, _ | .str _, _ => rfl
  | .arr items, h => by rw [merged, mergedItems_of_areDistinct h]
  | .obj fields, h => by
    simp only [isDistinct, Bool.and_eq_true, decide_eq_true_eq] at h
    rw [merged, mergedFields_of_fieldsDistinct h.2, Fields.ofPairs_of_nodup h.1]

theorem mergedItems_of_areDistinct :
    ∀ {items : List Json}, areDistinct items = true → mergedItems items = items
  | [], _ => rfl
  | item :: rest, h => by
    simp only [areDistinct, Bool.and_eq_true] at h
    rw [mergedItems, merged_of_isDistinct h.1, mergedItems_of_areDistinct h.2]

theorem mergedFields_of_fieldsDistinct : ∀ {fields : List (String × Json)},
    fieldsDistinct fields = true → mergedFields fields = fields
  | [], _ => rfl
  | (key, value) :: rest, h => by
    simp only [fieldsDistinct, Bool.and_eq_true] at h
    rw [mergedFields, merged_of_isDistinct h.1, mergedFields_of_fieldsDistinct h.2]

end

end Json

end Sitewright
