import Sitewright.Error
import Sitewright.Json.Nesting
import Sitewright.Machine

/-!
Fields of an object read with their expected shape. A field that is null counts as absent. What is
nested too deep to be copied cannot be read.
-/

namespace Sitewright.Shape

def object (place : Place) : Json → Except Error (Fields Json)
  | .obj fields => .ok fields
  | _ => .error (.notObject place)

/-- The fields can be copied inside a number of calls. Two more are made for each level of them. -/
def Copyable [Machine] (outer : Nat) (fields : Fields Json) : Prop :=
  outer + 2 * (Json.obj fields).nesting ≤ Machine.calls

instance [Machine] (outer : Nat) (fields : Fields Json) : Decidable (Copyable outer fields) :=
  inferInstanceAs (Decidable (_ ≤ _))

def copied [Machine] (outer : Nat) (fields : Fields Json) : Except Error (Fields Json) :=
  if Copyable outer fields then .ok fields else .error .valueNested

theorem copied_of_le [Machine] {outer : Nat} {fields : Fields Json} (h : Copyable outer fields) :
    copied outer fields = .ok fields := if_pos h

theorem copied_eq_ok [Machine] {outer : Nat} {fields found : Fields Json} :
    copied outer fields = .ok found ↔ Copyable outer fields ∧ found = fields := by
  unfold copied
  split
  · next copyable => simp [copyable, eq_comm]
  · next deep => simp [deep]

theorem copyable_of_nesting_le [Machine] {outer : Nat} {fields : Fields Json} (le : outer ≤ 200)
    (h : Json.fieldsNesting fields ≤ 1) : Copyable outer fields := by
  have := Machine.roomy
  rw [Copyable, Json.nesting]
  omega

theorem copyable_nil [Machine] {outer : Nat} (le : outer ≤ 200) : Copyable outer [] :=
  copyable_of_nesting_le le (by simp [Json.fieldsNesting])

theorem copyable_put [Machine] {outer : Nat} {fields : Fields Json} (le : outer ≤ 200)
    (h : Copyable outer fields) (key s : String) : Copyable outer (fields.put key (.str s)) := by
  have bound : Json.fieldsNesting (fields.put key (.str s)) ≤
      max 1 (Json.fieldsNesting fields) := by
    clear h
    induction fields with
    | nil => simp [Fields.put, Json.fieldsNesting]
    | cons field rest ih =>
      simp only [Fields.put]
      split
      · simp only [Json.fieldsNesting, Json.nesting_str]
        omega
      · simp only [Json.fieldsNesting]
        omega
  have := Machine.roomy
  simp only [Copyable, Json.nesting] at h ⊢
  omega

def EachCopyable [Machine] (outer : Nat) (fields : Fields Json) : Prop :=
  outer + 2 * Json.fieldsNesting fields ≤ Machine.calls

instance [Machine] (outer : Nat) (fields : Fields Json) : Decidable (EachCopyable outer fields) :=
  inferInstanceAs (Decidable (_ ≤ _))

def eachCopied [Machine] (outer : Nat) (fields : Fields Json) : Except Error (Fields Json) :=
  if EachCopyable outer fields then .ok fields else .error .valueNested

theorem eachCopied_of_le [Machine] {outer : Nat} {fields : Fields Json}
    (h : EachCopyable outer fields) :
    eachCopied outer fields = .ok fields := if_pos h

theorem eachCopied_eq_ok [Machine] {outer : Nat} {fields found : Fields Json} :
    eachCopied outer fields = .ok found ↔ EachCopyable outer fields ∧ found = fields := by
  unfold eachCopied
  split
  · next copyable => simp [copyable, eq_comm]
  · next deep => simp [deep]

/-- A copy of the object in a field, which is empty where there is none. -/
def optionalObject [Machine] (outer : Nat) (place : Place) (fields : Fields Json) (key : String) :
    Except Error (Fields Json) :=
  match fields.value key with
  | .null => .ok []
  | .obj found => copied (outer + 1) found
  | _ => .error (.notObject (.field place key))

def optionalArray (place : Place) (fields : Fields Json) (key : String) :
    Except Error (List Json) :=
  match fields.value key with
  | .null => .ok []
  | .arr items => .ok items
  | _ => .error (.notArray (.field place key))

def requiredText (place : Place) (fields : Fields Json) (key : String) : Except Error String :=
  match fields.value key with
  | .str s => if s = "" then .error (.missing place key) else .ok s
  | _ => .error (.missing place key)

/-- A text; everything that does not count stands for the empty one. -/
def optionalText (place : Place) (fields : Fields Json) (key : String) : Except Error String :=
  match (fields.value key).orElse (.str "") with
  | .str s => .ok s
  | _ => .error (.notText place key)

def items {α : Type} (place : Place) (read : Place → Json → Except Error α) (values : List Json) :
    Except Error (List α) :=
  values.zipIdx.mapM fun p => read (.item place p.2) p.1

variable {outer : Nat} {place : Place} {fields : Fields Json} {key : String}

theorem copyable_of_optionalObject [Machine] {found : Fields Json} (le : outer + 1 ≤ 200)
    (h : optionalObject outer place fields key = .ok found) : Copyable (outer + 1) found := by
  unfold optionalObject at h
  split at h
  · cases h
    exact copyable_nil le
  · obtain ⟨copyable, rfl⟩ := copied_eq_ok.mp h
    exact copyable
  · cases h

theorem value_of_optionalObject [Machine] {found : Fields Json}
    (h : optionalObject outer place fields key = .ok found) :
    (fields.value key = .null ∧ found = []) ∨ fields.value key = .obj found := by
  unfold optionalObject at h
  split at h
  · next absent =>
    cases h
    exact .inl ⟨absent, rfl⟩
  · next there =>
    obtain ⟨-, rfl⟩ := copied_eq_ok.mp h
    exact .inr there
  · cases h

theorem optionalObject_of_obj [Machine] {found : Fields Json} (h : fields.value key = .obj found)
    (copyable : Copyable (outer + 1) found) :
    optionalObject outer place fields key = .ok found := by
  simp only [optionalObject, h]
  exact copied_of_le copyable

theorem optionalObject_of_null [Machine] (h : fields.value key = .null) :
    optionalObject outer place fields key = .ok [] := by
  simp only [optionalObject, h]

theorem optionalObject_of_unless [Machine] {found : Fields Json}
    (h : fields.value key = if found.isEmpty then .null else .obj found)
    (copyable : Copyable (outer + 1) found) :
    optionalObject outer place fields key = .ok found := by
  split at h
  · next empty => rw [List.isEmpty_iff.mp empty, optionalObject_of_null h]
  · exact optionalObject_of_obj h copyable

theorem optionalArray_of_arr {items : List Json} (h : fields.value key = .arr items) :
    optionalArray place fields key = .ok items := by
  simp only [optionalArray, h]

theorem optionalArray_of_null (h : fields.value key = .null) :
    optionalArray place fields key = .ok [] := by
  simp only [optionalArray, h]

theorem optionalArray_of_unless {β : Type} {xs : List β} {write : β → Json}
    (h : fields.value key = if xs.isEmpty then .null else .arr (xs.map write)) :
    optionalArray place fields key = .ok (xs.map write) := by
  split at h
  · next empty => rw [List.isEmpty_iff.mp empty, optionalArray_of_null h, List.map_nil]
  · exact optionalArray_of_arr h

theorem ne_empty_of_requiredText {s : String} (h : requiredText place fields key = .ok s) :
    s ≠ "" := by
  unfold requiredText at h
  split at h
  · split at h
    · cases h
    · next ne =>
      cases h
      exact ne
  · cases h

theorem str_of_requiredText {s : String} (h : requiredText place fields key = .ok s) :
    fields.value key = .str s := by
  simp only [requiredText] at h
  split at h
  · next found =>
    split at h
    · cases h
    · cases h
      exact found
  · cases h

theorem requiredText_of_str {s : String} (h : fields.value key = .str s) (ne : s ≠ "") :
    requiredText place fields key = .ok s := by
  simp [requiredText, h, ne]

theorem optionalText_of_str {s : String} (h : fields.value key = .str s) :
    optionalText place fields key = .ok s := by
  by_cases hs : s = ""
  · simp [optionalText, h, hs, Json.orElse, Json.isTruthy]
  · simp [optionalText, h, hs, Json.orElse, Json.isTruthy]

variable {α : Type} {read : Place → Json → Except Error α}

theorem exists_read_of_items {values : List Json} {xs : List α}
    (h : items place read values = .ok xs) {x : α} (hx : x ∈ xs) :
    ∃ place, ∃ value ∈ values, read place value = .ok x := by
  obtain ⟨p, mem, hp⟩ := exists_mem_of_mapM_eq_ok h hx
  exact ⟨_, p.1, (List.mem_zipIdx' mem).2 ▸ List.getElem_mem _, hp⟩

theorem items_map {write : α → Json} {xs : List α}
    (h : ∀ x ∈ xs, ∀ place, read place (write x) = .ok x) :
    items place read (xs.map write) = .ok xs := by
  unfold items
  generalize 0 = start
  induction xs generalizing start with
  | nil => rfl
  | cons x xs ih =>
    have rest := ih (fun y hy => h y (List.mem_cons_of_mem x hy)) (start + 1)
    simp only [List.map_cons, List.zipIdx_cons, List.mapM_cons, h x List.mem_cons_self, rest,
      ok_bind]
    rfl

end Sitewright.Shape
