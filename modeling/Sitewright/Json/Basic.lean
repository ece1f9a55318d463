import Sitewright.Fields
import Sitewright.Number.Binary64

/-!
JSON values. Objects keep the order of their fields, and integers are kept apart from numbers with
a fraction or an exponent.
-/

namespace Sitewright

inductive Json
  | null
  | bool (b : Bool)
  | int (n : Int)
  | float (x : Binary64)
  | str (s : String)
  | arr (items : List Json)
  | obj (fields : List (String × Json))
  deriving Repr, Inhabited

namespace Json

mutual

def beq : Json → Json → Bool
  | .null, .null => true
  | .bool a, .bool b => a == b
  | .int a, .int b => a == b
  | .float a, .float b => a == b
  | .str a, .str b => a == b
  | .arr a, .arr b => beqItems a b
  | .obj a, .obj b => beqFields a b
  | _, _ => false

def beqItems : List Json → List Json → Bool
  | [], [] => true
  | a :: as, b :: bs => beq a b && beqItems as bs
  | _, _ => false

def beqFields : List (String × Json) → List (String × Json) → Bool
  | [], [] => true
  | (k, a) :: as, (l, b) :: bs => k == l && (beq a b && beqFields as bs)
  | _, _ => false

end

mutual

theorem eq_of_beq : ∀ {a b : Json}, beq a b = true → a = b
  | .null, .null, _ => rfl
  | .bool _, .bool _, h => by simpa [beq] using h
  | .int _, .int _, h => by simpa [beq] using h
  | .float _, .float _, h => by simpa [beq] using h
  | .str _, .str _, h => by simpa [beq] using h
  | .arr a, .arr b, h =>
    congrArg Json.arr (eq_of_beqItems (a := a) (b := b) (by simpa [beq] using h))
  | .obj a, .obj b, h =>
    congrArg Json.obj (eq_of_beqFields (a := a) (b := b) (by simpa [beq] using h))

theorem eq_of_beqItems : ∀ {a b : List Json}, beqItems a b = true → a = b
  | [], [], _ => rfl
  | a :: as, b :: bs, h => by
    simp only [beqItems, Bool.and_eq_true] at h
    rw [eq_of_beq h.1, eq_of_beqItems h.2]

theorem eq_of_beqFields : ∀ {a b : List (String × Json)}, beqFields a b = true → a = b
  | [], [], _ => rfl
  | (k, a) :: as, (l, b) :: bs, h => by
    simp only [beqFields, Bool.and_eq_true, beq_iff_eq] at h
    rw [h.1, eq_of_beq h.2.1, eq_of_beqFields h.2.2]

end

mutual

@[simp] theorem beq_self : ∀ a : Json, beq a a = true
  | .null => rfl
  | .bool _ | .int _ | .float _ | .str _ => by simp [beq]
  | .arr a => by simpa [beq] using beqItems_self a
  | .obj a => by simpa [beq] using beqFields_self a

@[simp] theorem beqItems_self : ∀ a : List Json, beqItems a a = true
  | [] => rfl
  | a :: as => by simp [beqItems, beq_self a, beqItems_self as]

@[simp] theorem beqFields_self : ∀ a : List (String × Json), beqFields a a = true
  | [] => rfl
  | (k, a) :: as => by simp [beqFields, beq_self a, beqFields_self as]

end

@[simp] theorem beq_iff_eq {a b : Json} : beq a b = true ↔ a = b :=
  ⟨eq_of_beq, fun h => h ▸ beq_self a⟩

instance : DecidableEq Json := fun a b => decidable_of_iff (beq a b = true) beq_iff_eq

/-- Null, false, zero and everything empty count as absent. -/
def isTruthy : Json → Bool
  | .null => false
  | .bool b => b
  | .int n => n ≠ 0
  | .float x => !x.isZero
  | .str s => s ≠ ""
  | .arr items => !items.isEmpty
  | .obj fields => !fields.isEmpty

def orElse (value fallback : Json) : Json := if value.isTruthy then value else fallback

def asText? : Json → Option String
  | .str s => some s
  | _ => none

def ofText? (text : Option String) : Json := text.elim .null .str

@[simp] theorem asText?_ofText? (text : Option String) : (ofText? text).asText? = text := by
  cases text <;> rfl

def asObject? : Json → Option (Fields Json)
  | .obj fields => some fields
  | _ => none

def asArray? : Json → Option (List Json)
  | .arr items => some items
  | _ => none

end Json

namespace Fields

def value (fields : Fields Json) (key : String) : Json := (fields.get? key).getD .null

@[simp] theorem value_nil (key : String) : value [] key = .null := rfl

@[simp] theorem value_cons (name : String) (v : Json) (rest : Fields Json) (key : String) :
    value ((name, v) :: rest) key = if name = key then v else value rest key := by
  simp only [value, get?]
  split <;> rfl

theorem value_eq_null {fields : Fields Json} {key : String} (h : ∀ field ∈ fields, field.1 ≠ key) :
    fields.value key = .null := by
  induction fields with
  | nil => rfl
  | cons field rest ih =>
    obtain ⟨name, v⟩ := field
    rw [value_cons, if_neg (h (name, v) List.mem_cons_self)]
    exact ih fun field hField => h field (List.mem_cons_of_mem _ hField)

theorem value_append_of_absent {first : Fields Json} (rest : Fields Json) {key : String}
    (h : ∀ field ∈ first, field.1 ≠ key) : value (first ++ rest) key = rest.value key := by
  rw [value, get?_append_of_absent rest h, value]

/-- A field without a value is as good as none. -/
def present (fields : Fields Json) : Fields Json := fields.filter (·.2 ≠ .null)

@[simp] theorem value_present {fields : Fields Json} (distinct : (fields.map Prod.fst).Nodup)
    (key : String) : fields.present.value key = fields.value key := by
  induction fields with
  | nil => rfl
  | cons field rest ih =>
    obtain ⟨name, v⟩ := field
    obtain ⟨new, distinct⟩ := List.nodup_cons.mp distinct
    have hRest := ih distinct
    simp only [present] at hRest ⊢
    by_cases null : v = .null
    · subst null
      rw [List.filter_cons_of_neg (by simp), hRest, value_cons]
      split
      · next same =>
        subst same
        exact value_eq_null fun field hField same => new (List.mem_map.mpr ⟨field, hField, same⟩)
      · rfl
    · rw [List.filter_cons_of_pos (by simpa using null), value_cons, value_cons, hRest]

@[simp] theorem value_put (fields : Fields Json) (name key : String) (v : Json) :
    value (fields.put name v) key = if name = key then v else fields.value key := by
  unfold value
  split
  · next h => rw [h, get?_put_self, Option.getD_some]
  · next h => rw [get?_put_of_ne fields v (Ne.symm h)]

end Fields

end Sitewright
