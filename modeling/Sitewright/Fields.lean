/-!
Ordered maps from names to values, as lists of pairs. A key keeps the place where it was first put
and the value that was last put.
-/

namespace Sitewright

abbrev Fields (α : Type) := List (String × α)

namespace Fields

variable {α : Type}

def get? : Fields α → String → Option α
  | [], _ => none
  | (k, v) :: rest, key => if k = key then some v else get? rest key

def contains (fields : Fields α) (key : String) : Bool := (fields.get? key).isSome

def put : Fields α → String → α → Fields α
  | [], key, value => [(key, value)]
  | (k, v) :: rest, key, value =>
    if k = key then (k, value) :: rest else (k, v) :: put rest key value

/-- Every field of the second map put into the first, in order. -/
def merge (base extra : Fields α) : Fields α :=
  extra.foldl (fun acc field => acc.put field.1 field.2) base

def ofPairs (pairs : List (String × α)) : Fields α := merge [] pairs

def erase (fields : Fields α) (key : String) : Fields α :=
  fields.filter fun field => field.1 ≠ key

@[simp] theorem get?_put_self (fields : Fields α) (key : String) (value : α) :
    (fields.put key value).get? key = some value := by
  induction fields with
  | nil => simp [put, get?]
  | cons field rest ih =>
    obtain ⟨k, v⟩ := field
    by_cases h : k = key <;> simp [put, get?, h, ih]

theorem get?_put_of_ne (fields : Fields α) {key other : String} (value : α) (h : other ≠ key) :
    (fields.put key value).get? other = fields.get? other := by
  induction fields with
  | nil => simp [put, get?, Ne.symm h]
  | cons field rest ih =>
    obtain ⟨k, v⟩ := field
    by_cases hk : k = key
    · subst hk
      simp [put, get?, Ne.symm h]
    · simp [put, get?, hk, ih]

theorem get?_append_of_absent {first : Fields α} (rest : Fields α) {key : String}
    (h : ∀ field ∈ first, field.1 ≠ key) : get? (first ++ rest) key = rest.get? key := by
  induction first with
  | nil => rfl
  | cons field first ih =>
    obtain ⟨k, v⟩ := field
    rw [List.cons_append, get?, if_neg (h (k, v) List.mem_cons_self)]
    exact ih fun field hField => h field (List.mem_cons_of_mem _ hField)

theorem get?_eq_some_iff {fields : Fields α} (distinct : (fields.map Prod.fst).Nodup) {key : String}
    {value : α} : fields.get? key = some value ↔ (key, value) ∈ fields := by
  induction fields with
  | nil => simp [get?]
  | cons field rest ih =>
    obtain ⟨k, v⟩ := field
    rw [List.map_cons, List.nodup_cons] at distinct
    rw [get?, List.mem_cons, Prod.mk.injEq]
    split
    · next same =>
      subst same
      have absent : (k, value) ∉ rest := fun there =>
        distinct.1 (List.mem_map.mpr ⟨(k, value), there, rfl⟩)
      simp [absent, eq_comm]
    · next other =>
      simp [ih distinct.2, Ne.symm other]

theorem contains_eq_false_iff {fields : Fields α} {key : String} :
    fields.contains key = false ↔ key ∉ fields.map Prod.fst := by
  induction fields with
  | nil => simp [contains, get?]
  | cons field rest ih =>
    obtain ⟨k, v⟩ := field
    rw [contains, get?]
    by_cases same : k = key
    · simp [same]
    · have apart : key ≠ k := Ne.symm same
      rw [if_neg same, ← contains, ih, List.map_cons, List.mem_cons, not_or]
      exact (and_iff_right apart).symm

theorem put_of_absent {fields : Fields α} {key : String} (h : ∀ field ∈ fields, field.1 ≠ key)
    (value : α) : fields.put key value = fields ++ [(key, value)] := by
  induction fields with
  | nil => rfl
  | cons field rest ih =>
    obtain ⟨k, v⟩ := field
    have hk : k ≠ key := h (k, v) List.mem_cons_self
    have hRest := ih fun field hField => h field (List.mem_cons_of_mem _ hField)
    simp [put, hk, hRest]

theorem filter_put_of_not (fields : Fields α) {keep : String × α → Bool} {key : String} {value : α}
    (named : ∀ v, keep (key, v) = false) : (fields.put key value).filter keep =
      fields.filter keep := by
  induction fields with
  | nil => simp [put, named]
  | cons field rest ih =>
    obtain ⟨k, v⟩ := field
    by_cases hk : k = key
    · simp [put, hk, named]
    · simp [put, hk, List.filter_cons, ih]

theorem map_fst_put (fields : Fields α) (key : String) (value : α) :
    (fields.put key value).map Prod.fst =
      if key ∈ fields.map Prod.fst then fields.map Prod.fst else fields.map Prod.fst ++ [key] := by
  induction fields with
  | nil => simp [put]
  | cons field rest ih =>
    obtain ⟨k, v⟩ := field
    by_cases hk : k = key
    · simp [put, hk]
    · have apart : key ≠ k := Ne.symm hk
      simp only [put, if_neg hk, List.map_cons, ih, List.mem_cons, apart, false_or]
      split <;> rfl

theorem nodup_put {fields : Fields α} (distinct : (fields.map Prod.fst).Nodup) (key : String)
    (value : α) : ((fields.put key value).map Prod.fst).Nodup := by
  rw [map_fst_put]
  split
  · exact distinct
  · next absent =>
    refine List.nodup_append.mpr ⟨distinct, by simp, fun k hk other hOther same => ?_⟩
    rw [List.mem_singleton.mp hOther] at same
    exact absent (same ▸ hk)

theorem nodup_merge {base : Fields α} (distinct : (base.map Prod.fst).Nodup) (extra : Fields α) :
    ((base.merge extra).map Prod.fst).Nodup := by
  induction extra generalizing base with
  | nil => exact distinct
  | cons field rest ih => exact ih (nodup_put distinct field.1 field.2)

theorem merge_eq_append {base extra : Fields α} (distinct : (extra.map Prod.fst).Nodup)
    (h : ∀ field ∈ base, field.1 ∉ extra.map Prod.fst) : base.merge extra = base ++ extra := by
  induction extra generalizing base with
  | nil => simp [merge]
  | cons field rest ih =>
    obtain ⟨key, value⟩ := field
    obtain ⟨new, distinct⟩ := List.nodup_cons.mp distinct
    have absent : ∀ field ∈ base, field.1 ≠ key := fun field hField same =>
      h field hField (by simp [same])
    have hRest : merge (base ++ [(key, value)]) rest = base ++ [(key, value)] ++ rest := by
      refine ih distinct fun field hField => ?_
      rcases List.mem_append.mp hField with hField | hField
      · exact fun hRest => h field hField (List.mem_cons_of_mem _ hRest)
      · rwa [List.mem_singleton.mp hField]
    rw [merge, List.foldl_cons, put_of_absent absent, ← merge, hRest, List.append_assoc]
    rfl

end Fields

end Sitewright
