import Sitewright.Json.Canonical
import Sitewright.Json.Nesting

namespace Sitewright.Json

theorem canonicalItems_eq_map (items : List Json) : canonicalItems items = items.map canonical := by
  induction items with
  | nil => rfl
  | cons item rest ih => rw [canonicalItems, ih, List.map_cons]

theorem canonicalFields_eq_map (fields : Fields Json) :
    canonicalFields fields = fields.map fun f => (f.1, f.2.canonical) := by
  induction fields with
  | nil => rfl
  | cons field rest ih => rw [canonicalFields, ih, List.map_cons]

theorem alike_arr {as bs : List Json} :
    (arr as).Alike (arr bs) ↔ as.map canonical = bs.map canonical := by
  simp [Alike, canonical, canonicalItems_eq_map]

theorem length_eq_of_alike_arr {as bs : List Json} (h : (arr as).Alike (arr bs)) :
    as.length = bs.length := by
  simpa using congrArg List.length (alike_arr.mp h)

theorem alike_null {a : Json} : a.Alike null ↔ a = null := by
  constructor
  · intro h
    cases a with
    | float x =>
      simp only [Alike, canonical, canonicalFloat] at h
      split at h
      · split at h <;> cases h
      · cases h
    | null => rfl
    | _ => cases h
  · intro h
    rw [h]

theorem alike_str {s t : String} : (str s).Alike (str t) ↔ s = t := by
  simp [Alike, canonical]

theorem alike_str_right {a : Json} {s : String} : a.Alike (str s) ↔ a = str s := by
  constructor
  · intro h
    cases a with
    | float x =>
      simp only [Alike, canonical, canonicalFloat] at h
      split at h
      · split at h <;> cases h
      · cases h
    | str t => exact congrArg str (alike_str.mp h)
    | _ => cases h
  · intro h
    rw [h]

theorem alike_obj_of_canonicalFields {as bs : Fields Json}
    (h : canonicalFields as = canonicalFields bs) : (obj as).Alike (obj bs) := by
  simp only [Alike, canonical, h]

/-! The order of fields -/

theorem isFieldBefore_trans (a b c : String × Json) (h : isFieldBefore a b)
    (k : isFieldBefore b c) : isFieldBefore a c := by
  simp only [isFieldBefore, decide_eq_true_eq] at h k ⊢
  exact String.le_trans h k

theorem isFieldBefore_total (a b : String × Json) : isFieldBefore a b || isFieldBefore b a := by
  simpa [isFieldBefore] using String.le_total a.1 b.1

theorem filter_mergeSort (key : String) (fields : Fields Json) :
    (fields.mergeSort isFieldBefore).filter (·.1 == key) = fields.filter (·.1 == key) := by
  have same : (fields.filter (·.1 == key)).Pairwise (isFieldBefore · ·) := by
    rw [List.pairwise_filter]
    refine List.pairwise_of_forall fun a b ha hb => ?_
    simp_all [isFieldBefore]
  have sub := (List.sublist_mergeSort isFieldBefore_trans isFieldBefore_total same
    List.filter_sublist).filter (·.1 == key)
  simp only [List.filter_filter, Bool.and_self] at sub
  exact (sub.eq_of_length ((List.mergeSort_perm fields isFieldBefore).filter _).length_eq.symm).symm

theorem isFieldBefore_head {a b : String × Json} {bs : Fields Json}
    (sorted : (b :: bs).Pairwise (isFieldBefore · ·)) (h : a ∈ b :: bs) : b.1 ≤ a.1 := by
  cases h with
  | head => exact String.le_refl _
  | tail _ later => simpa [isFieldBefore] using List.rel_of_pairwise_cons sorted later

theorem mem_of_filter_eq {a : String × Json} {as bs : Fields Json}
    (h : ∀ key, (as.filter (·.1 == key)) = bs.filter (·.1 == key)) (there : a ∈ as) : a ∈ bs := by
  have kept : a ∈ as.filter (·.1 == a.1) := List.mem_filter.mpr ⟨there, by simp⟩
  rw [h] at kept
  exact (List.mem_filter.mp kept).1

theorem eq_of_filter_eq {as bs : Fields Json} (sorted : as.Pairwise (isFieldBefore · ·))
    (sorted' : bs.Pairwise (isFieldBefore · ·))
    (h : ∀ key, (as.filter (·.1 == key)) = bs.filter (·.1 == key)) : as = bs := by
  induction as generalizing bs with
  | nil =>
    refine (List.eq_nil_iff_forall_not_mem.mpr fun b there => ?_).symm
    exact List.not_mem_nil (mem_of_filter_eq (fun key => (h key).symm) there)
  | cons a as ih =>
    cases bs with
    | nil => exact absurd (mem_of_filter_eq h List.mem_cons_self) List.not_mem_nil
    | cons b bs =>
      have name : a.1 = b.1 := String.le_antisymm
        (isFieldBefore_head sorted (mem_of_filter_eq (fun key => (h key).symm) List.mem_cons_self))
        (isFieldBefore_head sorted' (mem_of_filter_eq h List.mem_cons_self))
      have first := h a.1
      simp only [name, List.filter_cons, beq_self_eq_true, if_true, List.cons.injEq] at first
      refine List.cons_eq_cons.mpr ⟨first.1, ih sorted.tail sorted'.tail fun key => ?_⟩
      have rest := h key
      by_cases same : b.1 = key
      · rw [← same]
        exact first.2
      · simpa [List.filter_cons, name, same] using rest

/-- The values under a name, as far as it counts which they are. -/
def under (key : String) (fields : Fields Json) : List Json :=
  (fields.filter (·.1 == key)).map fun f => f.2.canonical

theorem filter_canonicalFields (key : String) (fields : Fields Json) :
    (canonicalFields fields).filter (·.1 == key) = (under key fields).map fun v => (key, v) := by
  rw [canonicalFields_eq_map, List.filter_map, under, List.map_map]
  apply List.map_congr_left
  intro field hField
  have name : field.1 = key := by simpa using (List.mem_filter.mp hField).2
  simp [name]

theorem under_eq_iff {key : String} {as bs : Fields Json} :
    under key as = under key bs ↔
      (canonicalFields as).filter (·.1 == key) = (canonicalFields bs).filter (·.1 == key) := by
  rw [filter_canonicalFields, filter_canonicalFields, List.map_inj_right]
  intro v w same
  exact (Prod.mk.inj same).2

theorem alike_obj {as bs : Fields Json} :
    (obj as).Alike (obj bs) ↔ ∀ key, under key as = under key bs := by
  simp only [Alike, canonical, obj.injEq, under_eq_iff]
  constructor
  · intro h key
    rw [← filter_mergeSort, h, filter_mergeSort]
  · intro h
    apply eq_of_filter_eq
    · exact List.pairwise_mergeSort isFieldBefore_trans isFieldBefore_total _
    · exact List.pairwise_mergeSort isFieldBefore_trans isFieldBefore_total _
    · intro key
      rw [filter_mergeSort, filter_mergeSort, h]

@[simp] theorem under_nil (key : String) : under key [] = [] := rfl

@[simp] theorem under_append (key : String) (as bs : Fields Json) :
    under key (as ++ bs) = under key as ++ under key bs := by
  simp [under]

theorem under_eq_nil {key : String} {fields : Fields Json} (h : ∀ field ∈ fields, field.1 ≠ key) :
    under key fields = [] := by
  rw [under, List.map_eq_nil_iff, List.filter_eq_nil_iff]
  simpa using h

@[simp] theorem under_cons (key name : String) (v : Json) (rest : Fields Json) :
    under key ((name, v) :: rest) =
      if name = key then v.canonical :: under key rest else under key rest := by
  by_cases same : name = key <;> simp [under, same]

theorem under_put (key name : String) (v : Json) (fields : Fields Json) :
    under key (fields.put name v) =
      if name = key then v.canonical :: (under key fields).tail else under key fields := by
  induction fields with
  | nil => simp [Fields.put]
  | cons field rest ih =>
    obtain ⟨other, w⟩ := field
    simp only [Fields.put]
    split
    · next same =>
      subst same
      simp only [under_cons]
      split <;> rfl
    · next differ =>
      simp only [under_cons, ih]
      by_cases same : name = key
      · have other : ¬other = key := fun h => differ (h.trans same.symm)
        simp [same, other]
      · simp [same]

theorem alike_obj_put {as bs : Fields Json} (h : (obj as).Alike (obj bs)) (name : String)
    (v : Json) : (obj (as.put name v)).Alike (obj (bs.put name v)) := by
  rw [alike_obj] at h ⊢
  intro key
  rw [under_put, under_put, h]

@[simp] theorem head?_under (key : String) (fields : Fields Json) :
    (under key fields).head? = (fields.get? key).map canonical := by
  induction fields with
  | nil => rfl
  | cons field rest ih =>
    obtain ⟨name, v⟩ := field
    by_cases same : name = key <;> simp [Fields.get?, same, ih]

theorem rel_get?_of_alike {as bs : Fields Json} (h : (obj as).Alike (obj bs)) (key : String) :
    Option.Rel Alike (as.get? key) (bs.get? key) := by
  have same := congrArg List.head? (alike_obj.mp h key)
  rw [head?_under, head?_under] at same
  rcases found : as.get? key with _ | v <;> rcases found' : bs.get? key with _ | w
  · exact .none
  · simp [found, found'] at same
  · simp [found, found'] at same
  · rw [found, found'] at same
    exact .some (Option.some.inj same)

theorem alike_value {as bs : Fields Json} (h : (obj as).Alike (obj bs)) (key : String) :
    (as.value key).Alike (bs.value key) := by
  have same := rel_get?_of_alike h key
  rw [Fields.value, Fields.value]
  generalize as.get? key = value, bs.get? key = value' at same
  cases same with
  | none => exact .refl _
  | some alike => exact alike

theorem eq_nil_of_alike_obj {as bs : Fields Json} (h : (obj as).Alike (obj bs)) :
    as = [] ↔ bs = [] := by
  have empty (fields : Fields Json) : fields = [] ↔ ∀ key, under key fields = [] := by
    constructor
    · intro none
      rw [none]
      exact fun _ => rfl
    · intro none
      cases fields with
      | nil => rfl
      | cons field rest =>
        obtain ⟨name, v⟩ := field
        have first := none name
        simp at first
  have same := alike_obj.mp h
  simp only [empty, same]

theorem under_present_cons (key name : String) (v : Json) (rest : Fields Json) :
    under key (Fields.present ((name, v) :: rest)) =
      if name = key ∧ v ≠ null then v.canonical :: under key rest.present
      else under key rest.present := by
  simp only [Fields.present, List.filter_cons]
  by_cases none : v = null
  · simp [none]
  · by_cases same : name = key <;> simp [none, same]

theorem under_present_eq_nil {key : String} {fields : Fields Json}
    (h : key ∉ fields.map Prod.fst) : under key fields.present = [] :=
  under_eq_nil fun _ hField same =>
    h (same ▸ List.mem_map_of_mem (List.mem_filter.mp hField).1)

/-- Fields of the same distinct names, left out where they are null, are alike when their values
are. -/
theorem alike_present {as bs : Fields Json} (names : as.map Prod.fst = bs.map Prod.fst)
    (distinct : (as.map Prod.fst).Nodup) :
    (obj as.present).Alike (obj bs.present) ↔
      as.map (·.2.canonical) = bs.map (·.2.canonical) := by
  rw [alike_obj]
  induction as generalizing bs with
  | nil =>
    rw [List.map_nil, eq_comm, List.map_eq_nil_iff] at names
    simp [names]
  | cons a as ih =>
    cases bs with
    | nil => simp at names
    | cons b bs =>
      obtain ⟨name, v⟩ := a
      obtain ⟨other, w⟩ := b
      simp only [List.map_cons, List.cons.injEq] at names
      obtain ⟨rfl, names⟩ := names
      obtain ⟨new, distinct⟩ := List.nodup_cons.mp distinct
      have none := under_present_eq_nil new
      have none' := under_present_eq_nil (names ▸ new)
      rw [List.map_cons, List.map_cons, List.cons.injEq, ← ih names distinct]
      constructor
      · intro h
        have first := h name
        simp only [under_present_cons, none, none', true_and] at first
        refine ⟨?_, fun key => ?_⟩
        · by_cases null : v = .null <;> by_cases null' : w = .null <;> simp_all
        · by_cases same : name = key
          · rw [← same, none, none']
          · simpa [under_present_cons, same] using h key
      · rintro ⟨first, rest⟩ key
        have nulls : v = null ↔ w = null := by
          rw [← alike_null, ← alike_null, Alike, Alike, first]
        simp only [under_present_cons, rest, first, ne_eq, nulls]

/-! Alike values are nested as deep as each other -/

theorem fieldsNesting_perm {as bs : Fields Json} (h : as.Perm bs) :
    fieldsNesting as = fieldsNesting bs := by
  induction h with
  | nil => rfl
  | cons field _ ih =>
    cases field
    simp only [fieldsNesting, ih]
  | swap first second _ =>
    cases first
    cases second
    simp only [fieldsNesting]
    omega
  | trans _ _ ih ih' => exact ih.trans ih'

mutual

@[simp] theorem nesting_canonical : ∀ v : Json, v.canonical.nesting = v.nesting
  | .null | .bool _ | .int _ | .str _ => by simp [canonical, nesting]
  | .float x => by
    simp only [canonical, canonicalFloat]
    split
    · split <;> simp [nesting]
    · rfl
  | .arr items => by simp [canonical, nesting, itemsNesting_canonical items]
  | .obj fields => by
    simp only [canonical, nesting]
    rw [fieldsNesting_perm (List.mergeSort_perm _ _), fieldsNesting_canonical fields]

@[simp] theorem itemsNesting_canonical : ∀ items : List Json,
    itemsNesting (canonicalItems items) = itemsNesting items
  | [] => rfl
  | item :: rest => by
    simp only [canonicalItems, itemsNesting, nesting_canonical item, itemsNesting_canonical rest]

@[simp] theorem fieldsNesting_canonical : ∀ fields : List (String × Json),
    fieldsNesting (canonicalFields fields) = fieldsNesting fields
  | [] => rfl
  | (_, value) :: rest => by
    simp only [canonicalFields, fieldsNesting, nesting_canonical value,
      fieldsNesting_canonical rest]

end

theorem Alike.nesting_eq {a b : Json} (h : a.Alike b) : a.nesting = b.nesting := by
  rw [← nesting_canonical a, ← nesting_canonical b, h]

end Sitewright.Json
