import Sitewright.Proofs.Json.Escape
import Sitewright.Proofs.Json.Layout
import Sitewright.Proofs.Json.Legible

namespace Sitewright.Json

open Reader

theorem skip_blanks {blanks : List Char} (h : ∀ c ∈ blanks, isSpace c = true) (cs : List Char) :
    skip (blanks ++ cs) = skip cs :=
  List.dropWhile_append_of_pos h

theorem skip_of_not_isSpace {c : Char} (h : isSpace c = false) (cs : List Char) :
    skip (c :: cs) = c :: cs := by
  rw [skip, List.dropWhile_cons_of_neg (by simp [h])]

theorem stops_of_skip {c : Char} {after rest : List Char} (h : skip after = c :: rest)
    (stop : IsStop c) : Stops after := by
  cases after with
  | nil => cases h
  | cons first more =>
    refine stops_cons ?_ more
    by_cases blank : isSpace first = true
    · exact isStop_of_isSpace blank
    · rw [skip_of_not_isSpace (by simpa using blank)] at h
      rwa [(List.cons.inj h).1]

section Number

variable (fuel levels : Nat) {c : Char} (cs : List Char)

theorem value_of_isDigit (h : isDigit c = true) :
    value (fuel + 1) levels (c :: cs) = number (c :: cs) := by
  rw [value]
  all_goals
    intros
    rename_i same
    rw [(List.cons.inj same).1] at h
    exact absurd h (by decide)

theorem value_of_minus (h : isDigit c = true) :
    value (fuel + 1) levels ('-' :: c :: cs) = number ('-' :: c :: cs) := by
  rw [value]
  all_goals
    intros
    rename_i same
    obtain ⟨first, more⟩ := List.cons.inj same
    first
      | exact absurd first (by decide)
      | rw [(List.cons.inj more).1] at h
        exact absurd h (by decide)

end Number

theorem value_toString {fuel levels : Nat} {n : Int} {rest : List Char} (fits : Text.Fits n)
    (stops : Stops rest) :
    value (fuel + 1) levels ((toString n).toList ++ rest) = .ok (.int n, rest) := by
  rw [← number_toString fits stops]
  rcases toString_forms n with ⟨m, -, written⟩ | ⟨m, -, written⟩
  all_goals
    obtain ⟨d, ds, digits, digit⟩ := exists_toDigits m
    rw [written, digits]
  · exact value_of_isDigit fuel levels _ digit
  · exact value_of_minus fuel levels _ digit

theorem value_quoted (fuel levels : Nat) (ascii : Bool) (s : String) (rest : List Char) :
    value (fuel + 1) levels (quoted ascii s rest) = .ok (.str s, rest) := by
  rw [quoted, value, string_flatMap_escapeChar]
  rfl

mutual

def steps : Json → Nat
  | .arr items => itemsSteps items + 2
  | .obj fields => fieldsSteps fields + 2
  | _ => 1

def itemsSteps : List Json → Nat
  | [] => 0
  | item :: rest => item.steps + itemsSteps rest

def fieldsSteps : List (String × Json) → Nat
  | [] => 0
  | (_, value) :: rest => value.steps + fieldsSteps rest

end

theorem steps_pos (v : Json) : 0 < v.steps := by cases v <;> simp [steps]

namespace Layout

variable (layout : Layout)

theorem write_forms {levels : Nat} {v : Json} (legible : v.Legible levels) (level : Nat)
    (rest : List Char) :
    ∃ c cs, layout.write level v rest = c :: cs ∧ isSpace c = false ∧ c ≠ ']' := by
  cases v with
  | null => exact ⟨_, _, rfl, rfl, by decide⟩
  | bool b => cases b <;> exact ⟨_, _, rfl, rfl, by decide⟩
  | int n =>
    rcases toString_forms n with ⟨m, -, written⟩ | ⟨m, -, written⟩
    · obtain ⟨d, ds, digits, digit⟩ := exists_toDigits m
      refine ⟨d, ds ++ rest, ?_, not_isSpace_of_isDigit digit, ?_⟩
      · rw [write, written, digits, List.cons_append]
      · rintro rfl
        exact absurd digit (by decide)
    · refine ⟨'-', Nat.toDigits 10 m ++ rest, ?_, rfl, by decide⟩
      rw [write, written, List.cons_append]
  | float x => cases legible
  | str s => exact ⟨_, _, rfl, rfl, by decide⟩
  | arr items => cases items <;> exact ⟨_, _, rfl, rfl, by decide⟩
  | obj fields => cases fields <;> exact ⟨_, _, rfl, rfl, by decide⟩

theorem skip_write {levels : Nat} {v : Json} (legible : v.Legible levels) (level : Nat)
    (rest : List Char) : skip (layout.write level v rest) = layout.write level v rest := by
  obtain ⟨c, cs, same, blank, -⟩ := layout.write_forms legible level rest
  rw [same, skip_of_not_isSpace blank]

theorem writeItems_forms {levels : Nat} {item : Json} (items : List Json)
    (legible : item.Legible levels) (level : Nat) (rest : List Char) :
    ∃ c cs, layout.writeItems level (item :: items) rest = c :: cs ∧ isSpace c = false ∧
      c ≠ ']' := by
  cases items <;> exact layout.write_forms legible level _

theorem writeFields_forms (field : String × Json) (fields : List (String × Json)) (level : Nat)
    (rest : List Char) : ∃ cs, layout.writeFields level (field :: fields) rest = '"' :: cs := by
  cases fields <;> exact ⟨_, rfl⟩

end Layout

section Step

variable {fuel levels : Nat} {c : Char} {cs more : List Char}

theorem value_bracket (inside : skip cs = c :: more) (other : c ≠ ']') :
    value (fuel + 1) (levels + 1) ('[' :: cs) =
      (items fuel levels (c :: more)).map fun p => (.arr p.1, p.2) := by
  rw [value, if_neg (Nat.succ_ne_zero levels), inside]
  split
  · next same => exact absurd (List.cons.inj same).1 other
  · rfl

theorem value_brace (inside : skip cs = '"' :: more) :
    value (fuel + 1) (levels + 1) ('\x7b' :: cs) =
      (fields fuel levels ('"' :: more)).map fun p => (.obj (Fields.ofPairs p.1), p.2) := by
  rw [value, if_neg (Nat.succ_ne_zero levels), inside]
  rfl

variable {v : Json} {after rest : List Char}

theorem items_last (read : value fuel levels cs = .ok (v, after))
    (close : skip after = ']' :: rest) : items (fuel + 1) levels cs = .ok ([v], rest) := by
  rw [items, read, ok_bind]
  simp only [close]
  rfl

theorem items_more (read : value fuel levels cs = .ok (v, after))
    (comma : skip after = ',' :: rest) :
    items (fuel + 1) levels cs =
      (items fuel levels (skip rest)).map fun p => (v :: p.1, p.2) := by
  rw [items, read, ok_bind]
  simp only [comma]
  cases items fuel levels (skip rest) <;> rfl

variable (ascii : Bool) (key : String)

theorem fields_last (read : value fuel levels (skip cs) = .ok (v, after))
    (close : skip after = '\x7d' :: rest) :
    fields (fuel + 1) levels (quoted ascii key (':' :: ' ' :: cs)) = .ok ([(key, v)], rest) := by
  have colon : skip (':' :: ' ' :: cs) = ':' :: ' ' :: cs := rfl
  have space : skip (' ' :: cs) = skip cs := rfl
  rw [quoted, fields, string_flatMap_escapeChar]
  simp only [colon, space, read, ok_bind, close]
  rfl

theorem fields_more (read : value fuel levels (skip cs) = .ok (v, after))
    (comma : skip after = ',' :: rest) :
    fields (fuel + 1) levels (quoted ascii key (':' :: ' ' :: cs)) =
      (fields fuel levels (skip rest)).map fun p => ((key, v) :: p.1, p.2) := by
  have colon : skip (':' :: ' ' :: cs) = ':' :: ' ' :: cs := rfl
  have space : skip (' ' :: cs) = skip cs := rfl
  rw [quoted, fields, string_flatMap_escapeChar]
  simp only [colon, space, read, ok_bind, comma]
  cases fields fuel levels (skip rest) <;> rfl

end Step

namespace Layout

variable (layout : Layout)

mutual

theorem value_write : ∀ {v : Json} {fuel levels level : Nat} {rest : List Char},
    v.Legible levels → Stops rest → v.steps ≤ fuel →
    value fuel levels (layout.write level v rest) = .ok (v.merged, rest)
  | v, 0, _, _, _, _, _, enough => absurd enough (Nat.not_le_of_lt (steps_pos v))
  | .null, fuel + 1, _, _, _, _, _, _ => rfl
  | .bool true, fuel + 1, _, _, _, _, _, _ => rfl
  | .bool false, fuel + 1, _, _, _, _, _, _ => rfl
  | .int n, fuel + 1, levels, level, rest, .int fits, stops, _ => value_toString fits stops
  | .str s, fuel + 1, _, _, _, _, _, _ => value_quoted fuel _ _ s _
  | .arr [], fuel + 1, levels + 1, _, _, _, _, _ => by
    rw [write, value, if_neg (Nat.succ_ne_zero levels)]
    rfl
  | .arr (item :: items), fuel + 1, levels + 1, level, rest, .arr legible, _, enough => by
    have bound : itemsSteps (item :: items) + 2 ≤ fuel + 1 := enough
    have close : skip (layout.edge level ++ ']' :: rest) = ']' :: rest :=
      skip_blanks (layout.edge_blank level) _
    have read := @items_write (item :: items) fuel levels (level + 1) _ rest (List.cons_ne_nil _ _)
      legible close (by omega)
    obtain ⟨c, cs, same, blank, other⟩ := layout.writeItems_forms items
      (legible item List.mem_cons_self) (level + 1) (layout.edge level ++ ']' :: rest)
    have inside : skip (layout.edge (level + 1) ++ layout.writeItems (level + 1) (item :: items)
        (layout.edge level ++ ']' :: rest)) = c :: cs := by
      rw [skip_blanks (layout.edge_blank _), same, skip_of_not_isSpace blank]
    rw [same] at read
    rw [write_arr_cons, value_bracket inside other, read]
    rfl
  | .obj [], fuel + 1, levels + 1, _, _, _, _, _ => by
    rw [write, value, if_neg (Nat.succ_ne_zero levels)]
    rfl
  | .obj (field :: fields), fuel + 1, levels + 1, level, rest, .obj legible, _, enough => by
    have bound : fieldsSteps (field :: fields) + 2 ≤ fuel + 1 := enough
    have close : skip (layout.edge level ++ '\x7d' :: rest) = '\x7d' :: rest :=
      skip_blanks (layout.edge_blank level) _
    have read := @fields_write (field :: fields) fuel levels (level + 1) _ rest
      (List.cons_ne_nil _ _) legible close (by omega)
    obtain ⟨cs, same⟩ := layout.writeFields_forms field fields (level + 1)
      (layout.edge level ++ '\x7d' :: rest)
    have inside : skip (layout.edge (level + 1) ++ layout.writeFields (level + 1) (field :: fields)
        (layout.edge level ++ '\x7d' :: rest)) = '"' :: cs := by
      rw [skip_blanks (layout.edge_blank _), same]
      rfl
    rw [same] at read
    rw [write_obj_cons, value_brace inside, read]
    rfl

theorem items_write : ∀ {items : List Json} {fuel levels level : Nat} {after rest : List Char},
    items ≠ [] → (∀ item ∈ items, item.Legible levels) → skip after = ']' :: rest →
    itemsSteps items < fuel →
    Reader.items fuel levels (layout.writeItems level items after) = .ok (mergedItems items, rest)
  | [], _, _, _, _, _, nonempty, _, _, _ => absurd rfl nonempty
  | [item], fuel + 1, levels, level, after, rest, _, legible, close, enough => by
    have bound : item.steps + 0 < fuel + 1 := enough
    have first := @value_write item fuel levels level after (legible item List.mem_cons_self)
      (stops_of_skip close (by decide)) (by omega)
    exact items_last first close
  | item :: next :: items, fuel + 1, levels, level, after, rest, _, legible, close, enough => by
    rw [List.forall_mem_cons] at legible
    have bound : item.steps + itemsSteps (next :: items) < fuel + 1 := enough
    have positive := steps_pos item
    have first := @value_write item fuel levels level
      (',' :: (layout.gap level ++ layout.writeItems level (next :: items) after)) legible.1
      (stops_cons (by decide) _) (by omega)
    have others := @items_write (next :: items) fuel levels level after rest (List.cons_ne_nil _ _)
      legible.2 close (by omega)
    obtain ⟨c, cs, same, blank, -⟩ := layout.writeItems_forms items
      (legible.2 next List.mem_cons_self) level after
    have inside : skip (layout.gap level ++ layout.writeItems level (next :: items) after) =
        layout.writeItems level (next :: items) after := by
      rw [skip_blanks (layout.gap_blank _), same, skip_of_not_isSpace blank]
    rw [writeItems_cons_cons, items_more first (skip_of_not_isSpace rfl _), inside, others]
    rfl

theorem fields_write : ∀ {fields : List (String × Json)} {fuel levels level : Nat}
    {after rest : List Char},
    fields ≠ [] → (∀ field ∈ fields, field.2.Legible levels) → skip after = '\x7d' :: rest →
    fieldsSteps fields < fuel →
    Reader.fields fuel levels (layout.writeFields level fields after) =
      .ok (mergedFields fields, rest)
  | [], _, _, _, _, _, nonempty, _, _, _ => absurd rfl nonempty
  | [(key, v)], fuel + 1, levels, level, after, rest, _, legible, close, enough => by
    have bound : v.steps + 0 < fuel + 1 := enough
    have readable : v.Legible levels := legible (key, v) List.mem_cons_self
    have read := @value_write v fuel levels level after readable
      (stops_of_skip close (by decide)) (by omega)
    rw [← layout.skip_write readable level after] at read
    exact fields_last _ key read close
  | (key, v) :: next :: fields, fuel + 1, levels, level, after, rest, _, legible, close,
      enough => by
    rw [List.forall_mem_cons] at legible
    have bound : v.steps + fieldsSteps (next :: fields) < fuel + 1 := enough
    have positive := steps_pos v
    have read := @value_write v fuel levels level
      (',' :: (layout.gap level ++ layout.writeFields level (next :: fields) after)) legible.1
      (stops_cons (by decide) _) (by omega)
    have others := @fields_write (next :: fields) fuel levels level after rest
      (List.cons_ne_nil _ _) legible.2 close (by omega)
    rw [← layout.skip_write legible.1] at read
    obtain ⟨cs, quote⟩ := layout.writeFields_forms next fields level after
    have inside : skip (layout.gap level ++ layout.writeFields level (next :: fields) after) =
        layout.writeFields level (next :: fields) after := by
      rw [skip_blanks (layout.gap_blank _), quote]
      rfl
    rw [writeFields_cons_cons, fields_more _ key read (skip_of_not_isSpace rfl _), inside, others]
    rfl

end

mutual

theorem steps_le_length : ∀ {v : Json} {levels level : Nat} {rest : List Char}, v.Legible levels →
    v.steps + rest.length ≤ (layout.write level v rest).length
  | .null, _, _, _, _ | .bool true, _, _, _, _ | .bool false, _, _, _, _ | .arr [], _, _, _, _
  | .obj [], _, _, _, _ => by
    simp only [steps, itemsSteps, fieldsSteps, write, List.length_cons]
    omega
  | .int n, _, _, rest, _ => by
    have positive : 0 < (toString n).toList.length := by
      rcases toString_forms n with ⟨m, -, written⟩ | ⟨m, -, written⟩
      · exact written ▸ Nat.length_toDigits_pos
      · exact written ▸ Nat.succ_pos _
    simp only [steps, write, List.length_append]
    omega
  | .str s, _, _, rest, _ => by
    simp only [steps, write, quoted, List.length_cons, List.length_append]
    omega
  | .arr (item :: items), _, level, rest, .arr legible => by
    have inside := @itemsSteps_le_length (item :: items) _ (level + 1)
      (layout.edge level ++ ']' :: rest) legible
    simp only [steps, write_arr_cons, List.length_cons, List.length_append] at inside ⊢
    omega
  | .obj (field :: fields), _, level, rest, .obj legible => by
    have inside := @fieldsSteps_le_length (field :: fields) _ (level + 1)
      (layout.edge level ++ '\x7d' :: rest) legible
    simp only [steps, write_obj_cons, List.length_cons, List.length_append] at inside ⊢
    omega

theorem itemsSteps_le_length : ∀ {items : List Json} {levels level : Nat} {rest : List Char},
    (∀ item ∈ items, item.Legible levels) →
    itemsSteps items + rest.length ≤ (layout.writeItems level items rest).length
  | [], _, _, _, _ => by simp [itemsSteps, writeItems]
  | [item], _, level, rest, legible =>
    @steps_le_length item _ level rest (legible item List.mem_cons_self)
  | item :: next :: items, levels, level, rest, legible => by
    rw [List.forall_mem_cons] at legible
    have first := @steps_le_length item levels level
      (',' :: (layout.gap level ++ layout.writeItems level (next :: items) rest)) legible.1
    have others := @itemsSteps_le_length (next :: items) levels level rest legible.2
    rw [writeItems_cons_cons, itemsSteps]
    simp only [List.length_cons, List.length_append] at first
    omega

theorem fieldsSteps_le_length : ∀ {fields : List (String × Json)} {levels level : Nat}
    {rest : List Char}, (∀ field ∈ fields, field.2.Legible levels) →
    fieldsSteps fields + rest.length ≤ (layout.writeFields level fields rest).length
  | [], _, _, _, _ => by simp [fieldsSteps, writeFields]
  | [(key, v)], _, level, rest, legible => by
    have first := @steps_le_length v _ level rest (legible (key, v) List.mem_cons_self)
    simp only [fieldsSteps, writeFields, quoted, List.length_cons, List.length_append]
    omega
  | (key, v) :: next :: fields, levels, level, rest, legible => by
    rw [List.forall_mem_cons] at legible
    have first := @steps_le_length v levels level
      (',' :: (layout.gap level ++ layout.writeFields level (next :: fields) rest)) legible.1
    have others := @fieldsSteps_le_length (next :: fields) levels level rest legible.2
    rw [writeFields_cons_cons, fieldsSteps]
    simp only [quoted, List.length_cons, List.length_append] at first ⊢
    omega

end

variable {layout}

/-- The text of a value, with blanks after it, is read as the value with its fields by name. -/
theorem read_of_toList [Machine] {text : String} {level : Nat} {v : Json} {after : List Char}
    (written : text.toList = layout.write level v after)
    (blank : ∀ c ∈ after, isSpace c = true) (legible : v.Legible Machine.textNesting) :
    read text = .ok v.merged := by
  have done : skip after = [] := by
    rw [skip, List.dropWhile_eq_nil_iff]
    simpa using blank
  have stops : Stops after := fun c hc => isStop_of_isSpace (blank c (List.mem_of_mem_head? hc))
  have enough : v.steps ≤ text.toList.length + 1 := by
    have bound := @steps_le_length layout v Machine.textNesting level after legible
    rw [written]
    omega
  have start : skip text.toList = layout.write level v after := by
    rw [written, layout.skip_write legible]
  rw [Json.read, start, layout.value_write legible stops enough]
  simp [done]

end Layout

variable {v : Json}

section Text

variable [Machine] (lasting : Lasting Machine.textNesting v) (ascii : Bool)

include lasting

theorem read_compact : read (compact ascii v) = .ok v := by
  have written := Layout.toList_compact ascii 0 v []
  rw [List.append_nil] at written
  rw [Layout.read_of_toList written (List.forall_mem_nil _) lasting.legible,
    merged_of_isDistinct lasting.distinct]

theorem read_indented (level : Nat) : read (indented ascii level v ++ "\n") = .ok v := by
  have written := Layout.toList_indented ascii level v ['\n']
  have blank : ∀ c ∈ ['\n'], isSpace c = true := List.forall_mem_singleton.mpr rfl
  rw [Layout.read_of_toList (String.toList_append.trans written) blank lasting.legible,
    merged_of_isDistinct lasting.distinct]

end Text

/-! Literals -/

def texts (entries : Fields String) : Fields Json :=
  entries.map fun entry => (entry.1, .str entry.2)

theorem toList_compactFields_one (entry : String × String) :
    (compactFields false (texts [entry])).toList =
      (stringText false entry.1 ++ ": " ++ stringText false entry.2).toList := by
  simp [texts, compactFields, compact]

theorem toList_compactFields_more (entry next : String × String) (entries : Fields String) :
    (compactFields false (texts (entry :: next :: entries))).toList =
      (stringText false entry.1 ++ ": " ++ stringText false entry.2).toList ++
        ',' :: ' ' :: (compactFields false (texts (next :: entries))).toList := by
  simp [texts, compactFields, compact]

theorem parse?_literal [Machine] (lasting : Lasting Machine.textNesting v) :
    parse? (literal v) = some v := by
  rw [parse?, literal, read_compact lasting]
  rfl

theorem parse?_literal_str [Machine] (s : String) : parse? (literal (.str s)) = some (.str s) :=
  parse?_literal (.str s)

theorem lasting_texts [Machine] {entries : Fields String}
    (distinct : (entries.map Prod.fst).Nodup) :
    Lasting Machine.textNesting (.obj (texts entries)) := by
  obtain ⟨levels, deep⟩ := Machine.exists_textNesting (by decide : 1 ≤ 256)
  rw [deep]
  refine .obj (by simpa [texts, Function.comp_def] using distinct) fun field hField => ?_
  obtain ⟨entry, -, rfl⟩ := List.mem_map.mp hField
  exact .str entry.2

theorem parse?_literal_texts [Machine] {entries : Fields String}
    (distinct : (entries.map Prod.fst).Nodup) :
    parse? (literal (.obj (texts entries))) = some (.obj (texts entries)) :=
  parse?_literal (lasting_texts distinct)

end Sitewright.Json
