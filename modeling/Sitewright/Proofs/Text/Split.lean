import Sitewright.Text.Split
import Sitewright.Text.Words

/-!
The pieces of a text that is cut at a separator, and its words. The separator is in none of the
pieces, and no character of another class is in a word. Pieces without the separator, and words that
stand apart, are found again in the text that they are put together to.
-/

namespace Sitewright.Text

section Pieces

variable {sep : Char} {cs piece : List Char}

theorem not_mem_of_mem_split (h : piece ∈ split sep cs) : sep ∉ piece := by
  induction cs generalizing piece with
  | nil =>
    obtain rfl := List.mem_singleton.mp h
    exact List.not_mem_nil
  | cons c rest ih =>
    rw [split] at h
    split at h
    · obtain rfl | later := List.mem_cons.mp h
      · exact List.not_mem_nil
      · exact ih later
    · next other =>
      split at h
      · next none => exact absurd none (split_ne_nil sep rest)
      · next first pieces found =>
        rw [found] at ih
        obtain rfl | later := List.mem_cons.mp h
        · exact List.not_mem_cons_of_ne_of_not_mem (Ne.symm other) (ih List.mem_cons_self)
        · exact ih (List.mem_cons_of_mem _ later)

theorem cons_joinWith {pieces : List (List Char)} (h : pieces ≠ []) :
    sep :: joinWith sep pieces = pieces.flatMap (sep :: ·) := by
  induction pieces with
  | nil => exact absurd rfl h
  | cons first rest ih =>
    cases rest with
    | nil => simp [joinWith]
    | cons second rest =>
      rw [joinWith, ih (List.cons_ne_nil _ _)]
      rfl

@[simp] theorem flatMap_split (sep : Char) (cs : List Char) :
    (split sep cs).flatMap (sep :: ·) = sep :: cs := by
  rw [← cons_joinWith (split_ne_nil sep cs), joinWith_split]

theorem split_joinWith {pieces : List (List Char)} (h : pieces ≠ [])
    (k : ∀ piece ∈ pieces, sep ∉ piece) : split sep (joinWith sep pieces) = pieces := by
  induction pieces with
  | nil => exact absurd rfl h
  | cons first rest ih =>
    obtain ⟨here, later⟩ := List.forall_mem_cons.mp k
    cases rest with
    | nil => exact split_of_not_mem here
    | cons second rest => rw [joinWith, split_append here, ih (List.cons_ne_nil _ _) later]

theorem toList_join_eq_joinWith {s : String} (h : s.toList = [sep]) (pieces : List String) :
    (join s pieces).toList = joinWith sep (pieces.map String.toList) := by
  induction pieces with
  | nil => rfl
  | cons first rest ih =>
    cases rest with
    | nil => rfl
    | cons second rest =>
      rw [join, String.toList_append, String.toList_append, ih, h]
      simp [joinWith]

theorem split_join {s : String} (h : s.toList = [sep]) {pieces : List String} (some : pieces ≠ [])
    (k : ∀ piece ∈ pieces, sep ∉ piece.toList) :
    split sep (join s pieces).toList = pieces.map String.toList := by
  rw [toList_join_eq_joinWith h, split_joinWith (by simpa using some)]
  exact List.forall_mem_map.mpr k

theorem split_append_cons (before after : List Char) :
    split sep (before ++ sep :: after) = split sep before ++ split sep after := by
  induction before with
  | nil => simp [split]
  | cons c before ih =>
    obtain ⟨piece, pieces, found⟩ := List.exists_cons_of_ne_nil (split_ne_nil sep before)
    rw [found] at ih
    simp only [List.cons_append, split, ih, found]
    split <;> rfl

theorem joinWith_concat_append (init : List (List Char)) (last tail : List Char) :
    joinWith sep (init ++ [last]) ++ tail = joinWith sep (init ++ [last ++ tail]) := by
  induction init with
  | nil => rfl
  | cons first rest ih =>
    cases rest with
    | nil => simp [joinWith]
    | cons second rest =>
      calc joinWith sep (first :: second :: (rest ++ [last])) ++ tail
        _ = first ++ sep :: (joinWith sep (second :: rest ++ [last]) ++ tail) :=
          List.append_assoc _ _ _
        _ = joinWith sep (first :: second :: (rest ++ [last ++ tail])) := by
          rw [ih]
          rfl

theorem split_append_of_not_mem {tail : List Char} (cs : List Char) (h : sep ∉ tail) :
    ∃ init last, split sep cs = init ++ [last] ∧
      split sep (cs ++ tail) = init ++ [last ++ tail] := by
  have some := split_ne_nil sep cs
  have pieces := (List.dropLast_concat_getLast some).symm
  generalize (split sep cs).dropLast = init, (split sep cs).getLast some = last at pieces
  refine ⟨init, last, pieces, ?_⟩
  have whole : cs ++ tail = joinWith sep (init ++ [last ++ tail]) := by
    rw [← joinWith_concat_append, ← pieces, joinWith_split]
  have free : ∀ piece ∈ init ++ [last], sep ∉ piece := by
    rw [← pieces]
    exact fun piece => not_mem_of_mem_split
  rw [List.forall_mem_append, List.forall_mem_singleton] at free
  rw [whole, split_joinWith (List.append_ne_nil_of_right_ne_nil _ (List.cons_ne_nil _ _))]
  rw [List.forall_mem_append, List.forall_mem_singleton]
  exact ⟨free.1, fun there => (List.mem_append.mp there).elim free.2 h⟩

theorem exists_mem_split {c : Char} (h : c ∈ cs) (other : c ≠ sep) :
    ∃ piece ∈ split sep cs, c ∈ piece := by
  have whole : c ∈ (split sep cs).flatMap (sep :: ·) := by
    rw [flatMap_split]
    exact List.mem_cons_of_mem _ h
  obtain ⟨piece, there, within⟩ := List.mem_flatMap.mp whole
  exact ⟨piece, there, (List.mem_cons.mp within).resolve_left other⟩

end Pieces

section Words

variable {p : Char → Bool} {cs word : List Char}

theorem of_runs : (∀ c ∈ (runs p cs).1, p c = true) ∧
    ∀ word ∈ (runs p cs).2, word ≠ [] ∧ ∀ c ∈ word, p c = true := by
  induction cs with
  | nil => exact ⟨nofun, nofun⟩
  | cons c rest ih =>
    obtain ⟨first, others⟩ := ih
    simp only [runs]
    split
    · next hc => exact ⟨List.forall_mem_cons.mpr ⟨hc, first⟩, others⟩
    · refine ⟨nofun, ?_⟩
      split
      · exact others
      · next some =>
        rw [List.isEmpty_iff] at some
        exact List.forall_mem_cons.mpr ⟨⟨some, first⟩, others⟩

theorem of_mem_words (h : word ∈ words p cs) : word ≠ [] ∧ ∀ c ∈ word, p c = true := by
  obtain ⟨first, others⟩ := @of_runs p cs
  unfold words at h
  split at h
  · next run =>
    rw [run] at others
    exact others word h
  · next some run =>
    rw [run] at first others
    rcases List.mem_cons.mp h with rfl | h
    · exact ⟨some, first⟩
    · exact others word h

theorem runs_flatten (p : Char → Bool) (cs : List Char) :
    (runs p cs).1 ++ (runs p cs).2.flatten = cs.filter p := by
  induction cs with
  | nil => rfl
  | cons c rest ih =>
    simp only [runs]
    split
    · next hc => rw [List.filter_cons_of_pos hc, ← ih, List.cons_append]
    · next hc =>
      rw [List.filter_cons_of_neg hc, ← ih]
      rcases runs p rest with ⟨_ | _, others⟩ <;> rfl

@[simp] theorem words_flatten (p : Char → Bool) (cs : List Char) : (words p cs).flatten = cs.filter p := by
  rw [← runs_flatten, words]
  rcases runs p cs with ⟨_ | _, others⟩ <;> rfl

theorem flatMap_joinWith {β : Type} {f : Char → List β} {sep : Char} (h : f sep = [])
    (pieces : List (List Char)) : (joinWith sep pieces).flatMap f = pieces.flatten.flatMap f := by
  induction pieces with
  | nil => rfl
  | cons first rest ih =>
    cases rest with
    | nil => simp [joinWith]
    | cons second rest =>
      have whole : (first :: second :: rest).flatten = first ++ (second :: rest).flatten := rfl
      rw [joinWith, whole, List.flatMap_append, List.flatMap_append, List.flatMap_cons, h, ih,
        List.nil_append]

theorem runs_cons_of_not {c : Char} (h : p c = false) (rest : List Char) :
    runs p (c :: rest) = ([], words p rest) := by
  simp only [runs, words, h]
  rcases runs p rest with ⟨_ | _, others⟩ <;> rfl

theorem not_of_words_eq_nil (h : words p cs = []) : ∀ c ∈ cs, p c = false := by
  induction cs with
  | nil => exact nofun
  | cons c rest ih =>
    cases hc : p c with
    | true => simp [words, runs, hc] at h
    | false =>
      rw [words, runs_cons_of_not hc] at h
      exact List.forall_mem_cons.mpr ⟨hc, ih h⟩

theorem runs_append (h : ∀ c ∈ word, p c = true) (rest : List Char) :
    runs p (word ++ rest) = (word ++ (runs p rest).1, (runs p rest).2) := by
  induction word with
  | nil => rfl
  | cons c word ih =>
    obtain ⟨hc, h⟩ := List.forall_mem_cons.mp h
    simp only [List.cons_append, runs, ih h, hc, if_true]

theorem words_of_forall (some : word ≠ []) (h : ∀ c ∈ word, p c = true) :
    words p word = [word] := by
  obtain ⟨c, rest, rfl⟩ := List.exists_cons_of_ne_nil some
  have whole := runs_append h []
  rw [List.append_nil] at whole
  rw [words, whole]
  simp [runs]

theorem words_append {sep : Char} (some : word ≠ []) (h : ∀ c ∈ word, p c = true)
    (other : p sep = false) (rest : List Char) :
    words p (word ++ sep :: rest) = word :: words p rest := by
  obtain ⟨c, tail, rfl⟩ := List.exists_cons_of_ne_nil some
  rw [words, runs_append h, runs_cons_of_not other, List.append_nil]

theorem words_joinWith {sep : Char} (other : p sep = false) {pieces : List (List Char)}
    (h : ∀ piece ∈ pieces, piece ≠ [] ∧ ∀ c ∈ piece, p c = true) :
    words p (joinWith sep pieces) = pieces := by
  induction pieces with
  | nil => rfl
  | cons first rest ih =>
    obtain ⟨⟨some, good⟩, later⟩ := List.forall_mem_cons.mp h
    cases rest with
    | nil => exact words_of_forall some good
    | cons second rest => rw [joinWith, words_append some good other, ih later]

end Words

end Sitewright.Text
