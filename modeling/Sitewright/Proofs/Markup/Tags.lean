import Sitewright.Proofs.Markup.Pieces

namespace Sitewright.Markup

open Reading

def isSetting : Json → Bool
  | .bool _ | .str _ => true
  | _ => false

def styled (attributes : Fields Json) (style : Fields String) : Fields Json :=
  attributes ++ if style = [] then [] else [("style", .obj (Json.texts style))]

@[simp] theorem styled_nil (attributes : Fields Json) : styled attributes [] = attributes :=
  List.append_nil attributes

theorem nodup_unstyled : (([] : Fields String).map Prod.fst).Nodup := List.nodup_nil

namespace Tag

/-- What a reader is given. A flag that is not set is left out. -/
def given (tag : Tag) : Fields Json :=
  styled (tag.attributes.filter fun a => a.2 ≠ .bool false) tag.style

structure Sound (tag : Tag) : Prop where
  name : IsWord tag.name
  words : ∀ key ∈ tag.attributes.map Prod.fst, IsWord key
  settings : ∀ a ∈ tag.attributes, isSetting a.2 = true
  distinct : ("style" :: tag.attributes.map Prod.fst).Nodup
  styles : (tag.style.map Prod.fst).Nodup

variable {tag : Tag}

theorem Sound.sayable (h : tag.Sound) : ∀ a ∈ tag.given, Sayable a := by
  intro a ha
  rcases List.mem_append.mp ha with ha | ha
  · obtain ⟨ha, unset⟩ := List.mem_filter.mp ha
    refine ⟨h.words a.1 (List.mem_map_of_mem ha), ?_⟩
    have setting := h.settings a ha
    cases value : a.2 with
    | bool set =>
      cases set with
      | true => exact .inl rfl
      | false => simp [value] at unset
    | str s => exact .inr (.inl ⟨s, rfl⟩)
    | _ => simp [value, isSetting] at setting
  · split at ha
    · cases ha
    · obtain rfl := List.mem_singleton.mp ha
      have word : IsWord "style" := by decide
      exact ⟨word, .inr (.inr ⟨tag.style, h.styles, rfl⟩)⟩

theorem Sound.distinct_given (h : tag.Sound) : (tag.given.map Prod.fst).Nodup := by
  obtain ⟨noStyle, distinct⟩ := List.nodup_cons.mp h.distinct
  have kept : ((tag.attributes.filter fun a => a.2 ≠ .bool false).map Prod.fst).Sublist
      (tag.attributes.map Prod.fst) := List.filter_sublist.map Prod.fst
  rw [given, styled, List.map_append]
  split
  · simpa using distinct.sublist kept
  · refine List.nodup_append.mpr ⟨distinct.sublist kept, by simp, fun k hk style hStyle same => ?_⟩
    rw [List.map_singleton, List.mem_singleton] at hStyle
    subst hStyle same
    exact noStyle (kept.subset hk)

theorem writeAttribute_ne_empty {a : String × Json} (h : IsWord a.1) (set : a.2 ≠ .bool false) :
    writeAttribute a.1 a.2 ≠ "" := by
  obtain ⟨k, v⟩ := a
  have named : k ≠ "" := h.1
  cases v with
  | bool b =>
    cases b with
    | true => simpa [writeAttribute] using named
    | false => exact absurd rfl set
  | str s =>
    simp only [writeAttribute]
    split <;> simp [named]
  | _ => simp [writeAttribute, named]

theorem Sound.parts_eq (h : tag.Sound) :
    tag.parts = tag.name :: tag.given.map fun a => writeAttribute a.1 a.2 := by
  have attributes : (tag.attributes.map fun a => writeAttribute a.1 a.2).filter (· ≠ "") =
      (tag.attributes.filter fun a => a.2 ≠ .bool false).map fun a => writeAttribute a.1 a.2 := by
    rw [List.filter_map]
    refine congrArg _ (List.filter_congr fun a ha => ?_)
    by_cases set : a.2 = .bool false
    · simp [set, writeAttribute]
    · simp [set, writeAttribute_ne_empty (h.words a.1 (List.mem_map_of_mem ha)) set]
  have style : [writeStyle (.obj (tag.style.map fun s => (s.1, .str s.2)))].filter (· ≠ "") =
      (if tag.style = [] then [] else [("style", Json.obj (Json.texts tag.style))]).map
        fun a => writeAttribute a.1 a.2 := by
    cases tag.style with
    | nil => rfl
    | cons entry entries =>
      have named : writeStyle (.obj (Json.texts (entry :: entries))) ≠ "" := by
        simp [writeStyle, Json.isTruthy, Json.texts, braced]
      rw [if_neg (List.cons_ne_nil _ _)]
      exact List.filter_cons_of_pos (by simpa [Json.texts] using named)
  rw [parts, List.filter_append, attributes, style, ← List.map_append]
  rfl

end Tag

namespace Reading

variable [Machine]

theorem run_naming {name : String} (h : IsWord name) (nest : Nest) :
    run (.opened, nest) name.toList = some (.naming name.toList, nest) := by
  obtain ⟨nonempty, word⟩ := h
  cases cs : name.toList with
  | nil => exact absurd (by simpa using cs) nonempty
  | cons c cs' =>
    rw [cs] at word
    have first := word c List.mem_cons_self
    have noSlash : c ≠ '/' := ne_of_not_isDelimiter first rfl
    have start : step (.opened, nest) c = some (.naming [c], nest) := by
      simp [step, noSlash, first]
    rw [run_cons_of start]
    exact run_gather .naming (isDelimiter · = false) (fun text d plain => by simp [step, plain]) [c]
      fun d hd => word d (List.mem_cons_of_mem c hd)

theorem step_tag_of {c : Char} (h : c = ' ' ∨ c = '>') (name : String) (attributes : Fields Json)
    (key : List Char) (nest : Nest) :
    step (.tag name attributes key, nest) c = afterWord name (flagged attributes key) nest c := by
  rcases h with rfl | rfl <;> rfl

theorem run_naming_end {c : Char} (h : c = ' ' ∨ c = '>') (name : String) (nest : Nest)
    (cs : List Char) :
    run (.naming name.toList, nest) (c :: cs) = run (.tag name [] [], nest) (c :: cs) := by
  have same : step (.naming name.toList, nest) c = step (.tag name [] [], nest) c := by
    have delimiter : isDelimiter c = true := by
      rcases h with rfl | rfl <;> rfl
    rw [step_tag_of h]
    simp [step, delimiter, flagged]
  simp only [run, List.foldlM_cons, same]

theorem run_parts {tag : Tag} (h : tag.Sound) {c : Char} (hc : c = ' ' ∨ c = '>') (nest : Nest)
    (cs : List Char) :
    run (.opened, nest) ((Text.join " " tag.parts).toList ++ c :: cs) =
      (afterWord tag.name tag.given nest c).bind fun next => run next cs := by
  have written : (Text.join " " tag.parts).toList = tag.name.toList ++
      tag.given.flatMap fun a => ' ' :: (writeAttribute a.1 a.2).toList := by
    rw [h.parts_eq, Text.toList_join (c := ' ') rfl, List.flatMap_map]
  have start : run (.naming tag.name.toList, nest)
        ((tag.given.flatMap fun a => ' ' :: (writeAttribute a.1 a.2).toList) ++ c :: cs) =
      run (.tag tag.name [] [], nest)
        ((tag.given.flatMap fun a => ' ' :: (writeAttribute a.1 a.2).toList) ++ c :: cs) := by
    cases tag.given with
    | nil => exact run_naming_end hc tag.name nest cs
    | cons a given => exact run_naming_end (.inl rfl) tag.name nest _
  obtain ⟨found, rest, read, all⟩ := run_attributes tag.name [] nest h.sayable []
  rw [written, List.append_assoc, run_append_of (run_naming h.name nest), start,
    run_append_of read, run, List.foldlM_cons, step_tag_of hc, all]
  rfl

theorem run_opening {tag : Tag} (h : tag.Sound) (nest : Nest) :
    run (.opened, nest) ((Text.join " " tag.parts).toList ++ ['>']) =
      some (.content [], nest.inside tag.name tag.given) := by
  have after : afterWord tag.name tag.given nest '>' =
      (nest.enter? tag.name tag.given).map fun nest => (.content [], nest) := rfl
  rw [run_parts h (.inr rfl), after, nest.enter?_of_nodup tag.name h.distinct_given]
  rfl

theorem run_alone {tag : Tag} (h : tag.Sound) (nest : Nest) :
    run (.opened, nest) ((Text.join " " tag.parts).toList ++ [' ', '/', '>']) =
      some (.content [], nest.push [.element tag.name tag.given []]) := by
  have after : afterWord tag.name tag.given nest ' ' =
      some (.tag tag.name tag.given [], nest) := rfl
  have slash : step (.tag tag.name tag.given [], nest) '/' =
      some (.ending tag.name tag.given, nest) := rfl
  have left := nest.leave?_inside tag.name tag.given []
  rw [Nest.push_nil] at left
  rw [run_parts h (.inl rfl), after, Option.bind_some, run_cons_of slash]
  refine run_cons_of ?_ []
  simp [step, nest.enter?_of_nodup tag.name h.distinct_given, left]

theorem run_closing {name : String} (h : IsWord name) {nest next : Nest}
    (left : nest.leave? name = some next) :
    run (.opened, nest) ('/' :: (name.toList ++ ['>'])) = some (.content [], next) := by
  have slash : step (.opened, nest) '/' = some (.closing [], nest) := rfl
  have gathered : run (.closing [], nest) name.toList = some (.closing name.toList, nest) := by
    refine run_gather .closing (isDelimiter · = false) (fun text c word => ?_) [] h.2
    have inName : c ≠ '>' := ne_of_not_isDelimiter word rfl
    simp [step, inName, word]
  rw [run_cons_of slash, run_append_of gathered]
  refine run_cons_of ?_ []
  simp [step, left]

end Reading

end Sitewright.Markup
