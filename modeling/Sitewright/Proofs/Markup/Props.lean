import Mathlib.Data.List.Forall2
import Mathlib.Data.String.Basic
import Sitewright.Document.Node
import Sitewright.Markup.Props
import Sitewright.Proofs.Markup.Reading

/-!
What can be counted on in props: the names that a container takes over as attributes are words that
can be told apart, and there are props of every node whose grid has no infinite number.
-/

namespace Sitewright.Markup

open Reading

theorem isDelimiter_of_isAlphanumeric {c : Char} (h : Text.isAlphanumeric c = true) :
    isDelimiter c = false := by
  have blank : Text.isBlank c = false := by
    simp only [Text.isAlphanumeric, Bool.or_eq_true] at h
    rcases h with h | h
    · exact Text.not_inRanges_of_apart (by decide +kernel) h
    · exact Text.not_inRanges_of_apart (by decide +kernel) h
  have marks : (['<', '>', '/', '=', '\x7b', '\x7d', '"', '\'', '&'].all fun d =>
      !Text.isAlphanumeric d) = true := by
    decide +kernel
  simp only [isDelimiter, blank, Bool.false_or, List.contains_eq_mem, decide_eq_false_iff_not]
  intro mark
  have other := List.all_eq_true.mp marks c mark
  rw [h] at other
  cases other

theorem isWord_of_isAttributeName {key : String} (h : Props.isAttributeName key = true) :
    IsWord key := by
  unfold Props.isAttributeName at h
  split at h
  · cases h
  · next first rest chars =>
    simp only [Bool.and_eq_true, List.all_eq_true] at h
    refine ⟨fun empty => by simp [empty] at chars, fun c hc => ?_⟩
    rw [chars] at hc
    by_cases dash : c = '-'
    · subst dash
      decide
    · exact isDelimiter_of_isAlphanumeric (h.2 c (List.mem_filter.mpr ⟨hc, by simpa using dash⟩))

theorem oneOf_mem {allowed : List String} {fallback : String} (h : fallback ∈ allowed)
    (s : String) : Props.oneOf allowed fallback s ∈ allowed := by
  unfold Props.oneOf
  split
  · next mem => exact mem
  · exact h

theorem names_filterMap {α β : Type} {f : String × α → Option (String × β)}
    (h : ∀ a b, f a = some b → b.1 = a.1) {fields : Fields α} :
    ((fields.filterMap f).map Prod.fst).Sublist (fields.map Prod.fst) := by
  induction fields with
  | nil => exact .slnil
  | cons a rest ih =>
    rw [List.filterMap_cons]
    split
    · exact ih.cons a.1
    · next b found =>
      rw [List.map_cons, List.map_cons, h a b found]
      exact ih.cons_cons a.1

theorem attributes_distinct {props : Fields Json} (distinct : (props.map Prod.fst).Nodup) :
    (∀ key ∈ (Props.attributes props).map Prod.fst, IsWord key) ∧
      ("style" :: (Props.attributes props).map Prod.fst).Nodup := by
  have kept : ∀ a ∈ Props.attributes props, a.1 ∉ Props.reservedAttributes ∧
      Props.isAttributeName a.1 = true := by
    intro a ha
    obtain ⟨field, -, taken⟩ := List.mem_filterMap.mp ha
    split at taken
    · cases taken
    · next free =>
      obtain ⟨value, -, rfl⟩ := Option.map_eq_some_iff.mp taken
      simpa using free
  have sorted : ((props.mergeSort fun a b => decide (a.1 ≤ b.1)).map Prod.fst).Nodup :=
    ((List.mergeSort_perm props _).map Prod.fst).nodup_iff.mpr distinct
  have unlike : ((Props.attributes props).map Prod.fst).Nodup := by
    refine sorted.sublist (names_filterMap fun field a taken => ?_)
    split at taken
    · cases taken
    · obtain ⟨value, -, rfl⟩ := Option.map_eq_some_iff.mp taken
      rfl
  refine ⟨fun key hKey => ?_, List.nodup_cons.mpr ⟨fun style => ?_, unlike⟩⟩
  · obtain ⟨a, ha, rfl⟩ := List.mem_map.mp hKey
    exact isWord_of_isAttributeName (kept a ha).2
  · obtain ⟨a, ha, same⟩ := List.mem_map.mp style
    exact (kept a ha).1 (same ▸ by decide)

/-! ### What props say -/

/-- The text of a value: a string is its own text, null and what is missing give way to the default,
and any other value is displayed. -/
inductive Says (fallback : String) : Json → String → Prop
  | absent : Says fallback .null fallback
  | text (s : String) : Says fallback (.str s) s
  | displayed {value : Json} (there : value ≠ .null) (other : value.asText? = none) :
      Says fallback value value.display

inductive Picks (allowed : List String) (fallback : String) : String → String → Prop
  | listed {s : String} (h : s ∈ allowed) : Picks allowed fallback s s
  | other {s : String} (h : s ∉ allowed) : Picks allowed fallback s fallback

inductive Counts (fallback : Int) : Json → Int → Prop
  | number {value : Json} {n : Int} (h : value.toInteger = .ok (some n)) : Counts fallback value n
  | other {value : Json} (h : value.toInteger = .ok none) : Counts fallback value fallback

inductive Configures : Json → Fields Json → Prop
  | object (fields : Fields Json) : Configures (.obj fields) fields
  | other {value : Json} (h : value.asObject? = none) : Configures value []

def listed : Json → List Json
  | .arr values => values.filter fun value => value ≠ .null
  | _ => []

inductive IsItem : Json → ListItem → Prop
  | object {fields : Fields Json} {text : String} {items : List ListItem}
      (wording : Says "" (fields.value "text") text)
      (below : List.Forall₂ IsItem (listed (fields.value "children")) items) :
      IsItem (.obj fields) ⟨text, items⟩
  | plain {value : Json} {text : String} (other : value.asObject? = none)
      (wording : Says "" value text) : IsItem value ⟨text, []⟩

/-- The objects of an array, each with its place among all values. -/
def placedObjects : Json → List (Nat × Fields Json)
  | .arr values => values.zipIdx.filterMap fun p => p.1.asObject?.map fun fields => (p.2, fields)
  | _ => []

/-- A field of a form, by the object that it is given by. -/
structure IsField (given : Nat × Fields Json) (field : FormField) : Prop where
  name : Says ("field-" ++ toString (given.1 + 1))
    ((given.2.value "id").orElse (given.2.value "name")) field.name
  type : ∃ written, Says "text" (given.2.value "type") written ∧
    Picks Props.formFieldTypes "text" written field.type
  label : Says "" (given.2.value "label") field.label
  placeholder : Says "" (given.2.value "placeholder") field.placeholder
  required : field.required = (given.2.value "required").isTruthy

/-- A name begins with a letter and goes on with letters, digits and hyphens, and some names are
reserved. -/
def NamesAttribute (key : String) : Prop :=
  key ∉ Props.reservedAttributes ∧ ∃ first rest, key.toList = first :: rest ∧
    Text.isLetter first = true ∧ ∀ c ∈ rest, c = '-' ∨ Text.isAlphanumeric c = true

/-- The attributes are the strings under such names, in the order of the names. -/
structure TakesOver (props : Fields Json) (attributes : Fields String) : Prop where
  sorted : attributes.Pairwise fun a b => a.1 < b.1
  mem : ∀ key value, (key, value) ∈ attributes ↔ (key, .str value) ∈ props ∧ NamesAttribute key

/-- What the type of a node and its open map of props say that it shows. -/
inductive Describes (node : Node) : Props → Prop
  | text {text written tag : String} (type : node.type = "Text")
      (wording : Says "Text" (node.props.value "text") text)
      (writes : Says "p" (node.props.value "tag") written)
      (picks : Picks Props.textTags "p" (Text.lower written) tag) :
      Describes node (.text text tag)
  | image {src alt : String} (type : node.type = "Image")
      (source : Says "" (node.props.value "src") src)
      (instead : Says "" (node.props.value "alt") alt) : Describes node (.image src alt)
  | button {text written : String} {linkType linkTarget : Option String}
      (type : node.type = "Button")
      (wording : Says "Button" ((node.props.value "text").orElse (node.props.value "label")) text)
      (kind : ∀ s, linkType = some s ↔
        node.props.value "linkType" = .str s ∧ s ∈ Props.linkTypes)
      (writes : Says "" (node.props.value "linkTarget") written)
      (target : ∀ s, linkTarget = some s ↔ written = s ∧ s ≠ "") :
      Describes node (.button text linkType linkTarget
        (node.props.value "openInNewTab").isTruthy)
  | link {text written : String} (type : node.type = "Link")
      (writes : Says "#" (node.props.value "href") written)
      (wording : Says "Link" ((node.props.value "displayText").orElse (node.props.value "text")) text) :
      Describes node (.link (if written = "" then "#" else written) text
        (node.props.value "openInNewTab").isTruthy)
  | list {config : Fields Json} {written kind : String} {items : List ListItem}
      (type : node.type = "List") (configured : Configures (node.props.value "listConfig") config)
      (writes : Says "unordered" (config.value "type") written)
      (picks : Picks Props.listTypes "unordered" written kind)
      (each : List.Forall₂ IsItem (listed (config.value "items")) items) :
      Describes node (.list kind items)
  | grid {config : Fields Json} {rows cols gap : Int}
      (type : node.type = "Grid") (configured : Configures (node.props.value "gridConfig") config)
      (down : Counts 2 (config.value "rows") rows) (across : Counts 2 (config.value "cols") cols)
      (between : Counts 16 (config.value "gap") gap) :
      Describes node (.grid (max rows 1) (max cols 1) (max gap 0))
  | form {config : Fields Json} {fields : List FormField} {submit success : String}
      (type : node.type = "Form") (configured : Configures (node.props.value "formConfig") config)
      (each : List.Forall₂ IsField (placedObjects (config.value "fields")) fields)
      (wording : Says "Submit" (config.value "submitText") submit)
      (thanks : Says "" (config.value "successMessage") success) :
      Describes node (.form fields submit success)
  | container {attributes : Fields String}
      (type : node.type ∉ ["Text", "Image", "Button", "Link", "List", "Grid", "Form"])
      (takes : TakesOver node.props attributes) : Describes node (.container attributes)

theorem says_textOf (fallback : String) (value : Json) :
    Says fallback value (Props.textOf fallback value) := by
  cases value with
  | null => exact .absent
  | str s => exact .text s
  | _ => exact .displayed nofun rfl

theorem picks_oneOf (allowed : List String) (fallback s : String) :
    Picks allowed fallback s (Props.oneOf allowed fallback s) := by
  unfold Props.oneOf
  split
  · next mem => exact .listed mem
  · next other => exact .other other

theorem counts_intOf {fallback : Int} {value : Json} {n : Int}
    (h : Props.intOf fallback value = .ok n) : Counts fallback value n := by
  simp only [Props.intOf] at h
  cases read : value.toInteger with
  | error error =>
    rw [read] at h
    cases h
  | ok found =>
    rw [read] at h
    cases found <;> cases h
    · exact .other read
    · exact .number read

theorem configures_config (props : Fields Json) (key : String) :
    Configures (props.value key) (Props.config props key) := by
  unfold Props.config
  cases props.value key with
  | obj fields => exact .object fields
  | _ => exact .other rfl

mutual

theorem isItem_itemsOf : ∀ value : Json, List.Forall₂ IsItem (listed value) (Props.itemsOf value)
  | .arr values => by
    simp only [listed, Props.itemsOf]
    exact isItem_itemsOfList values
  | .null | .bool _ | .int _ | .float _ | .str _ | .obj _ => .nil

theorem isItem_itemsOfList : ∀ values : List Json,
    List.Forall₂ IsItem (values.filter fun value => value ≠ .null) (Props.itemsOfList values)
  | [] => .nil
  | .null :: rest => by
    rw [List.filter_cons_of_neg (by simp)]
    exact isItem_itemsOfList rest
  | .obj fields :: rest => by
    rw [List.filter_cons_of_pos (by simp)]
    exact .cons (.object (says_textOf "" _) (isItem_itemsOfFields fields)) (isItem_itemsOfList rest)
  | .bool b :: rest => by
    rw [List.filter_cons_of_pos (by simp)]
    exact .cons (.plain rfl (says_textOf "" _)) (isItem_itemsOfList rest)
  | .int n :: rest => by
    rw [List.filter_cons_of_pos (by simp)]
    exact .cons (.plain rfl (says_textOf "" _)) (isItem_itemsOfList rest)
  | .float x :: rest => by
    rw [List.filter_cons_of_pos (by simp)]
    exact .cons (.plain rfl (says_textOf "" _)) (isItem_itemsOfList rest)
  | .str s :: rest => by
    rw [List.filter_cons_of_pos (by simp)]
    exact .cons (.plain rfl (says_textOf "" _)) (isItem_itemsOfList rest)
  | .arr values :: rest => by
    rw [List.filter_cons_of_pos (by simp)]
    exact .cons (.plain rfl (says_textOf "" _)) (isItem_itemsOfList rest)

theorem isItem_itemsOfFields : ∀ fields : List (String × Json),
    List.Forall₂ IsItem (listed (Fields.value fields "children")) (Props.itemsOfFields fields)
  | [] => .nil
  | (key, value) :: rest => by
    rw [Fields.value_cons, Props.itemsOfFields]
    split
    · exact isItem_itemsOf value
    · exact isItem_itemsOfFields rest

end

theorem isField_formField (place : Nat) (fields : Fields Json) :
    IsField (place, fields) (Props.formField place fields) where
  name := says_textOf _ _
  type := ⟨_, says_textOf _ _, picks_oneOf _ _ _⟩
  label := says_textOf _ _
  placeholder := says_textOf _ _
  required := rfl

theorem isField_formFields (value : Json) :
    List.Forall₂ IsField (placedObjects value) (Props.formFields value) := by
  have same : Props.formFields value =
      (placedObjects value).map fun given => Props.formField given.1 given.2 := by
    cases value with
    | arr values =>
      rw [Props.formFields, placedObjects, List.map_filterMap]
      simp [Function.comp_def, Json.asArray?]
    | _ => rfl
  rw [same, List.forall₂_map_right_iff]
  exact List.forall₂_same.mpr fun given _ => isField_formField given.1 given.2

theorem isAttributeName_iff {key : String} :
    Props.isAttributeName key = true ↔ ∃ first rest, key.toList = first :: rest ∧
      Text.isLetter first = true ∧ ∀ c ∈ rest, c = '-' ∨ Text.isAlphanumeric c = true := by
  unfold Props.isAttributeName
  split
  · next none => simp [none]
  · next first rest chars =>
    simp only [Bool.and_eq_true, List.all_eq_true, List.mem_filter, decide_eq_true_eq,
      List.mem_cons, List.cons.injEq, chars]
    constructor
    · rintro ⟨letter, all⟩
      exact ⟨first, rest, ⟨rfl, rfl⟩, letter, fun c hc =>
        or_iff_not_imp_left.mpr fun other => all c ⟨.inr hc, other⟩⟩
    · rintro ⟨_, _, ⟨rfl, rfl⟩, letter, all⟩
      refine ⟨letter, fun c taken => ?_⟩
      obtain ⟨rfl | hc, other⟩ := taken
      · rw [Text.isAlphanumeric, letter, Bool.true_or]
      · exact (all c hc).resolve_left other

theorem mem_attributes {props : Fields Json} {key value : String} :
    (key, value) ∈ Props.attributes props ↔
      (key, .str value) ∈ props ∧ NamesAttribute key := by
  rw [NamesAttribute, ← isAttributeName_iff, Props.attributes, List.mem_filterMap]
  simp only [List.mem_mergeSort]
  constructor
  · rintro ⟨⟨name, given⟩, mem, taken⟩
    split at taken
    · cases taken
    · next free =>
      obtain ⟨text, read, same⟩ := Option.map_eq_some_iff.mp taken
      cases same
      cases given <;> cases read
      exact ⟨mem, by simpa using free⟩
  · rintro ⟨mem, free, named⟩
    exact ⟨(key, .str value), mem, by simp [free, named, Json.asText?]⟩

theorem takesOver_attributes {props : Fields Json} (distinct : (props.map Prod.fst).Nodup) :
    TakesOver props (Props.attributes props) where
  sorted := by
    have ordered : (props.mergeSort fun a b => decide (a.1 ≤ b.1)).Pairwise
        fun a b => decide (a.1 ≤ b.1) = true :=
      List.pairwise_mergeSort (fun a b c => by simpa using le_trans)
        (fun a b => by simpa using le_total a.1 b.1) props
    have apart := ((List.mergeSort_perm props fun a b => decide (a.1 ≤ b.1)).map
      Prod.fst).nodup_iff.mpr distinct
    rw [List.Nodup, List.pairwise_map] at apart
    refine List.Pairwise.filterMap _ (R := fun a b : String × Json => a.1 < b.1) ?_
      ((ordered.and apart).imp fun both => lt_of_le_of_ne (by simpa using both.1) both.2)
    intro a b less a' taken b' taken'
    split at taken
    · cases taken
    · split at taken'
      · cases taken'
      · obtain ⟨_, -, rfl⟩ := Option.map_eq_some_iff.mp taken
        obtain ⟨_, -, rfl⟩ := Option.map_eq_some_iff.mp taken'
        exact less
  mem := fun _ _ => mem_attributes

theorem describes_ofNode {node : Node} (distinct : (node.props.map Prod.fst).Nodup) {found : Props}
    (h : Props.ofNode node = .ok found) : Describes node found := by
  unfold Props.ofNode at h
  split at h
  · next known =>
    cases h
    exact .text (ComponentType.name_of_ofName? known).symm (says_textOf _ _) (says_textOf _ _)
      (picks_oneOf _ _ _)
  · next known =>
    cases h
    exact .image (ComponentType.name_of_ofName? known).symm (says_textOf _ _) (says_textOf _ _)
  · next known =>
    cases h
    refine .button (ComponentType.name_of_ofName? known).symm (says_textOf _ _) (fun s => ?_)
      (says_textOf _ _) (fun s => ?_)
    · rw [Option.filter_eq_some_iff]
      cases node.props.value "linkType" <;> simp [Json.asText?]
    · split
      · next empty => simp [empty, eq_comm]
      · next there =>
        simp only [Option.some.injEq]
        exact ⟨fun same => ⟨same, same ▸ there⟩, And.left⟩
  · next known =>
    cases h
    exact .link (ComponentType.name_of_ofName? known).symm (says_textOf _ _) (says_textOf _ _)
  · next known =>
    cases h
    exact .list (ComponentType.name_of_ofName? known).symm (configures_config _ _)
      (says_textOf _ _) (picks_oneOf _ _ _) (isItem_itemsOf _)
  · next known =>
    obtain ⟨rows, down, h⟩ := bind_eq_ok.mp h
    obtain ⟨cols, across, h⟩ := bind_eq_ok.mp h
    obtain ⟨gap, between, h⟩ := bind_eq_ok.mp h
    cases h
    exact .grid (ComponentType.name_of_ofName? known).symm (configures_config _ _)
      (counts_intOf down) (counts_intOf across) (counts_intOf between)
  · next known =>
    cases h
    exact .form (ComponentType.name_of_ofName? known).symm (configures_config _ _)
      (isField_formFields _) (says_textOf _ _) (says_textOf _ _)
  · next text image button link list grid form =>
    cases h
    refine .container (fun known => ?_) (takesOver_attributes distinct)
    simp only [List.mem_cons, List.not_mem_nil, or_false] at known
    rcases known with known | known | known | known | known | known | known <;>
      rw [known] at text image button link list grid form
    all_goals first | exact text rfl | exact image rfl | exact button rfl | exact link rfl |
      exact list rfl | exact grid rfl | exact form rfl

def WellNamed : Props → Prop
  | .text _ tag => tag ∈ Props.textTags
  | .container attributes =>
    (∀ key ∈ attributes.map Prod.fst, IsWord key) ∧ ("style" :: attributes.map Prod.fst).Nodup
  | _ => True

theorem wellNamed_ofNode {node : Node} (distinct : (node.props.map Prod.fst).Nodup) {found : Props}
    (h : Props.ofNode node = .ok found) : WellNamed found := by
  unfold Props.ofNode at h
  split at h
  · cases h
    exact oneOf_mem (by decide) _
  · cases h
    exact trivial
  · cases h
    exact trivial
  · cases h
    exact trivial
  · cases h
    exact trivial
  · obtain ⟨rows, -, h⟩ := bind_eq_ok.mp h
    obtain ⟨cols, -, h⟩ := bind_eq_ok.mp h
    obtain ⟨gap, -, h⟩ := bind_eq_ok.mp h
    cases h
    exact trivial
  · cases h
    exact trivial
  · cases h
    exact attributes_distinct distinct

/-- The numbers that a grid is laid out by are not infinite. -/
def FiniteGrid (node : Node) : Prop :=
  node.type = ComponentType.grid.name → ∀ key ∈ ["rows", "cols", "gap"], ∀ negative,
    (Props.config node.props "gridConfig").value key ≠ .float (.infinite negative)

instance (node : Node) : Decidable (FiniteGrid node) :=
  inferInstanceAs (Decidable (_ → ∀ key ∈ ["rows", "cols", "gap"], ∀ negative,
    (Props.config node.props "gridConfig").value key ≠ .float (.infinite negative)))

theorem exists_intOf {value : Json} (h : ∀ negative, value ≠ .float (.infinite negative))
    (fallback : Int) : ∃ n, Props.intOf fallback value = .ok n := by
  cases value with
  | float x =>
    cases x with
    | infinite negative => exact absurd rfl (h negative)
    | _ => exact ⟨_, rfl⟩
  | _ => exact ⟨_, rfl⟩

theorem exists_ofNode {node : Node} (h : FiniteGrid node) :
    ∃ found, Props.ofNode node = .ok found := by
  unfold Props.ofNode
  split
  · exact ⟨_, rfl⟩
  · exact ⟨_, rfl⟩
  · exact ⟨_, rfl⟩
  · exact ⟨_, rfl⟩
  · exact ⟨_, rfl⟩
  · next grid =>
    have finite := h (ComponentType.name_of_ofName? grid).symm
    obtain ⟨rows, hRows⟩ := exists_intOf (finite "rows" (by decide)) 2
    obtain ⟨cols, hCols⟩ := exists_intOf (finite "cols" (by decide)) 2
    obtain ⟨gap, hGap⟩ := exists_intOf (finite "gap" (by decide)) 16
    simp only [hRows, hCols, hGap, ok_bind]
    exact ⟨_, rfl⟩
  · exact ⟨_, rfl⟩
  · exact ⟨_, rfl⟩

end Sitewright.Markup
