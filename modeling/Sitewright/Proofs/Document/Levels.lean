import Sitewright.Proofs.Document.Reading
import Sitewright.Proofs.Document.Stages
import Sitewright.Proofs.Document.WellFormed

/-!
What can be read as a node. The values that are reached through arrays of children stand at levels,
and each of them must have the shape of a node and stand no deeper than a tree may be; of all that
is wrong, the reading reports what it meets first. Trees that are read and trees that are put
together agree with the check of a tree on what is too deep.
-/

namespace Sitewright.Node

open Shape

/-! Faults -/

def childrenOf (data : Json) : List Json := itemsOf (data.asObject?.getD []) "children"

/-- The faults of a value at a level of a tree that is read inside a number of calls, and of those
it has as children. The type, the identifier, the styles and the array of children are looked at
before the children are, the other fields after them. -/
inductive Mistake [Machine] (outer : Nat) : Nat → Place → Json → List Nat → Error → Prop
  | notObject {level : Nat} {place : Place} {data : Json} : data.asObject? = none →
      Mistake outer level place data [0] (.notObject place)
  | tooDeep {place : Place} {fields : Fields Json} :
      Mistake outer (maxTreeDepth + 1) place (.obj fields) [1] .tooDeep
  | type {level : Nat} {place : Place} {fields : Fields Json} : LacksText fields "type" →
      Mistake outer level place (.obj fields) [2] (.missing place "type")
  | id {level : Nat} {place : Place} {fields : Fields Json} : NotText fields "id" →
      Mistake outer level place (.obj fields) [3] (.notText place "id")
  | styles {level : Nat} {place : Place} {fields : Fields Json} {error : Error} :
      ObjectFault (outer + 2 * level) place fields "styles" error →
      Mistake outer level place (.obj fields) [4] error
  | overlong {level : Nat} {place : Place} {fields styles : Fields Json} :
      fields.value "styles" = .obj styles → Json.fieldsWritable styles = false →
      Mistake outer level place (.obj fields) [5] .integerOverlong
  | children {level : Nat} {place : Place} {fields : Fields Json} : NotArray fields "children" →
      Mistake outer level place (.obj fields) [6] (.notArray (.field place "children"))
  | child {level index : Nat} {place : Place} {data child : Json} {moment : List Nat}
      {error : Error} : level ≤ maxTreeDepth → (childrenOf data)[index]? = some child →
      Mistake outer (level + 1) (.item (.field place "children") index) child moment error →
      Mistake outer level place data (7 :: index :: moment) error
  | props {level : Nat} {place : Place} {fields : Fields Json} {error : Error} :
      ObjectFault (outer + 2 * level) place fields "props" error →
      Mistake outer level place (.obj fields) [8] error
  | metadata {level : Nat} {place : Place} {fields : Fields Json} {error : Error} :
      ObjectFault (outer + 2 * level) place fields "metadata" error →
      Mistake outer level place (.obj fields) [9] error

variable {outer : Nat}

theorem childrenOf_of_none {data : Json} (h : data.asObject? = none) : childrenOf data = [] := by
  rw [childrenOf, h]
  rfl

theorem reports_ofJson_of_none [Machine] {own levels level : Nat} {place : Place} {data : Json}
    (h : data.asObject? = none) :
    Reports (Mistake outer level place data) (ofJson own levels place data) := by
  have failed : ofJson own levels place data = .error (.notObject place) := by
    cases data with
    | obj fields => cases h
    | _ => cases levels <;> rfl
  rw [failed]
  refine ⟨[0], .notObject h, ?_⟩
  intro moment error fault
  cases fault with
  | notObject => exact .inr ⟨rfl, rfl⟩
  | child _ there =>
    rw [childrenOf_of_none h] at there
    cases there
  | _ => cases h

theorem reports_ofJson_of_obj [Machine] {own levels level : Nat} {place : Place}
    {fields : Fields Json} (inside : level ≤ maxTreeDepth) (same : own + 1 + 1 = outer + 2 * level)
    (below : ∀ place child,
      Reports (Mistake outer (level + 1) place child) (ofJson (own + 2) levels place child)) :
    Reports (Mistake outer level place (.obj fields))
      (ofJson own (levels + 1) place (.obj fields)) := by
  have staged : ∀ moment error, Mistake outer level place (.obj fields) moment error →
      ∃ here rest, moment = here :: rest ∧ 2 ≤ here := by
    rintro _ error (_ | _ | _ | _ | _ | _ | _ | _ | _ | _)
    next absent => cases absent
    next => exact absurd inside (by decide)
    all_goals exact ⟨_, _, rfl, by decide⟩
  have object (key : String) (error : Error) :
      optionalObject (own + 1) place fields key = .error error ↔
        ObjectFault (outer + 2 * level) place fields key error := by
    rw [optionalObject_eq_error, same]
  rw [ofJson]
  refine Reports.ofStages 2 ?_ staged
  refine Reports.oneThen (fun _ => requiredText_eq_error) ?_ ?_ fun type _ =>
    .oneThen (fun _ => optionalText_eq_error) ?_ ?_ fun id _ =>
      .oneThen (object "styles") ?_ ?_ fun given there =>
        .oneThen (fun _ => stylesOf_eq_error) ?_ ?_ fun styles _ =>
          .oneThen (fun _ => optionalArray_eq_error) ?_ ?_ fun values found =>
            (reports_items fun index child _ => below _ child).andThen ?_ fun children _ =>
              .oneThen (object "props") ?_ ?_ fun props _ =>
                .oneThen (object "metadata") ?_ ?_ fun metadata _ => .done _ ?_
  · rintro _ ⟨fault, rfl⟩
    exact .type fault
  · rintro _ _ ⟨⟩
    next fault => exact ⟨rfl, fault, rfl⟩
  · rintro _ ⟨fault, rfl⟩
    exact .id fault
  · rintro _ _ ⟨⟩
    next fault => exact ⟨rfl, fault, rfl⟩
  · exact fun _ fault => .styles fault
  · rintro _ _ ⟨⟩
    next fault => exact ⟨rfl, fault⟩
  · rintro _ ⟨fault, rfl⟩
    rcases value_of_optionalObject there with ⟨-, rfl⟩ | value
    · cases fault
    · exact .overlong value fault
  · intro moment error fault
    cases fault with
    | overlong value fault =>
      rcases value_of_optionalObject there with ⟨absent, -⟩ | same
      · cases absent.symm.trans value
      · cases same.symm.trans value
        exact ⟨rfl, fault, rfl⟩
  · rintro _ ⟨fault, rfl⟩
    exact .children fault
  · rintro _ _ ⟨⟩
    next fault => exact ⟨rfl, fault, rfl⟩
  · obtain rfl : childrenOf (.obj fields) = values := itemsOf_of_optionalArray found
    intro moment error
    constructor
    · rintro ⟨⟩
      next there fault => exact ⟨_, _, _, rfl, there, fault⟩
    · rintro ⟨_, _, _, rfl, there, fault⟩
      exact .child inside there fault
  · exact fun _ fault => .props fault
  · rintro _ _ ⟨⟩
    next fault => exact ⟨rfl, fault⟩
  · exact fun _ fault => .metadata fault
  · rintro _ _ ⟨⟩
    next fault => exact ⟨rfl, fault⟩
  · rintro later rest error le (_ | _ | _ | _ | _ | _ | _ | _ | _ | _) <;>
      exact absurd le (by decide)

theorem reports_ofJson [Machine] {own levels level : Nat} (h : level + levels = maxTreeDepth + 1)
    (same : own + 1 + 1 = outer + 2 * level) (place : Place) (data : Json) :
    Reports (Mistake outer level place data) (ofJson own levels place data) := by
  induction levels generalizing own level place data with
  | zero =>
    cases data with
    | obj fields =>
      obtain rfl : level = maxTreeDepth + 1 := h
      refine ⟨[1], .tooDeep, ?_⟩
      rintro _ error (_ | _ | _ | _ | _ | _ | _ | _ | _ | _)
      next absent => cases absent
      next => exact .inr ⟨rfl, rfl⟩
      all_goals exact .inl (List.cons_lt_cons_iff.mpr (.inl (by decide)))
    | _ => exact reports_ofJson_of_none rfl
  | succ levels ih =>
    cases data with
    | obj fields =>
      exact reports_ofJson_of_obj (by omega) same fun place child =>
        ih (by omega) (by omega) place child
    | _ => exact reports_ofJson_of_none rfl

theorem reports_read [Machine] (place : Place) (data : Json) :
    Reports (Mistake 0 1 place data) (read place data) :=
  @reports_ofJson 0 _ 0 maxTreeDepth 1 rfl rfl place data

/-! What is reached -/

inductive Reached : Nat → Json → Nat → Json → Prop
  | here {level : Nat} {data : Json} : Reached level data level data
  | child {level depth : Nat} {data child value : Json} : child ∈ childrenOf data →
      Reached (level + 1) child depth value → Reached level data depth value

/-- The shape of a node, its children apart. -/
structure Shaped (fields : Fields Json) : Prop where
  type : ∃ type, type ≠ "" ∧ fields.value "type" = .str type
  id : (∃ id, fields.value "id" = .str id) ∨ ¬ (fields.value "id").isTruthy
  objects : ∀ key ∈ ["props", "styles", "metadata"],
    fields.value key = .null ∨ ∃ found, fields.value key = .obj found
  children : fields.value "children" = .null ∨ ∃ items, fields.value "children" = .arr items

/-- The objects in a node can be copied inside a number of calls, and its styles be written. -/
structure Light [Machine] (inside : Nat) (fields : Fields Json) : Prop where
  copyable : ∀ key ∈ ["props", "styles", "metadata"], ∀ found, fields.value key = .obj found →
    Copyable inside found
  writable : ∀ styles, fields.value "styles" = .obj styles → Json.fieldsWritable styles = true

/-- What a value that is reached must be for all of it to be read. -/
structure Legible [Machine] (outer level : Nat) (data : Json) : Prop where
  within : level ≤ maxTreeDepth
  shape : ∃ fields, data = .obj fields ∧ Shaped fields ∧ Light (outer + 2 * level) fields

theorem lacksText_iff {fields : Fields Json} {key : String} :
    ¬ LacksText fields key ↔ ∃ s, s ≠ "" ∧ fields.value key = .str s := by
  simp only [LacksText, not_forall, exists_prop, ne_eq, and_comm]

theorem notText_iff {fields : Fields Json} {key : String} :
    ¬ NotText fields key ↔ (∃ s, fields.value key = .str s) ∨ ¬ (fields.value key).isTruthy := by
  simp only [NotText, not_and_or, not_forall, not_not, or_comm, ne_eq]

theorem notArray_iff {fields : Fields Json} {key : String} :
    ¬ NotArray fields key ↔
      fields.value key = .null ∨ ∃ items, fields.value key = .arr items := by
  simp only [NotArray, not_and_or, not_forall, not_not, ne_eq]

theorem objectFault_iff [Machine] {inside : Nat} {place : Place} {fields : Fields Json}
    {key : String} :
    (∀ error, ¬ ObjectFault inside place fields key error) ↔
      (fields.value key = .null ∨ ∃ found, fields.value key = .obj found) ∧
        ∀ found, fields.value key = .obj found → Copyable inside found := by
  constructor
  · intro sound
    constructor
    · by_contra other
      rw [not_or, not_exists] at other
      exact sound _ (.notObject other.1 other.2)
    · intro found there
      by_contra deep
      exact sound _ (.nested there deep)
  · rintro ⟨shape, light⟩ error (⟨some, other⟩ | ⟨there, deep⟩)
    · rcases shape with absent | ⟨found, there⟩
      · exact some absent
      · exact other found there
    · exact deep (light _ there)

theorem shaped_iff [Machine] {inside : Nat} {fields : Fields Json} (place : Place) :
    Shaped fields ∧ Light inside fields ↔
      ¬ LacksText fields "type" ∧ ¬ NotText fields "id" ∧ ¬ NotArray fields "children" ∧
        (∀ key ∈ ["props", "styles", "metadata"], ∀ error,
          ¬ ObjectFault inside place fields key error) ∧
        ∀ styles, fields.value "styles" = .obj styles → Json.fieldsWritable styles = true := by
  rw [lacksText_iff, notText_iff, notArray_iff]
  simp only [objectFault_iff]
  constructor
  · rintro ⟨⟨type, id, objects, children⟩, ⟨light, writable⟩⟩
    exact ⟨type, id, children, fun key known => ⟨objects key known, light key known⟩, writable⟩
  · rintro ⟨type, id, children, objects, writable⟩
    exact ⟨⟨type, id, fun key known => (objects key known).1, children⟩,
      ⟨fun key known => (objects key known).2, writable⟩⟩

theorem mistake_of_reached [Machine] {level depth : Nat} {data value : Json}
    (h : Reached level data depth value)
    (inside : level ≤ maxTreeDepth + 1) (broken : ¬ Legible outer depth value) (place : Place) :
    ∃ moment error, Mistake outer level place data moment error := by
  induction h generalizing place with
  | @here level data =>
    cases object : data.asObject? with
    | none => exact ⟨_, _, .notObject object⟩
    | some fields =>
      obtain rfl : data = .obj fields := by
        cases data <;> cases object
        rfl
      by_cases deep : level = maxTreeDepth + 1
      · subst deep
        exact ⟨_, _, .tooDeep⟩
      · by_contra sound
        simp only [not_exists] at sound
        refine broken ⟨by omega, fields, rfl, (shaped_iff place).mpr ⟨?_, ?_, ?_, ?_, ?_⟩⟩
        · exact fun fault => sound _ _ (.type fault)
        · exact fun fault => sound _ _ (.id fault)
        · exact fun fault => sound _ _ (.children fault)
        · intro key known error fault
          simp only [List.mem_cons, List.not_mem_nil, or_false] at known
          rcases known with rfl | rfl | rfl
          · exact sound _ _ (.props fault)
          · exact sound _ _ (.styles fault)
          · exact sound _ _ (.metadata fault)
        · intro styles value
          by_contra overlong
          exact sound _ _ (.overlong value (eq_false_of_ne_true overlong))
  | @child level depth data child value there _ ih =>
    by_cases deep : level = maxTreeDepth + 1
    · subst deep
      cases data with
      | obj fields => exact ⟨_, _, .tooDeep⟩
      | _ => cases there
    · obtain ⟨index, found⟩ := List.getElem?_of_mem there
      obtain ⟨moment, error, fault⟩ := ih (by omega) broken (.item (.field place "children") index)
      exact ⟨_, _, .child (by omega) found fault⟩

theorem reached_of_mistake [Machine] {level : Nat} {place : Place} {data : Json} {moment : List Nat}
    {error : Error} (h : Mistake outer level place data moment error) :
    ∃ depth value, Reached level data depth value ∧ ¬ Legible outer depth value := by
  have own {level : Nat} {fields : Fields Json}
      (broken : ¬ (Shaped fields ∧ Light (outer + 2 * level) fields)) :
      ∃ depth value, Reached level (.obj fields) depth value ∧ ¬ Legible outer depth value := by
    refine ⟨level, _, .here, ?_⟩
    rintro ⟨-, _, ⟨⟩, shaped⟩
    exact broken shaped
  induction h with
  | @notObject level place data none =>
    refine ⟨level, data, .here, ?_⟩
    rintro ⟨-, _, rfl, -⟩
    cases none
  | tooDeep => exact ⟨_, _, .here, fun legible => absurd legible.within (by decide)⟩
  | @type _ place _ fault => exact own fun shaped => ((shaped_iff place).mp shaped).1 fault
  | @id _ place _ fault => exact own fun shaped => ((shaped_iff place).mp shaped).2.1 fault
  | @children _ place _ fault => exact own fun shaped => ((shaped_iff place).mp shaped).2.2.1 fault
  | @props _ place _ _ fault =>
    exact own fun shaped => ((shaped_iff place).mp shaped).2.2.2.1 "props" (by simp) _ fault
  | @styles _ place _ _ fault =>
    exact own fun shaped => ((shaped_iff place).mp shaped).2.2.2.1 "styles" (by simp) _ fault
  | overlong value overlong =>
    exact own fun shaped => Bool.false_ne_true (overlong.symm.trans (shaped.2.writable _ value))
  | @metadata _ place _ _ fault =>
    exact own fun shaped => ((shaped_iff place).mp shaped).2.2.2.1 "metadata" (by simp) _ fault
  | child _ found _ ih =>
    obtain ⟨depth, value, reached, broken⟩ := ih
    exact ⟨depth, value, .child (List.mem_of_getElem? found) reached, broken⟩

theorem read_eq_ok_iff [Machine] (place : Place) (data : Json) :
    (∃ node, read place data = .ok node) ↔
      ∀ depth value, Reached 1 data depth value → Legible 0 depth value := by
  rw [(reports_read place data).ok_iff]
  constructor
  · intro sound depth value reached
    by_contra broken
    obtain ⟨moment, error, fault⟩ := mistake_of_reached reached (by decide) broken place
    exact sound moment error fault
  · intro legible moment error fault
    obtain ⟨depth, value, reached, broken⟩ := reached_of_mistake fault
    exact broken (legible depth value reached)

theorem read_eq_error_iff [Machine] (place : Place) (data : Json) (error : Error) :
    read place data = .error error ↔ Earliest (Mistake 0 1 place data) error :=
  (reports_read place data).error_iff fun _ _ => lt_asymm

theorem kind_of_objectFault [Machine] {inside : Nat} {place : Place} {fields : Fields Json}
    {key : String} {error : Error} (h : ObjectFault inside place fields key error) :
    error = .valueNested ∨ error.kind = some .validation := by
  cases h with
  | notObject => exact .inr rfl
  | nested => exact .inl rfl

theorem kind_of_mistake [Machine] {level : Nat} {place : Place} {data : Json} {moment : List Nat}
    {error : Error} (h : Mistake outer level place data moment error) :
    error = .tooDeep ∨ (error = .valueNested ∨ error = .integerOverlong) ∨
      error.kind = some .validation := by
  induction h with
  | tooDeep => exact .inl rfl
  | child _ _ _ ih => exact ih
  | styles fault | props fault | metadata fault =>
    exact .inr ((kind_of_objectFault fault).imp_left .inl)
  | overlong => exact .inr (.inl (.inr rfl))
  | notObject | type | id | children => exact .inr (.inr rfl)

/-! Trees -/

@[simp] theorem descendant?_append (first rest : List Nat) (node : Node) :
    node.descendant? (first ++ rest) = (node.descendant? first).bind (descendant? rest) := by
  induction first generalizing node with
  | nil => rfl
  | cons i first ih =>
    rw [List.cons_append, descendant?, descendant?, Option.bind_assoc]
    exact congrArg _ (funext ih)

theorem Readable.length_lt [Machine] {levels : Nat} {node below : Node}
    (h : node.Readable outer levels)
    {position : List Nat} (found : node.descendant? position = some below) :
    position.length < levels := by
  induction position generalizing outer levels node with
  | nil =>
    cases h
    exact Nat.succ_pos _
  | cons i rest ih =>
    obtain ⟨child, there, found⟩ := Option.bind_eq_some_iff.mp found
    cases h with
    | mk _ _ _ children =>
      exact Nat.succ_lt_succ (ih (children child (List.mem_of_getElem? there)) found)

/-- Some node of the tree below the given one is deeper than a tree may be. -/
def IsDeep (node : Node) : Prop :=
  ∃ position below, node.descendant? position = some below ∧ maxTreeDepth < position.length + 1

theorem refused_of_isDeep {node : Node} (h : node.IsDeep) {tree : List Node} (there : node ∈ tree) :
    ∃ error, Tree.check tree = .error error := by
  obtain ⟨position, below, found, deep⟩ := h
  obtain ⟨i, here⟩ := List.getElem?_of_mem there
  have placed : Tree.nodeAt? tree (i :: position) = some below := by
    rw [Tree.nodeAt?, here, Option.bind_some, found]
  exact (Tree.reports_check tree).fails_iff.mpr ⟨_, _, .node placed (.deep deep)⟩

theorem check_ne_tooDeep [Machine] {tree : List Node}
    (h : ∀ node ∈ tree, ∃ place data, read place data = .ok node) :
    Tree.check tree ≠ .error .tooDeep := by
  intro failed
  have reports := Tree.reports_check tree
  rw [failed] at reports
  obtain ⟨moment, fault, -⟩ := reports
  cases fault with
  | @node position node rule _ found fault =>
    cases fault with
    | deep deep =>
      cases position with
      | nil => cases found
      | cons i rest =>
        obtain ⟨root, there, found⟩ := Option.bind_eq_some_iff.mp found
        obtain ⟨place, data, read⟩ := h root (List.mem_of_getElem? there)
        have := (readable_of_ofJson (by decide) read).length_lt found
        simp only [List.length_cons] at deep
        omega

variable {node : Node} {level : Nat} {place : Place}

theorem holds_of_toJson {fields : Fields Json} (h : Json.obj fields = node.toJson) :
    node.Holds fields := by
  obtain ⟨_, written, holds⟩ := node.exists_holds
  cases h.trans written
  exact holds

@[simp] theorem childrenOf_toJson (node : Node) : childrenOf node.toJson = node.children.map toJson := by
  obtain ⟨fields, written, holds⟩ := node.exists_holds
  rw [written, ← toJsonList_eq_map, childrenOf, Json.asObject?, Option.getD_some, itemsOf,
    holds.children]
  rfl

theorem mistake_of_descendant [Machine] {position : List Nat} {below : Node}
    (found : node.descendant? position = some below)
    (deep : level + position.length = maxTreeDepth + 1) :
    ∃ moment, Mistake outer level place node.toJson moment .tooDeep := by
  induction position generalizing node level place with
  | nil =>
    obtain rfl : level = maxTreeDepth + 1 := deep
    obtain ⟨fields, written, -⟩ := node.exists_holds
    rw [written]
    exact ⟨_, .tooDeep⟩
  | cons i rest ih =>
    obtain ⟨child, there, found⟩ := Option.bind_eq_some_iff.mp found
    have deep : level + 1 + rest.length = maxTreeDepth + 1 := by
      rw [List.length_cons] at deep
      omega
    obtain ⟨moment, fault⟩ := @ih child (level + 1) (.item (.field place "children") i) found deep
    refine ⟨_, .child (by omega) ?_ fault⟩
    rw [childrenOf_toJson, List.getElem?_map, there, Option.map_some]

theorem mistake_of_isDeep [Machine] (h : node.IsDeep) (place : Place) :
    ∃ moment, Mistake 0 1 place node.toJson moment .tooDeep := by
  obtain ⟨position, below, found, deep⟩ := h
  rw [← List.take_append_drop maxTreeDepth position, descendant?_append] at found
  obtain ⟨mid, found, -⟩ := Option.bind_eq_some_iff.mp found
  apply mistake_of_descendant found
  rw [List.length_take, Nat.min_eq_left (by omega), Nat.add_comm]

/-- A node that cannot be read again inside a number of calls. -/
def IsHeavy [Machine] (inside : Nat) (node : Node) : Prop :=
  ¬ Copyable inside node.props ∨ ¬ Copyable inside node.metadata

theorem nested_of_objectFault [Machine] {inside : Nat} {fields found : Fields Json} {key : String}
    {error : Error} (h : fields.value key = .null ∨ fields.value key = .obj found)
    (fault : ObjectFault inside place fields key error) :
    error = .valueNested ∧ ¬ Copyable inside found := by
  cases fault with
  | notObject some other =>
    rcases h with absent | there
    · exact absurd absent some
    · exact absurd there (other found)
  | nested there deep =>
    rcases h with absent | found
    · cases absent.symm.trans there
    · cases found.symm.trans there
      exact ⟨rfl, deep⟩

theorem mem_walk_self (node : Node) : node ∈ node.walk := by
  rw [walk_eq]
  exact List.mem_cons_self

theorem mem_walk_of_child {child below : Node} (there : child ∈ node.children)
    (h : below ∈ child.walk) : below ∈ node.walk := by
  rw [walk_eq, walkList_eq_flatMap]
  exact List.mem_cons_of_mem _ (List.mem_flatMap.mpr ⟨child, there, h⟩)

theorem mistake_toJson [Machine] {data : Json} {moment : List Nat} {error : Error}
    (h : Mistake outer level place data moment error) (room : outer + 2 * maxTreeDepth + 2 ≤ 200)
    (inside : level ≤ maxTreeDepth + 1) (written : data = node.toJson)
    (typed : ∀ below ∈ node.walk, below.type ≠ "") :
    (error = .tooDeep ∧ ∃ position below, node.descendant? position = some below ∧
        level + position.length = maxTreeDepth + 1) ∨
      (error = .valueNested ∧ ∃ position below, node.descendant? position = some below ∧
        below.IsHeavy (outer + 2 * (level + position.length))) := by
  induction h generalizing node with
  | notObject none =>
    obtain ⟨fields, same, -⟩ := node.exists_holds
    rw [written, same] at none
    cases none
  | tooDeep => exact .inl ⟨rfl, [], node, rfl, rfl⟩
  | type lacks => exact absurd (lacks _ (holds_of_toJson written).type) (typed _ node.mem_walk_self)
  | id other => exact absurd (holds_of_toJson written).id (other.2 _)
  | children other => exact absurd (holds_of_toJson written).children (other.2 _)
  | styles fault =>
    exact absurd (copyable_styles (by omega) _)
      (nested_of_objectFault (.inr (holds_of_toJson written).styles) fault).2
  | overlong value overlong =>
    cases value.symm.trans (holds_of_toJson written).styles
    have writable := (stylesOf_eq_ok.mp (stylesOf_map_str node.styles)).1
    exact absurd writable (Bool.eq_false_iff.mp overlong)
  | props fault =>
    obtain ⟨rfl, deep⟩ := nested_of_objectFault (.inr (holds_of_toJson written).props) fault
    exact .inr ⟨rfl, [], node, rfl, .inl deep⟩
  | @metadata level place fields error fault =>
    have value := (holds_of_toJson written).metadata
    have there : fields.value "metadata" = .null ∨
        fields.value "metadata" = .obj node.metadata := by
      rw [value]
      split
      · exact .inl rfl
      · exact .inr rfl
    obtain ⟨rfl, deep⟩ := nested_of_objectFault there fault
    exact .inr ⟨rfl, [], node, rfl, .inr deep⟩
  | @child level index place data child moment error above found _ ih =>
    rw [written, childrenOf_toJson, List.getElem?_map] at found
    obtain ⟨child, there, rfl⟩ := Option.map_eq_some_iff.mp found
    have mem := List.mem_of_getElem? there
    have down (position : List Nat) :
        level + (index :: position).length = level + 1 + position.length := by
      rw [List.length_cons]
      omega
    have step (position : List Nat) : node.descendant? (index :: position) =
        child.descendant? position := by
      rw [descendant?, there, Option.bind_some]
    rcases ih (by omega) rfl fun below inside => typed below (mem_walk_of_child mem inside) with
      ⟨rfl, position, below, found, deep⟩ | ⟨rfl, position, below, found, heavy⟩
    · exact .inl ⟨rfl, index :: position, below, (step position).trans found,
        (down position).trans deep⟩
    · refine .inr ⟨rfl, index :: position, below, (step position).trans found, ?_⟩
      rw [down]
      exact heavy

/-- What is read of a node that has been written, if all types in it are there: nothing, if it is
deep, and the fault is its depth unless some node cannot be copied. -/
theorem read_toJson_of_isDeep [Machine] (typed : ∀ below ∈ node.walk, below.type ≠ "")
    (h : node.IsDeep) (place : Place) :
    read place node.toJson = .error .tooDeep ∨
      (read place node.toJson = .error .valueNested ∧ ∃ position below,
        node.descendant? position = some below ∧ below.IsHeavy (2 * (position.length + 1))) := by
  have reports := reports_read place node.toJson
  obtain ⟨moment, fault⟩ := mistake_of_isDeep h place
  obtain ⟨error, failed⟩ := reports.fails_iff.mpr ⟨_, _, fault⟩
  rw [failed] at reports ⊢
  obtain ⟨moment, fault, -⟩ := reports
  rcases mistake_toJson fault (by decide) (by decide) rfl typed with
    ⟨rfl, -⟩ | ⟨rfl, position, below, found, heavy⟩
  · exact .inl rfl
  · rw [Nat.zero_add, Nat.add_comm 1] at heavy
    exact .inr ⟨rfl, position, below, found, heavy⟩

theorem isDeep_of_read_toJson [Machine] (typed : ∀ below ∈ node.walk, below.type ≠ "")
    (failed : read place node.toJson = .error .tooDeep) : node.IsDeep := by
  obtain ⟨moment, fault, -⟩ := (read_eq_error_iff _ _ _).mp failed
  rcases mistake_toJson fault (by decide) (by decide) rfl typed with
    ⟨-, position, below, found, deep⟩ | ⟨⟨⟩, -⟩
  exact ⟨position, below, found, by omega⟩

/-! Documents of nodes -/

/-- The calls that the fields of a node take when its document is made. -/
def ownEncodingCalls (node : Node) : Nat :=
  1 + 2 * max (Json.obj node.props).nesting (Json.obj node.metadata).nesting

mutual

/-- Every level of a tree takes two calls, whatever stands beside it. -/
theorem encodingCalls_le_iff_descendant :
    ∀ (node : Node) {bound : Nat}, node.encodingCalls ≤ bound ↔
    ∀ position below, node.descendant? position = some below →
      2 * position.length + below.ownEncodingCalls ≤ bound
  | ⟨id, type, props, styles, metadata, children⟩, bound => by
    have own := (Json.obj props).nesting_pos
    have inside := @encodingCallsList_le_iff_descendant children (bound - 2)
    rw [encodingCalls_eq]
    dsimp only
    constructor
    · rintro le (_ | ⟨i, rest⟩) below found
      · cases found
        simp only [ownEncodingCalls, List.length_nil]
        omega
      · have := inside.mp (by omega) i rest below found
        rw [List.length_cons]
        omega
    · intro all
      have here := all [] _ rfl
      simp only [ownEncodingCalls, List.length_nil] at here
      have := inside.mpr fun i rest below found => by
        have := all (i :: rest) below found
        rw [List.length_cons] at this
        omega
      omega

theorem encodingCallsList_le_iff_descendant : ∀ {nodes : List Node} {bound : Nat},
    encodingCallsList nodes ≤ bound ↔ ∀ (i : Nat) (rest : List Nat) (below : Node),
      nodes[i]?.bind (descendant? rest) = some below →
        2 * rest.length + below.ownEncodingCalls ≤ bound
  | [], bound => by simp [encodingCallsList]
  | node :: nodes, bound => by
    rw [encodingCallsList, Nat.max_le, encodingCalls_le_iff_descendant node,
      @encodingCallsList_le_iff_descendant nodes bound]
    constructor
    · rintro ⟨first, others⟩ (_ | i) rest below found
      · exact first rest below found
      · exact others i rest below found
    · exact fun all => ⟨fun position below found => all 0 position below found,
        fun i rest below found => all (i + 1) rest below found⟩

end

/-- A value is read as a node exactly if every value that is reached from it stands no deeper than a
tree may be, has the shape of a node, can be copied where it stands, and has no style with an integer
that is too long. Otherwise the first fault is reported: a structural one for an object that is too
deep, none of any kind for a value that cannot be copied or written, and one of validation for all
else. Trees that have been read are never too deep for the check. A tree that is too deep for it is
refused; its document, where it can be made, cannot be read again, for its depth unless some node of
it cannot be copied. -/
theorem read_outcome [Machine] (place : Place) (data : Json) :
    ((∃ node, read place data = .ok node) ↔
      ∀ depth value, Reached 1 data depth value → depth ≤ maxTreeDepth ∧
        ∃ fields, value = .obj fields ∧ Shaped fields ∧ Light (2 * depth) fields) ∧
    (∀ error, read place data = .error error ↔ Earliest (Mistake 0 1 place data) error) ∧
    (∀ error, read place data = .error error →
      error.kind = if error = .tooDeep then some .structural
        else if error = .valueNested ∨ error = .integerOverlong then none
        else some .validation) ∧
    (∀ tree, (∀ node ∈ tree, ∃ place data, read place data = .ok node) →
      Tree.check tree ≠ .error .tooDeep) ∧
    ∀ node : Node, (∀ below ∈ node.walk, below.type ≠ "") →
      (node.IsDeep → ∀ tree, node ∈ tree → ∃ error, Tree.check tree = .error error) ∧
      ((∃ document, node.encode = .ok document) ↔
        ∀ position below, node.descendant? position = some below →
          2 * position.length + below.ownEncodingCalls ≤ Machine.calls) ∧
      ∀ document, node.encode = .ok document →
        (read place document = .error .tooDeep → node.IsDeep) ∧
        (node.IsDeep → read place document = .error .tooDeep ∨
          (read place document = .error .valueNested ∧ ∃ position below,
            node.descendant? position = some below ∧
              below.IsHeavy (2 * (position.length + 1)))) := by
  refine ⟨?_, read_eq_error_iff place data, ?_, fun tree => check_ne_tooDeep, fun node typed =>
    ⟨fun deep tree => refused_of_isDeep deep, ?_, fun document made => ?_⟩⟩
  · rw [read_eq_ok_iff]
    refine forall₃_congr fun depth value _ => ?_
    constructor
    · intro legible
      obtain ⟨fields, same, shaped, light⟩ := legible.shape
      rw [Nat.zero_add] at light
      exact ⟨legible.within, fields, same, shaped, light⟩
    · rintro ⟨level, fields, same, shaped, light⟩
      rw [← Nat.zero_add (2 * depth)] at light
      exact ⟨level, fields, same, shaped, light⟩
  · intro error failed
    obtain ⟨moment, fault, -⟩ := (read_eq_error_iff place data error).mp failed
    rcases kind_of_mistake fault with rfl | (rfl | rfl) | validation
    · rfl
    · rfl
    · rfl
    · rw [validation, if_neg, if_neg]
      · rintro (rfl | rfl) <;> cases validation
      · rintro rfl
        cases validation
  · rw [← encodingCalls_le_iff_descendant]
    exact ⟨fun ⟨_, made⟩ => (encode_eq_ok.mp made).1, fun enough =>
      ⟨_, encode_eq_ok.mpr ⟨enough, rfl⟩⟩⟩
  · obtain ⟨-, rfl⟩ := encode_eq_ok.mp made
    exact ⟨isDeep_of_read_toJson typed, fun deep => read_toJson_of_isDeep typed deep place⟩

def inArrays : Nat → Json → Json
  | 0, value => value
  | count + 1, value => .arr [inArrays count value]

@[simp] theorem nesting_inArrays (count : Nat) (value : Json) :
    (inArrays count value).nesting = count + value.nesting := by
  induction count with
  | zero => rw [inArrays, Nat.zero_add]
  | succ count ih =>
    simp only [inArrays, Json.nesting, Json.itemsNesting, ih]
    omega

def deeplyStyled : Json :=
  .obj [("type", .str "Text"), ("styles", .obj [("a", inArrays 600 (.int 1))])]

theorem read_outcome_deeplyStyled :
    (∀ depth value, Reached 1 deeplyStyled depth value → depth ≤ maxTreeDepth ∧
      ∃ fields, value = .obj fields ∧ Shaped fields) ∧
    (¬ ∃ node, read (.named "node") deeplyStyled = .ok node) ∧
    read (.named "node") deeplyStyled = .error .valueNested ∧ Error.valueNested.kind = none := by
  have deep : ¬ Copyable 2 [("a", inArrays 600 (.int 1))] := by
    simp [Copyable, Json.nesting, Json.fieldsNesting, Machine.calls]
  have failed : read (.named "node") deeplyStyled = .error .valueNested := by
    have styles : optionalObject 1 (.named "node")
        [("type", .str "Text"), ("styles", .obj [("a", inArrays 600 (.int 1))])] "styles" =
          .error .valueNested := optionalObject_eq_error.mpr (.nested rfl deep)
    simp only [deeplyStyled, read, maxTreeDepth, ofJson, styles]
    rfl
  obtain ⟨accepted, -, kinds, -⟩ := read_outcome (.named "node") deeplyStyled
  refine ⟨?_, ?_, failed, kinds _ failed⟩
  · rintro depth value (_ | ⟨there, -⟩)
    · refine ⟨by decide, _, rfl, ⟨"Text", by decide, rfl⟩, .inr (by decide), ?_, .inl rfl⟩
      intro key known
      simp only [List.mem_cons, List.not_mem_nil, or_false] at known
      rcases known with rfl | rfl | rfl
      · exact .inl rfl
      · exact .inr ⟨_, rfl⟩
      · exact .inl rfl
    · cases there
  · intro readable
    obtain ⟨-, fields, ⟨⟩, -, light⟩ := accepted.mp readable 1 _ .here
    exact deep (light.copyable "styles" (by decide) _ rfl)

end Sitewright.Node
