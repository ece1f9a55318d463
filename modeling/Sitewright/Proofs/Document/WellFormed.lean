import Mathlib.Data.Prod.Lex
import Sitewright.Document.Tree
import Sitewright.Proofs.Document.Earliest
import Sitewright.Proofs.Document.Position

/-!
Well-formed trees. The rules are about nodes and their positions: a fault is a rule that is broken
at a position, and the check of a tree reports the first of them, by position and then by rule. So
the trees without a fault are those that are accepted. The way through a tree can also be had from
a list of the nodes that are still to be visited.
-/

namespace Sitewright.Tree

/-- When a fault is found: at a position, by the rules in their order. A tree as a whole has the
empty position, which is before all others. -/
structure Moment where
  position : Position := []
  rule : Nat := 0

def Moment.key (moment : Moment) : Position ×ₗ Nat := toLex (moment.position, moment.rule)

instance : LT Moment := ⟨fun a b => a.key < b.key⟩

theorem Moment.lt_of_position {a b : Moment} (h : a.position < b.position) : a < b :=
  Prod.Lex.toLex_lt_toLex.mpr (.inl h)

theorem Moment.lt_of_rule {position : Position} {a b : Nat} (h : a < b) :
    (⟨position, a⟩ : Moment) < ⟨position, b⟩ :=
  Prod.Lex.toLex_lt_toLex.mpr (.inr ⟨rfl, h⟩)

/-- The rules for one node, in their order, given whether a node before it has the id. -/
inductive NodeFault (taken : Prop) (position : Position) (node : Node) : Nat → Error → Prop
  | deep : maxTreeDepth < position.length → NodeFault taken position node 0 .tooDeep
  | body : node.type = ComponentType.body.name → position ≠ .root →
      NodeFault taken position node 1 .misplacedBody
  | idMissing : node.id = "" → NodeFault taken position node 2 (.idMissing node.type)
  | idRepeated : taken → NodeFault taken position node 3 (.idRepeated node.id)
  | typeUnknown : (∀ type : ComponentType, type.name ≠ node.type) →
      NodeFault taken position node 4 (.typeUnknown node.type)

def Taken (tree : List Node) (position : Position) (id : String) : Prop :=
  ∃ earlier node, earlier < position ∧ nodeAt? tree earlier = some node ∧ node.id = id

inductive Fault (tree : List Node) : Moment → Error → Prop
  | rootless : (∀ root, nodeAt? tree .root = some root → root.type ≠ ComponentType.body.name) →
      Fault tree {} .misplacedBody
  | node {position : Position} {node : Node} {rule : Nat} {error : Error} :
      nodeAt? tree position = some node →
      NodeFault (Taken tree position node.id) position node rule error →
      Fault tree ⟨position, rule⟩ error

/-! One node -/

theorem ofName?_eq_none {s : String} :
    ComponentType.ofName? s = none ↔ ∀ type : ComponentType, type.name ≠ s := by
  constructor
  · rintro h type rfl
    rw [ComponentType.ofName?_name] at h
    cases h
  · intro unknown
    cases h : ComponentType.ofName? s with
    | none => rfl
    | some type => exact absurd (ComponentType.name_of_ofName? h) (unknown type)

section

variable {taken : Prop} {position : Position} {node : Node}

def FaultFrom (first : Nat) (taken : Prop) (position : Position) (node : Node) (moment : Moment)
    (error : Error) : Prop :=
  moment.position = position ∧ first ≤ moment.rule ∧ NodeFault taken position node moment.rule error

theorem reports_rule {rule : Nat} {broken : Prop} [Decidable broken] {error : Error}
    {rest : Except Error (List String)}
    (iff : ∀ e, NodeFault taken position node rule e ↔ broken ∧ e = error)
    (h : Reports (FaultFrom (rule + 1) taken position node) rest) :
    Reports (FaultFrom rule taken position node) (if broken then .error error else rest) := by
  have later : ∀ a e, FaultFrom (rule + 1) taken position node a e →
      (⟨position, rule⟩ : Moment) < a := by
    rintro ⟨_, other⟩ e ⟨rfl, above, -⟩
    exact Moment.lt_of_rule above
  apply (h.ite broken ⟨position, rule⟩ error later).congr
  rintro ⟨place, other⟩ e
  constructor
  · rintro (⟨broken, ⟨⟩, rfl⟩ | ⟨here, above, fault⟩)
    · exact ⟨rfl, Nat.le_refl rule, (iff e).mpr ⟨broken, rfl⟩⟩
    · exact ⟨here, Nat.le_of_succ_le above, fault⟩
  · rintro ⟨rfl, above, fault⟩
    rcases Nat.eq_or_lt_of_le above with rfl | above
    · obtain ⟨broken, rfl⟩ := (iff e).mp fault
      exact .inl ⟨broken, rfl, rfl⟩
    · exact .inr ⟨rfl, above, fault⟩

theorem NodeFault.last {rule : Nat} {error : Error} (h : NodeFault taken position node rule error)
    (last : 4 ≤ rule) :
    rule = 4 ∧ error = .typeUnknown node.type ∧ ∀ type : ComponentType, type.name ≠ node.type := by
  cases h with
  | typeUnknown unknown => exact ⟨rfl, rfl, unknown⟩
  | _ => exact absurd last (by decide)

theorem reports_typeKnown :
    Reports (FaultFrom 4 taken position node)
      (match ComponentType.ofName? node.type with
        | none => .error (.typeUnknown node.type)
        | some type => .ok (if type.isLeaf && !node.children.isEmpty then [warning node] else [])
          : Except Error (List String)) := by
  cases known : ComponentType.ofName? node.type with
  | none =>
    refine ⟨⟨position, 4⟩, ⟨rfl, Nat.le_refl 4, .typeUnknown (ofName?_eq_none.mp known)⟩, ?_⟩
    rintro ⟨_, rule⟩ error ⟨rfl, last, fault⟩
    obtain ⟨rfl, rfl, -⟩ := fault.last last
    exact .inr ⟨rfl, rfl⟩
  | some type =>
    rintro ⟨_, rule⟩ error ⟨rfl, last, fault⟩
    obtain ⟨-, -, unknown⟩ := fault.last last
    exact unknown type (ComponentType.name_of_ofName? known)

theorem reports_checkNode (seen : List String) (position : Position) (node : Node) :
    Reports (FaultFrom 0 (node.id ∈ seen) position node)
      (checkNode seen ⟨node, position.length, position == .root⟩) := by
  apply reports_rule
  · intro error
    constructor
    · rintro ⟨deep⟩
      exact ⟨deep, rfl⟩
    · rintro ⟨deep, rfl⟩
      exact .deep deep
  apply reports_rule
  · intro error
    simp only [beq_iff_eq]
    constructor
    · rintro ⟨⟩
      next body below => exact ⟨⟨body, below⟩, rfl⟩
    · rintro ⟨⟨body, below⟩, rfl⟩
      exact .body body below
  apply reports_rule
  · intro error
    constructor
    · rintro ⟨⟩
      next missing => exact ⟨missing, rfl⟩
    · rintro ⟨missing, rfl⟩
      exact .idMissing missing
  apply reports_rule
  · intro error
    constructor
    · rintro ⟨⟩
      next taken => exact ⟨taken, rfl⟩
    · rintro ⟨taken, rfl⟩
      exact .idRepeated taken
  exact reports_typeKnown

end

/-! All nodes of a tree -/

def Placed.visitBelow (level : Nat) (placed : Placed) : Visit where
  node := placed.node
  level := level + placed.position.length

mutual

theorem visitsBelow_eq_placed (level i : Nat) : ∀ node : Node,
    visitsBelow (level + 1) node = (placedBelow i node).map (Placed.visitBelow level)
  | ⟨id, type, props, styles, metadata, children⟩ => by
    rw [visitsBelow, placedBelow, List.map_cons, List.map_map,
      visitsList_eq_placed (level + 1) 0 children]
    congr 2
    funext placed
    simp only [Placed.visitBelow, Placed.under, Function.comp_apply, List.length_cons]
    rw [Nat.add_right_comm, Nat.add_assoc]

theorem visitsList_eq_placed (level i : Nat) : ∀ nodes : List Node,
    visitsList (level + 1) nodes = (placedFrom i nodes).map (Placed.visitBelow level)
  | [] => rfl
  | node :: rest => by
    rw [visitsList, placedFrom, List.map_append, visitsBelow_eq_placed level i node,
      visitsList_eq_placed level (i + 1) rest]

end

def Placed.visit (placed : Placed) : Visit where
  node := placed.node
  level := placed.position.length
  isRoot := placed.position == .root

theorem visits_eq_placed (tree : List Node) : visits tree = (placed tree).map Placed.visit := by
  have inside : visitsList 1 tree = (placed tree).map (Placed.visitBelow 0) :=
    visitsList_eq_placed 0 0 tree
  have ordered := ordered_placed tree
  cases tree with
  | nil => rfl
  | cons node rest =>
    rw [placed_cons] at inside ordered ⊢
    generalize (placedFrom 0 node.children).map _ ++ _ = others at inside ordered ⊢
    rw [visits, inside]
    refine congrArg₂ List.cons rfl (List.map_congr_left fun placed later => ?_)
    have first : Position.root < placed.position := List.rel_of_pairwise_cons ordered later
    have below : placed.position ≠ .root := first.ne'
    simp [Placed.visit, Placed.visitBelow, below]

theorem checkVisits_eq_checkEach (seen : List String) (visits : List Visit) :
    checkVisits seen visits = checkEach checkNode (·.node.id) seen visits := by
  induction visits generalizing seen with
  | nil => rfl
  | cons visit rest ih => simp only [checkVisits, checkEach, ih]

def Placed.Fault (taken : Prop) (placed : Placed) : Moment → Error → Prop :=
  FaultFrom 0 taken placed.position placed.node

theorem taken_iff {tree : List Node} {position : Position} {id : String} :
    Taken tree position id ↔
      ∃ other ∈ placed tree, other.position < position ∧ other.node.id = id := by
  constructor
  · rintro ⟨earlier, node, first, found, same⟩
    exact ⟨⟨earlier, node⟩, mem_placed.mpr found, first, same⟩
  · rintro ⟨⟨earlier, node⟩, there, first, same⟩
    exact ⟨earlier, node, first, mem_placed.mp there, same⟩

theorem faultOfEach_placed_iff {tree : List Node} {position : Position} {rule : Nat}
    {error : Error} :
    FaultOfEach Placed.Fault (·.node.id) [] (placed tree) ⟨position, rule⟩ error ↔
      ∃ node, nodeAt? tree position = some node ∧
        NodeFault (Taken tree position node.id) position node rule error := by
  rw [faultOfEach_iff Placed.position (ordered_placed tree) fun _ _ => taken_iff]
  constructor
  · rintro ⟨⟨_, node⟩, there, rfl, -, fault⟩
    exact ⟨node, mem_placed.mp there, fault⟩
  · rintro ⟨node, found, fault⟩
    exact ⟨⟨position, node⟩, mem_placed.mpr found, rfl, Nat.zero_le _, fault⟩

theorem reports_checkVisits (tree : List Node) :
    Reports (FaultOfEach Placed.Fault (·.node.id) [] (placed tree))
      (checkVisits [] (visits tree)) := by
  rw [checkVisits_eq_checkEach, visits_eq_placed, checkEach_map]
  apply Reports.each
  · intro seen placed
    exact reports_checkNode seen placed.position placed.node
  · apply (ordered_placed tree).imp
    rintro a b first used m e used' m' e' ⟨here, -⟩ ⟨there, -⟩
    exact Moment.lt_of_position (here ▸ there ▸ first)

theorem hasRoot_iff {tree : List Node} :
    hasRoot tree = true ↔
      ∃ root, nodeAt? tree .root = some root ∧ root.type = ComponentType.body.name := by
  cases tree with
  | nil => simp [hasRoot, nodeAt?, Position.root]
  | cons root rest => simp [hasRoot, nodeAt?, Position.root, Node.descendant?]

theorem reports_check (tree : List Node) : Reports (Fault tree) (check tree) := by
  have nodes := (reports_checkVisits tree).congr fun _ _ => faultOfEach_placed_iff
  rw [check]
  split
  · next rooted =>
    apply nodes.congr
    rintro ⟨position, rule⟩ error
    constructor
    · rintro ⟨node, found, fault⟩
      exact .node found fault
    · rintro (rootless | ⟨found, fault⟩)
      · obtain ⟨root, found, body⟩ := hasRoot_iff.mp rooted
        exact absurd body (rootless root found)
      · exact ⟨_, found, fault⟩
  · next rootless =>
    have rootless : ∀ root, nodeAt? tree .root = some root →
        root.type ≠ ComponentType.body.name :=
      fun root found body => rootless (hasRoot_iff.mpr ⟨root, found, body⟩)
    refine ⟨{}, .rootless rootless, ?_⟩
    rintro _ _ (other | ⟨found, fault⟩)
    · exact .inr ⟨rfl, rfl⟩
    · exact .inl (Moment.lt_of_position (nil_lt_of_nodeAt? found))

/-! Accepted trees -/

structure WellFormed (tree : List Node) : Prop where
  root : ∃ root others, tree = root :: others ∧ root.type = ComponentType.body.name
  alone : ∀ position node, nodeAt? tree position = some node →
    node.type = ComponentType.body.name → position = .root
  named : ∀ position node, nodeAt? tree position = some node → node.id ≠ ""
  distinct : ∀ first second a b, nodeAt? tree first = some a → nodeAt? tree second = some b →
    a.id = b.id → first = second
  known : ∀ position node, nodeAt? tree position = some node →
    ∃ type : ComponentType, type.name = node.type
  shallow : ∀ position node, nodeAt? tree position = some node → position.length ≤ maxTreeDepth

@[simp] theorem nodeAt?_root {tree : List Node} : nodeAt? tree .root = tree.head? := by
  cases tree <;> rfl

theorem wellFormed_iff {tree : List Node} :
    WellFormed tree ↔ ∀ moment error, ¬ Fault tree moment error := by
  constructor
  · rintro ⟨⟨root, others, rfl, body⟩, alone, named, distinct, known, shallow⟩ _ _ fault
    cases fault with
    | rootless rootless => exact rootless root rfl body
    | @node position node _ _ found fault =>
      cases fault with
      | deep deep => exact absurd (shallow position node found) (Nat.not_le_of_lt deep)
      | body body other => exact other (alone position node found body)
      | idMissing missing => exact named position node found missing
      | idRepeated taken =>
        obtain ⟨earlier, other, first, there, same⟩ := taken
        exact absurd (distinct earlier position other node there found same) first.ne
      | typeUnknown unknown =>
        obtain ⟨type, same⟩ := known position node found
        exact unknown type same
  · intro sound
    have node : ∀ position node, nodeAt? tree position = some node → ∀ rule error,
        ¬ NodeFault (Taken tree position node.id) position node rule error :=
      fun position node found rule error fault => sound _ error (.node found fault)
    constructor
    case root =>
      by_contra rootless
      refine sound {} .misplacedBody (.rootless fun root found body => rootless ?_)
      obtain ⟨others, same⟩ := List.head?_eq_some_iff.mp (nodeAt?_root ▸ found)
      exact ⟨root, others, same, body⟩
    case alone =>
      intro position found there body
      by_contra other
      exact node position found there _ _ (.body body other)
    case named =>
      intro position found there missing
      exact node position found there _ _ (.idMissing missing)
    case distinct =>
      have later : ∀ first second a b, nodeAt? tree first = some a →
          nodeAt? tree second = some b → a.id = b.id → ¬ first < second :=
        fun first second a b here there same before =>
          node second b there _ _ (.idRepeated ⟨first, a, before, here, same⟩)
      intro first second a b here there same
      apply eq_of_le_of_ge
      · exact not_lt.mp (later second first b a there here same.symm)
      · exact not_lt.mp (later first second a b here there same)
    case known =>
      intro position found there
      by_contra unknown
      exact node position found there _ _ (.typeUnknown (not_exists.mp unknown))
    case shallow =>
      intro position found there
      by_contra deep
      exact node position found there _ _ (.deep (Nat.lt_of_not_le deep))

def hidesChildren (node : Node) : Bool :=
  node.type ∈ ["Text", "Image", "Button", "Link"] && !node.children.isEmpty

theorem isLeaf_eq (type : ComponentType) :
    type.isLeaf = decide (type.name ∈ ["Text", "Image", "Button", "Link"]) := by
  cases type <;> decide

def warningsOf (node : Node) : List String := if hidesChildren node then [warning node] else []

theorem warnings_of_checkNode {seen : List String} {visit : Visit} {found : List String}
    (h : checkNode seen visit = .ok found) : found = warningsOf visit.node := by
  simp only [checkNode] at h
  iterate 4
    split at h
    · cases h
  split at h
  · cases h
  · next type known =>
    cases h
    rw [warningsOf, hidesChildren, ← ComponentType.name_of_ofName? known, isLeaf_eq]

theorem flatMap_warningsOf (nodes : List Node) :
    nodes.flatMap warningsOf = (nodes.filter hidesChildren).map warning := by
  induction nodes with
  | nil => rfl
  | cons node rest ih =>
    rw [List.flatMap_cons, ih, warningsOf]
    cases hides : hidesChildren node <;> simp [hides]

theorem warnings_of_check {tree : List Node} {warnings : List String}
    (h : check tree = .ok warnings) :
    warnings = ((Node.walkList tree).filter hidesChildren).map warning := by
  rw [check] at h
  split at h
  · rw [checkVisits_eq_checkEach] at h
    obtain ⟨found, each, rfl⟩ := checkEach_eq_ok (fun visit => pure (warningsOf visit.node))
      (fun seen visit found checked => congrArg _ (warnings_of_checkNode checked).symm) h
    rw [List.mapM_pure] at each
    cases each
    rw [← flatMap_warningsOf, ← visits_map_node, List.flatMap_map, List.flatMap_def]
  · cases h

/-! The way through a tree with a list of what is still to be visited -/

def Visit.children (visit : Visit) : List Visit :=
  visit.node.children.map fun node => { node, level := visit.level + 1 }

def starts (tree : List Node) : List Visit :=
  tree.zipIdx.map fun (node, i) => { node, level := 1, isRoot := i == 0 }

def checkPending (seen warnings : List String) : List Visit → Except Error (List String)
  | [] => .ok warnings
  | visit :: pending =>
    match checkNode seen visit with
    | .error error => .error error
    | .ok found =>
      checkPending (visit.node.id :: seen) (warnings ++ found) (visit.children ++ pending)
termination_by pending => (Node.walkList (pending.map Visit.node)).length
decreasing_by
  have same : (visit.children ++ pending).map Visit.node =
      visit.node.children ++ pending.map Visit.node := by
    simp [Visit.children, Function.comp_def]
  rw [same, List.map_cons, Node.walkList, Node.walk_eq, Node.walkList_append]
  simp

def Visit.all (visit : Visit) : List Visit :=
  visit :: visitsList (visit.level + 1) visit.node.children

theorem visitsList_eq_flatMap (level : Nat) (nodes : List Node) :
    visitsList level nodes = (nodes.map fun node => { node, level }).flatMap Visit.all := by
  induction nodes with
  | nil => rfl
  | cons node rest ih =>
    rw [visitsList, visitsBelow_eq, List.map_cons, List.flatMap_cons, ih, Visit.all]

theorem checkPending_eq (seen warnings : List String) (pending : List Visit) :
    checkPending seen warnings pending =
      (checkVisits seen (pending.flatMap Visit.all)).map (warnings ++ ·) := by
  fun_induction checkPending seen warnings pending with
  | case1 seen warnings => exact congrArg Except.ok (List.append_nil warnings).symm
  | case2 seen warnings visit pending error failed =>
    rw [List.flatMap_cons, Visit.all, List.cons_append, checkVisits, failed]
    rfl
  | case3 seen warnings visit pending found passed ih =>
    -- the children stand before what was pending, as in the way through the tree
    have next : (visit.children ++ pending).flatMap Visit.all =
        visitsList (visit.level + 1) visit.node.children ++ pending.flatMap Visit.all := by
      rw [List.flatMap_append, visitsList_eq_flatMap, Visit.children]
    rw [ih, next, List.flatMap_cons, Visit.all, List.cons_append, checkVisits, passed, ok_bind]
    cases checkVisits (visit.node.id :: seen) _ with
    | error error => rfl
    | ok more => exact congrArg Except.ok (List.append_assoc warnings found more)

theorem starts_cons (root : Node) (rest : List Node) :
    starts (root :: rest) =
      { node := root, level := 1, isRoot := true } ::
        rest.map fun node => { node, level := 1 } := by
  refine congrArg (List.cons _) (List.ext_getElem? fun k => ?_)
  rw [List.getElem?_map, List.getElem?_zipIdx, List.getElem?_map]
  cases rest[k]? with
  | none => rfl
  | some node => simp

@[simp] theorem starts_flatMap_all (tree : List Node) : (starts tree).flatMap Visit.all = visits tree := by
  cases tree with
  | nil => rfl
  | cons root rest =>
    rw [starts_cons, List.flatMap_cons, ← visitsList_eq_flatMap, visits, visitsList, visitsBelow_eq]
    rfl

/-- The check of a tree, by the nodes that are still to be visited. -/
def checkByPending (tree : List Node) : Except Error (List String) :=
  if hasRoot tree then checkPending [] [] (starts tree) else .error .misplacedBody

theorem checkByPending_eq (tree : List Node) : checkByPending tree = check tree := by
  rw [checkByPending, check, checkPending_eq, starts_flatMap_all]
  congr 1
  exact congrFun Except.map_id _

/-- The well-formed trees are accepted, with a warning for each node that hides its children, in
document order, whichever way the check goes through the tree. -/
theorem check_eq_ok_iff_wellFormed (tree : List Node) (warnings : List String) :
    (check tree = .ok warnings ↔
      WellFormed tree ∧ warnings = ((Node.walkList tree).filter hidesChildren).map warning) ∧
    checkByPending tree = check tree := by
  refine ⟨?_, checkByPending_eq tree⟩
  rw [wellFormed_iff, ← (reports_check tree).ok_iff]
  constructor
  · intro accepted
    exact ⟨⟨warnings, accepted⟩, warnings_of_check accepted⟩
  · rintro ⟨⟨found, accepted⟩, rfl⟩
    rw [accepted, warnings_of_check accepted]

end Sitewright.Tree
