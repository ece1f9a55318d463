import Sitewright.Proofs.Document.WellFormed

/-!
The ways through a tree. A loop takes the last item off a stack and puts what is below that item in
its place, in reverse; whatever the stack, the loop ends, and it has met each item before those
below it. So a walk with a stack meets every node once, in document order, the check of a tree that
is accepted meets the same nodes in the same order, and they are written in that order too.
-/

namespace Sitewright

namespace Stack

section

variable {α : Type} {below : α → List α} {all : α → List α}

def turn? (below : α → List α) (stack : List α) : Option (α × List α) :=
  stack.getLast?.map fun item => (item, stack.dropLast ++ (below item).reverse)

/-- The loop ends, and these are the items that it has met. -/
inductive Meets (below : α → List α) : List α → List α → Prop
  | done : Meets below [] []
  | turn {stack rest items : List α} {item : α} :
      turn? below stack = some (item, rest) → Meets below rest items →
      Meets below stack (item :: items)

/-- There is no stack from which the loop goes on for ever. -/
def Ends (below : α → List α) : Prop :=
  WellFounded fun later stack : List α => ∃ item, turn? below stack = some (item, later)

def Unfolds (below all : α → List α) : Prop := ∀ item, all item = item :: (below item).flatMap all

@[simp] theorem turn?_append_singleton (stack : List α) (item : α) :
    turn? below (stack ++ [item]) = some (item, stack ++ (below item).reverse) := by
  simp [turn?]

theorem turn?_eq_some {stack rest : List α} {item : α} (h : turn? below stack = some (item, rest)) :
    ∃ pending, stack = pending ++ [item] ∧ rest = pending ++ (below item).reverse := by
  rcases List.eq_nil_or_concat stack with rfl | ⟨pending, last, rfl⟩
  · cases h
  · rw [List.concat_eq_append, turn?_append_singleton] at h
    cases h
    exact ⟨pending, List.concat_eq_append, rfl⟩

/-- The last item is met first, then all below it, and then what was pending. -/
theorem all_of_turn (h : Unfolds below all) {stack rest : List α} {item : α}
    (turned : turn? below stack = some (item, rest)) :
    stack.reverse.flatMap all = item :: rest.reverse.flatMap all := by
  obtain ⟨pending, rfl, rfl⟩ := turn?_eq_some turned
  rw [List.reverse_append, List.reverse_append, List.flatMap_append, List.flatMap_append,
    List.reverse_reverse, List.reverse_singleton, List.flatMap_singleton, h item, List.cons_append]

theorem ends_of_unfolds (h : Unfolds below all) : Ends below := by
  apply Subrelation.wf _ (measure fun stack => (stack.reverse.flatMap all).length).wf
  rintro later stack ⟨item, turned⟩
  change (later.reverse.flatMap all).length < (stack.reverse.flatMap all).length
  rw [all_of_turn h turned, List.length_cons]
  exact Nat.lt_succ_self _

theorem meets_all (h : Unfolds below all) {stack items : List α}
    (same : stack.reverse.flatMap all = items) : Meets below stack items := by
  -- on the items that are still to be met: a turn takes one of them, but may make the stack longer
  induction items generalizing stack with
  | nil =>
    rcases List.eq_nil_or_concat stack with rfl | ⟨pending, last, rfl⟩
    · exact .done
    · rw [List.concat_eq_append, all_of_turn h (turn?_append_singleton pending last)] at same
      cases same
  | cons item items ih =>
    rcases List.eq_nil_or_concat stack with rfl | ⟨pending, last, rfl⟩
    · cases same
    · rw [List.concat_eq_append] at same ⊢
      have turned : turn? below (pending ++ [last]) = _ := turn?_append_singleton pending last
      rw [all_of_turn h turned] at same
      obtain ⟨rfl, later⟩ := List.cons.inj same
      exact .turn turned (ih later)

theorem meets_iff (h : Unfolds below all) {stack items : List α} :
    Meets below stack items ↔ items = stack.reverse.flatMap all := by
  constructor
  · intro met
    induction met with
    | done => rfl
    | turn turned met ih => rw [ih, all_of_turn h turned]
  · intro same
    exact meets_all h same.symm

end

end Stack

open Stack

namespace Node

theorem unfolds_walk : Unfolds children walk := fun node => by
  rw [walk_eq, walkList_eq_flatMap]

theorem traverse_eq (pending : List Node) : traverse pending = walkList pending := by
  fun_induction traverse pending with
  | case1 => rfl
  | case2 node pending ih => rw [ih, walkList, walk_eq, walkList_append, List.cons_append]

end Node

namespace Tree

/-- Every top-level node has a loop of its own, one after the other. -/
inductive Walks : List Node → List Node → Prop
  | nil : Walks [] []
  | cons {root : Node} {tree part nodes : List Node} :
      Meets Node.children [root] part → Walks tree nodes → Walks (root :: tree) (part ++ nodes)

theorem walks_iff {tree nodes : List Node} : Walks tree nodes ↔ nodes = Node.walkList tree := by
  have one (root : Node) (part : List Node) :
      Meets Node.children [root] part ↔ part = root.walk := by
    rw [meets_iff Node.unfolds_walk, List.reverse_singleton, List.flatMap_singleton]
  constructor
  · intro walked
    induction walked with
    | nil => rfl
    | cons met _ ih => rw [Node.walkList, (one _ _).mp met, ih]
  · rintro rfl
    induction tree with
    | nil => exact .nil
    | cons root tree ih => exact .cons ((one root _).mpr rfl) ih

/-! The loop of the check -/

theorem unfolds_all : Unfolds Visit.children Visit.all := fun visit => by
  rw [Visit.all, visitsList_eq_flatMap, Visit.children]

/-- The loop of the check from a stack, given the ids of the nodes before: it meets these nodes,
finds no fault in any of them, and ends with these warnings. -/
inductive Passes : List String → List Visit → List Node → List String → Prop
  | done {seen : List String} : Passes seen [] [] []
  | turn {seen found warnings : List String} {visit : Visit} {stack rest : List Visit}
      {nodes : List Node} :
      turn? Visit.children stack = some (visit, rest) → checkNode seen visit = .ok found →
      Passes (visit.node.id :: seen) rest nodes warnings →
      Passes seen stack (visit.node :: nodes) (found ++ warnings)

/-- The stack begins with the top-level nodes in reverse, if the first of them is a body. -/
def Accepts (tree nodes : List Node) (warnings : List String) : Prop :=
  hasRoot tree = true ∧ Passes [] (starts tree).reverse nodes warnings

theorem passes_iff {seen : List String} {stack : List Visit} {nodes : List Node}
    {warnings : List String} :
    Passes seen stack nodes warnings ↔ ∃ visits, Meets Visit.children stack visits ∧
      nodes = visits.map Visit.node ∧ checkVisits seen visits = .ok warnings := by
  constructor
  · intro passed
    induction passed with
    | done => exact ⟨[], .done, rfl, rfl⟩
    | turn turned passed _ ih =>
      obtain ⟨visits, met, rfl, checked⟩ := ih
      refine ⟨_ :: visits, .turn turned met, rfl, ?_⟩
      rw [checkVisits, passed, ok_bind, checked]
      rfl
  · rintro ⟨visits, met, rfl, checked⟩
    induction met generalizing seen warnings with
    | done =>
      cases checked
      exact .done
    | turn turned _ ih =>
      obtain ⟨found, passed, checked⟩ := bind_eq_ok.mp checked
      obtain ⟨more, later, same⟩ := bind_eq_ok.mp checked
      cases same
      exact .turn turned passed (ih later)

theorem accepts_iff {tree nodes : List Node} {warnings : List String} :
    Accepts tree nodes warnings ↔ check tree = .ok warnings ∧ nodes = Node.walkList tree := by
  simp only [Accepts, passes_iff, meets_iff unfolds_all, List.reverse_reverse, starts_flatMap_all,
    exists_eq_left, visits_map_node, check]
  cases hasRoot tree <;> simp [and_comm]

/-! Every node once -/

def positions (tree : List Node) : List Position := (placed tree).map Placed.position

theorem ordered_positions (tree : List Node) : (positions tree).Pairwise (· < ·) :=
  List.pairwise_map.mpr (ordered_placed tree)

theorem mem_positions {tree : List Node} {position : Position} :
    position ∈ positions tree ↔ ∃ node, nodeAt? tree position = some node := by
  constructor
  · intro there
    obtain ⟨⟨_, node⟩, listed, rfl⟩ := List.mem_map.mp there
    exact ⟨node, mem_placed.mp listed⟩
  · rintro ⟨node, found⟩
    exact List.mem_map.mpr ⟨⟨position, node⟩, mem_placed.mpr found, rfl⟩

@[simp] theorem placed_map_node (tree : List Node) :
    (placed tree).map Placed.node = Node.walkList tree := by
  rw [← visits_map_node, visits_eq_placed, List.map_map]
  rfl

theorem positions_map_nodeAt? (tree : List Node) :
    (positions tree).map (nodeAt? tree) = (Node.walkList tree).map some := by
  rw [positions, ← placed_map_node, List.map_map, List.map_map]
  apply List.map_congr_left
  intro placed listed
  exact mem_placed.mp listed

end Tree

/-! How a tree is written -/

namespace Json

mutual

/-- The objects of a written tree as they follow each other: one before those of its children. -/
def outline : Json → List Json
  | .obj fields => .obj fields :: outlineFields fields
  | .arr items => outlineItems items
  | _ => []

def outlineItems : List Json → List Json
  | [] => []
  | item :: rest => outline item ++ outlineItems rest

def outlineFields : List (String × Json) → List Json
  | [] => []
  | (key, value) :: rest => (if key = "children" then outline value else []) ++ outlineFields rest

end

@[simp] theorem outlineFields_append (as bs : Fields Json) :
    outlineFields (as ++ bs) = outlineFields as ++ outlineFields bs := by
  induction as with
  | nil => simp [outlineFields]
  | cons field rest ih => simp [outlineFields, ih]

end Json

namespace Node

open Json (outline outlineItems outlineFields)

@[simp] theorem outlineFields_ownFields (node : Node) : outlineFields node.ownFields = [] := by
  rw [ownFields, Json.outlineFields_append]
  split <;> simp [outlineFields]

mutual

@[simp] theorem outline_toJson : ∀ node : Node, outline node.toJson = node.walk.map toJson
  | ⟨id, type, props, styles, metadata, children⟩ => by
    rw [toJson, outline, Json.outlineFields_append, outlineFields_ownFields, walk, List.map_cons,
      toJson]
    simp [outlineFields, outline, outlineItems_toJsonList children]

@[simp] theorem outlineItems_toJsonList :
    ∀ nodes : List Node, outlineItems (toJsonList nodes) = (walkList nodes).map toJson
  | [] => rfl
  | node :: rest => by
    rw [toJsonList, outlineItems, outline_toJson node, outlineItems_toJsonList rest, walkList,
      List.map_append]

end

end Node

namespace Tree

/-- Every way through a tree ends and meets its nodes in document order, each of them once: the walk
with a stack, the walk with a list of what is pending, the check of a tree that is accepted, and the
tree as it is written. -/
theorem walks_in_order (tree : List Node) :
    (Ends Node.children ∧ Ends Visit.children) ∧
    ((positions tree).Pairwise (· < ·) ∧
      (∀ position, position ∈ positions tree ↔ ∃ node, nodeAt? tree position = some node) ∧
      (positions tree).map (nodeAt? tree) = (Node.walkList tree).map some) ∧
    (∀ nodes, Walks tree nodes ↔ nodes = Node.walkList tree) ∧
    (tree.flatMap fun root => Node.traverse [root]) = Node.walkList tree ∧
    (∀ nodes warnings, Accepts tree nodes warnings ↔
      check tree = .ok warnings ∧ nodes = Node.walkList tree) ∧
    Json.outlineItems (Node.toJsonList tree) = (Node.walkList tree).map Node.toJson := by
  refine ⟨⟨ends_of_unfolds Node.unfolds_walk, ends_of_unfolds unfolds_all⟩, ?_, ?_, ?_, ?_, ?_⟩
  · exact ⟨ordered_positions tree, fun _ => mem_positions, positions_map_nodeAt? tree⟩
  · exact fun _ => walks_iff
  · have each (root : Node) : Node.traverse [root] = root.walk := by
      rw [Node.traverse_eq, Node.walkList, Node.walkList, List.append_nil]
    rw [Node.walkList_eq_flatMap]
    exact congrArg (List.flatMap · tree) (funext each)
  · exact fun _ _ => accepts_iff
  · exact Node.outlineItems_toJsonList tree

end Tree

end Sitewright
