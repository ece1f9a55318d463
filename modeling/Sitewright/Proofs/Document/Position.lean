import Mathlib.Data.List.Basic
import Mathlib.Data.List.Lex
import Sitewright.Document.Tree

/-!
Where a node stands in a tree: the place of a top-level node, then that of a child of it, and so on
down. A node comes before its children and these before its later siblings, which is to say that
document order is the lexicographic order of positions.
-/

namespace Sitewright

/-- The node below another one, from the places of the children on the way down. -/
def Node.descendant? : List Nat → Node → Option Node
  | [], node => some node
  | i :: rest, node => node.children[i]?.bind (Node.descendant? rest)

namespace Tree

abbrev Position := List Nat

def Position.root : Position := [0]

def nodeAt? (tree : List Node) : Position → Option Node
  | [] => none
  | i :: rest => tree[i]?.bind (Node.descendant? rest)

theorem nil_lt_of_nodeAt? {tree : List Node} {position : Position} {node : Node}
    (h : nodeAt? tree position = some node) : [] < position := by
  cases position with
  | nil => cases h
  | cons i rest => exact List.nil_lt_cons i rest

structure Placed where
  position : Position
  node : Node

/-- Seen from the parent of its top-level nodes, which stands at the given place. -/
def Placed.under (i : Nat) (placed : Placed) : Placed :=
  { placed with position := i :: placed.position }

mutual

def placedBelow (i : Nat) : Node → List Placed
  | ⟨id, type, props, styles, metadata, children⟩ =>
    ⟨[i], ⟨id, type, props, styles, metadata, children⟩⟩ ::
      (placedFrom 0 children).map (Placed.under i)

def placedFrom (i : Nat) : List Node → List Placed
  | [] => []
  | node :: rest => placedBelow i node ++ placedFrom (i + 1) rest

end

def placed (tree : List Node) : List Placed := placedFrom 0 tree

theorem placed_cons (node : Node) (rest : List Node) :
    placed (node :: rest) =
      ⟨.root, node⟩ ::
        ((placedFrom 0 node.children).map (Placed.under 0) ++ placedFrom 1 rest) := by
  cases node
  rfl

/-! What is listed -/

mutual

theorem mem_placedBelow {i : Nat} {position : Position} {found : Node} :
    ∀ {node : Node}, ⟨position, found⟩ ∈ placedBelow i node ↔
      ∃ rest, position = i :: rest ∧ node.descendant? rest = some found
  | ⟨id, type, props, styles, metadata, children⟩ => by
    rw [placedBelow, List.mem_cons, List.mem_map]
    constructor
    · rintro (here | ⟨below, there, same⟩)
      · cases here
        exact ⟨[], rfl, rfl⟩
      · cases same
        obtain ⟨k, rest, same, found⟩ := mem_placedFrom.mp there
        refine ⟨(0 + k) :: rest, congrArg (i :: ·) same, ?_⟩
        rw [Node.descendant?, Nat.zero_add]
        exact found
    · rintro ⟨_ | ⟨k, rest⟩, rfl, found⟩
      · cases found
        exact .inl rfl
      · refine .inr ⟨⟨k :: rest, _⟩, mem_placedFrom.mpr ⟨k, rest, ?_, found⟩, rfl⟩
        rw [Nat.zero_add]

theorem mem_placedFrom {i : Nat} {position : Position} {found : Node} :
    ∀ {nodes : List Node}, ⟨position, found⟩ ∈ placedFrom i nodes ↔
      ∃ k rest, position = (i + k) :: rest ∧
        nodes[k]?.bind (Node.descendant? rest) = some found
  | [] => by simp [placedFrom]
  | node :: later => by
    rw [placedFrom, List.mem_append, mem_placedBelow, mem_placedFrom]
    constructor
    · rintro (⟨rest, rfl, found⟩ | ⟨k, rest, rfl, found⟩)
      · exact ⟨0, rest, rfl, found⟩
      · refine ⟨k + 1, rest, ?_, found⟩
        rw [Nat.add_right_comm, Nat.add_assoc]
    · rintro ⟨_ | k, rest, rfl, found⟩
      · exact .inl ⟨rest, rfl, found⟩
      · refine .inr ⟨k, rest, ?_, found⟩
        rw [Nat.add_right_comm, Nat.add_assoc]

end

theorem mem_placed {tree : List Node} {position : Position} {node : Node} :
    ⟨position, node⟩ ∈ placed tree ↔ nodeAt? tree position = some node := by
  rw [placed, mem_placedFrom]
  constructor
  · rintro ⟨k, rest, rfl, found⟩
    rwa [nodeAt?, Nat.zero_add]
  · intro found
    cases position with
    | nil => cases found
    | cons i rest => exact ⟨i, rest, by rw [Nat.zero_add], found⟩

/-! The order -/

def Placed.Precedes (a b : Placed) : Prop := a.position < b.position

theorem lt_under {i : Nat} {a b : Position} (h : a < b) : i :: a < i :: b :=
  List.cons_lt_cons_iff.mpr (.inr ⟨rfl, h⟩)

mutual

theorem ordered_placedBelow (i : Nat) :
    ∀ node : Node, (placedBelow i node).Pairwise Placed.Precedes
  | ⟨id, type, props, styles, metadata, children⟩ => by
    rw [placedBelow, List.pairwise_cons]
    constructor
    · intro other there
      obtain ⟨⟨position, node⟩, below, rfl⟩ := List.mem_map.mp there
      obtain ⟨k, rest, rfl, -⟩ := mem_placedFrom.mp below
      exact lt_under (List.nil_lt_cons _ _)
    · apply List.Pairwise.map _ _ (ordered_placedFrom 0 children)
      intro a b first
      exact lt_under first

theorem ordered_placedFrom (i : Nat) :
    ∀ nodes : List Node, (placedFrom i nodes).Pairwise Placed.Precedes
  | [] => .nil
  | node :: rest => by
    rw [placedFrom, List.pairwise_append]
    refine ⟨ordered_placedBelow i node, ordered_placedFrom (i + 1) rest, ?_⟩
    rintro ⟨_, a⟩ first ⟨_, b⟩ later
    obtain ⟨_, rfl, -⟩ := mem_placedBelow.mp first
    obtain ⟨k, _, rfl, -⟩ := mem_placedFrom.mp later
    apply List.cons_lt_cons_iff.mpr
    exact .inl (by omega)

end

theorem ordered_placed (tree : List Node) : (placed tree).Pairwise Placed.Precedes :=
  ordered_placedFrom 0 tree

end Tree

end Sitewright
