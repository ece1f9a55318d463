import Sitewright.Document.Component
import Sitewright.Document.Node

/-!
Valid component trees. The first top-level node is a body and no other node is; ids are there and
differ; types are known; no node stands too deep. Children of a leaf are accepted with a warning.
-/

namespace Sitewright.Tree

/-- A node met on the way through a tree, with its level, the top one being 1. -/
structure Visit where
  node : Node
  level : Nat
  isRoot : Bool := false

mutual

def visitsBelow (level : Nat) : Node → List Visit
  | ⟨id, type, props, styles, metadata, children⟩ =>
    ⟨⟨id, type, props, styles, metadata, children⟩, level, false⟩ :: visitsList (level + 1) children

def visitsList (level : Nat) : List Node → List Visit
  | [] => []
  | node :: rest => visitsBelow level node ++ visitsList level rest

end

def visits (tree : List Node) : List Visit :=
  match visitsList 1 tree with
  | [] => []
  | first :: rest => { first with isRoot := true } :: rest

theorem visitsBelow_eq (level : Nat) (node : Node) :
    visitsBelow level node = ⟨node, level, false⟩ :: visitsList (level + 1) node.children := by
  cases node
  rfl

mutual

theorem visitsBelow_map_node (level : Nat) :
    ∀ node : Node, (visitsBelow level node).map Visit.node = node.walk
  | ⟨id, type, props, styles, metadata, children⟩ => by
    simp [visitsBelow, Node.walk, visitsList_map_node (level + 1) children]

theorem visitsList_map_node (level : Nat) :
    ∀ nodes : List Node, (visitsList level nodes).map Visit.node = Node.walkList nodes
  | [] => rfl
  | node :: rest => by
    simp [visitsList, Node.walkList, visitsBelow_map_node level node,
      visitsList_map_node level rest]

end

@[simp] theorem visits_map_node (tree : List Node) :
    (visits tree).map Visit.node = Node.walkList tree := by
  have h := visitsList_map_node 1 tree
  unfold visits
  split
  · next hv => simpa [hv] using h
  · next hv => simpa [hv] using h

def warning (node : Node) : String :=
  node.type ++ " node " ++ node.id ++ " has children that will not be rendered"

def checkNode (seen : List String) (visit : Visit) : Except Error (List String) :=
  let node := visit.node
  if maxTreeDepth < visit.level then .error .tooDeep
  else if node.type = ComponentType.body.name ∧ ¬ visit.isRoot then .error .misplacedBody
  else if node.id = "" then .error (.idMissing node.type)
  else if node.id ∈ seen then .error (.idRepeated node.id)
  else match ComponentType.ofName? node.type with
    | none => .error (.typeUnknown node.type)
    | some type => .ok (if type.isLeaf && !node.children.isEmpty then [warning node] else [])

def checkVisits : List String → List Visit → Except Error (List String)
  | _, [] => .ok []
  | seen, visit :: rest => do
    let found ← checkNode seen visit
    let more ← checkVisits (visit.node.id :: seen) rest
    return found ++ more

def hasRoot : List Node → Bool
  | [] => false
  | node :: _ => node.type == ComponentType.body.name

def check (tree : List Node) : Except Error (List String) :=
  if hasRoot tree then checkVisits [] (visits tree) else .error .misplacedBody

end Sitewright.Tree
