import Sitewright.Document.Shape

/-!
Component nodes and their trees. A tree is read from JSON down to a greatest depth and written back
with every field in its place; `walk` lists the nodes of a tree, each before its children.
-/

namespace Sitewright

structure Node where
  id : String
  type : String
  props : Fields Json := []
  styles : Fields String := []
  metadata : Fields Json := []
  children : List Node := []
  deriving Repr, Inhabited

namespace Node

/-- Style values are texts; any other value stands for its own text, if that can be written. -/
def stylesOf (fields : Fields Json) : Except Error (Fields String) :=
  if Json.fieldsWritable fields then .ok (fields.map fun f => (f.1, f.2.display))
  else .error .integerOverlong

theorem stylesOf_eq_ok {fields : Fields Json} {styles : Fields String} :
    stylesOf fields = .ok styles ↔ Json.fieldsWritable fields = true ∧
      styles = fields.map fun f => (f.1, f.2.display) := by
  unfold stylesOf
  split
  · next writable => simp [writable, eq_comm]
  · next overlong => simp [overlong]

theorem stylesOf_eq_error {fields : Fields Json} {error : Error} :
    stylesOf fields = .error error ↔
      Json.fieldsWritable fields = false ∧ error = .integerOverlong := by
  unfold stylesOf
  split
  · next writable => simp [writable]
  · next overlong => simp [overlong, eq_comm]

/-- The node of a value, read inside a number of calls, with a number of levels left for it and its
children. -/
def ofJson [Machine] : Nat → Nat → Place → Json → Except Error Node
  | _, 0, _, .obj _ => .error .tooDeep
  | outer, levels + 1, place, .obj fields => do
    let type ← Shape.requiredText place fields "type"
    let id ← Shape.optionalText place fields "id"
    let styles ← Shape.optionalObject (outer + 1) place fields "styles"
    let styles ← stylesOf styles
    let children ← Shape.optionalArray place fields "children"
    let children ← Shape.items (.field place "children") (ofJson (outer + 2) levels) children
    let props ← Shape.optionalObject (outer + 1) place fields "props"
    let metadata ← Shape.optionalObject (outer + 1) place fields "metadata"
    return { id, type, props, styles, metadata, children }
  | _, _, place, _ => .error (.notObject place)

def read [Machine] (place : Place) (data : Json) : Except Error Node :=
  ofJson 0 maxTreeDepth place data

def ownFields (node : Node) : Fields Json :=
  [("id", .str node.id), ("type", .str node.type), ("props", .obj node.props),
   ("styles", .obj (node.styles.map fun f => (f.1, .str f.2)))] ++
  (if node.metadata.isEmpty then [] else [("metadata", .obj node.metadata)])

mutual

def toJson : Node → Json
  | ⟨id, type, props, styles, metadata, children⟩ =>
    .obj (ownFields ⟨id, type, props, styles, metadata, []⟩ ++
      [("children", .arr (toJsonList children))])

def toJsonList : List Node → List Json
  | [] => []
  | node :: rest => node.toJson :: toJsonList rest

end

theorem toJson_eq (node : Node) :
    node.toJson = .obj (node.ownFields ++ [("children", .arr (toJsonList node.children))]) := by
  cases node
  rfl

theorem toJsonList_eq_map (nodes : List Node) : toJsonList nodes = nodes.map toJson := by
  induction nodes with
  | nil => rfl
  | cons node rest ih => simp [toJsonList, ih]

mutual

/-- The node and all below it, each node before its children. -/
def walk : Node → List Node
  | ⟨id, type, props, styles, metadata, children⟩ =>
    ⟨id, type, props, styles, metadata, children⟩ :: walkList children

def walkList : List Node → List Node
  | [] => []
  | node :: rest => node.walk ++ walkList rest

end

theorem walk_eq (node : Node) : node.walk = node :: walkList node.children := by
  cases node
  rfl

theorem walkList_eq_flatMap (nodes : List Node) : walkList nodes = nodes.flatMap walk := by
  induction nodes with
  | nil => rfl
  | cons node rest ih => simp [walkList, ih]

@[simp] theorem walkList_append (as bs : List Node) : walkList (as ++ bs) = walkList as ++ walkList bs := by
  simp [walkList_eq_flatMap]

mutual

def size : Node → Nat
  | ⟨_, _, _, _, _, children⟩ => 1 + sizeList children

def sizeList : List Node → Nat
  | [] => 0
  | node :: rest => node.size + sizeList rest

end

theorem size_eq (node : Node) : node.size = 1 + sizeList node.children := by
  cases node
  rfl

@[simp] theorem sizeList_append (as bs : List Node) : sizeList (as ++ bs) = sizeList as + sizeList bs := by
  induction as with
  | nil => simp [sizeList]
  | cons node rest ih => simp [sizeList, ih, Nat.add_assoc]

/-- The nodes in the order in which they are met, with a list of those still to be visited. -/
def traverse : List Node → List Node
  | [] => []
  | node :: pending => node :: traverse (node.children ++ pending)
termination_by pending => sizeList pending
decreasing_by
  rw [sizeList_append, sizeList, size_eq]
  omega

end Node

end Sitewright
