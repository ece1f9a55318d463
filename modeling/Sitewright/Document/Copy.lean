import Sitewright.Document.Project

/-!
Copies of projects, and the documents made of them. Both go into all that a project holds, with a
call or more inside another at each step; where there are not calls enough they fail.
-/

namespace Sitewright

section Largest

variable {α : Type}

def largest (size : α → Nat) : List α → Nat
  | [] => 0
  | item :: rest => max (size item) (largest size rest)

theorem largest_le_iff {size : α → Nat} {items : List α} {bound : Nat} :
    largest size items ≤ bound ↔ ∀ item ∈ items, size item ≤ bound := by
  induction items with
  | nil => simp [largest]
  | cons item rest ih => rw [largest, Nat.max_le, ih, List.forall_mem_cons]

end Largest

namespace Node

mutual

/-- A record takes four calls besides those for what it holds, and a list two. -/
def copyCalls : Node → Nat
  | ⟨id, type, props, styles, metadata, children⟩ =>
    4 + max (2 * Json.fieldsNesting (ownFields ⟨id, type, props, styles, metadata, []⟩))
      (2 + copyCallsList children)

def copyCallsList : List Node → Nat
  | [] => 0
  | node :: rest => max node.copyCalls (copyCallsList rest)

end

theorem copyCalls_eq (node : Node) : node.copyCalls =
    4 + max (2 * Json.fieldsNesting node.ownFields) (2 + copyCallsList node.children) := by
  cases node
  rfl

mutual

/-- The document of a node is made by one call, that of its children inside another one. -/
def encodingCalls : Node → Nat
  | ⟨_, _, props, _, metadata, children⟩ =>
    1 + max (2 * max (Json.obj props).nesting (Json.obj metadata).nesting)
      (1 + encodingCallsList children)

def encodingCallsList : List Node → Nat
  | [] => 0
  | node :: rest => max node.encodingCalls (encodingCallsList rest)

end

theorem encodingCalls_eq (node : Node) : node.encodingCalls =
    1 + max (2 * max (Json.obj node.props).nesting (Json.obj node.metadata).nesting)
      (1 + encodingCallsList node.children) := by
  cases node
  rfl

def encode [Machine] (node : Node) : Except Error Json :=
  if node.encodingCalls ≤ Machine.calls then .ok node.toJson else .error .valueNested

theorem encode_eq_ok [Machine] {node : Node} {document : Json} :
    node.encode = .ok document ↔ node.encodingCalls ≤ Machine.calls ∧ document = node.toJson := by
  unfold encode
  split
  · next enough => simp [enough, eq_comm]
  · next few => simp [few]

end Node

def Page.copyCalls (page : Page) : Nat :=
  4 + max (2 * (Json.obj page.metadata).nesting) (2 + Node.copyCallsList page.tree)

def Page.encodingCalls (page : Page) : Nat :=
  1 + max (2 * (Json.obj page.metadata).nesting) (1 + Node.encodingCallsList page.tree)

def DeploymentRecord.copyCalls (record : DeploymentRecord) : Nat :=
  4 + 2 * Json.fieldsNesting record.toFields

namespace Metadata

def values (metadata : Metadata) : List Json :=
  [metadata.environment, metadata.createdAt, metadata.updatedAt, .obj metadata.lastDeployment,
    .obj metadata.extra]

def copyCalls (metadata : Metadata) : Nat :=
  4 + max (2 * Json.itemsNesting metadata.values)
    (2 + largest DeploymentRecord.copyCalls metadata.history)

def encodingCalls (metadata : Metadata) : Nat := 1 + 2 * (Json.obj metadata.extra).nesting

end Metadata

namespace Project

def copyCalls (project : Project) : Nat :=
  4 + max (2 + largest Page.copyCalls project.pages) project.metadata.copyCalls

def encodingCalls (project : Project) : Nat :=
  1 + max (1 + largest Page.encodingCalls project.pages) project.metadata.encodingCalls

def encode [Machine] (outer : Nat) (project : Project) : Except Error Json :=
  if outer + project.encodingCalls ≤ Machine.calls then .ok project.toJson
  else .error .valueNested

theorem encode_eq_ok [Machine] {outer : Nat} {project : Project} {document : Json} :
    project.encode outer = .ok document ↔
      outer + project.encodingCalls ≤ Machine.calls ∧ document = project.toJson := by
  unfold encode
  split
  · next enough => simp [enough, eq_comm]
  · next few => simp [few]

theorem encode_eq_error [Machine] {outer : Nat} {project : Project} {error : Error} :
    project.encode outer = .error error ↔
      ¬(outer + project.encodingCalls ≤ Machine.calls) ∧ error = .valueNested := by
  unfold encode
  split
  · next enough => simp [enough]
  · next few => simp [few, eq_comm]

/-- The project can be copied, by a call of its own inside the one that asks for it. -/
def Copyable [Machine] (project : Project) : Prop := 2 + project.copyCalls ≤ Machine.calls

instance [Machine] (project : Project) : Decidable project.Copyable :=
  inferInstanceAs (Decidable (_ ≤ _))

def copied [Machine] (project : Project) : Except Error Project :=
  if project.Copyable then .ok project else .error .valueNested

def withMetadata [Machine] (project : Project) (change : Metadata → Except Error Metadata) :
    Except Error Project := do
  let copy ← project.copied
  let metadata ← change copy.metadata
  return { copy with metadata }

theorem copied_eq_ok [Machine] {project found : Project} :
    project.copied = .ok found ↔ project.Copyable ∧ found = project := by
  unfold copied
  split
  · next copyable => simp [copyable, eq_comm]
  · next deep => simp [deep]

theorem copied_eq_error [Machine] {project : Project} {error : Error} :
    project.copied = .error error ↔ ¬project.Copyable ∧ error = .valueNested := by
  unfold copied
  split
  · next copyable => simp [copyable]
  · next deep => simp [deep, eq_comm]

theorem withMetadata_eq_ok [Machine] {project found : Project}
    {change : Metadata → Except Error Metadata} :
    project.withMetadata change = .ok found ↔ project.Copyable ∧
      ∃ metadata : Metadata, change project.metadata = .ok metadata ∧
        found = { project with metadata := metadata } := by
  constructor
  · intro made
    obtain ⟨copy, copied, made⟩ := bind_eq_ok.mp made
    obtain ⟨metadata, changed, found⟩ := bind_eq_ok.mp made
    obtain ⟨copyable, rfl⟩ := copied_eq_ok.mp copied
    exact ⟨copyable, metadata, changed, (Except.ok.inj found).symm⟩
  · rintro ⟨copyable, metadata, changed, rfl⟩
    rw [withMetadata, copied_eq_ok.mpr ⟨copyable, rfl⟩, ok_bind, changed]
    rfl

theorem withMetadata_ok [Machine] {project : Project} (copyable : project.Copyable)
    (change : Metadata → Metadata) : (project.withMetadata fun metadata => .ok (change metadata)) =
      .ok { project with metadata := change project.metadata } :=
  withMetadata_eq_ok.mpr ⟨copyable, _, rfl, rfl⟩

theorem eq_of_withMetadata_ok [Machine] {project found : Project} {change : Metadata → Metadata}
    (h : (project.withMetadata fun metadata => .ok (change metadata)) = .ok found) :
    project.Copyable ∧ found = { project with metadata := change project.metadata } := by
  obtain ⟨copyable, metadata, changed, rfl⟩ := withMetadata_eq_ok.mp h
  cases changed
  exact ⟨copyable, rfl⟩

theorem withMetadata_ok_eq_error [Machine] {project : Project} {change : Metadata → Metadata}
    {error : Error} :
    (project.withMetadata fun metadata => .ok (change metadata)) = .error error ↔
      ¬project.Copyable ∧ error = .valueNested := by
  by_cases copyable : project.Copyable
  · simp [withMetadata_ok copyable, copyable]
  · rw [withMetadata, copied_eq_error.mpr ⟨copyable, rfl⟩]
    simp [copyable, eq_comm]

end Project

end Sitewright
