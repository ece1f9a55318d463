import Sitewright.Document.Copy
import Sitewright.Proofs.Document.Uniqueness

/-!
How deep the parts of a project may be nested for it to be copied. The bound is one for each of the
parts, so that a project put together from parts of several can be copied when all of those can.
-/

namespace Sitewright

namespace Json

@[simp] theorem fieldsNesting_append (start rest : Fields Json) :
    fieldsNesting (start ++ rest) = max (fieldsNesting start) (fieldsNesting rest) := by
  induction start with
  | nil => simp [fieldsNesting]
  | cons field start ih =>
    obtain ⟨name, value⟩ := field
    rw [List.cons_append, fieldsNesting, fieldsNesting, ih]
    omega

theorem fieldsNesting_put_le (fields : Fields Json) (key : String) (value : Json) :
    fieldsNesting (fields.put key value) ≤ max value.nesting (fieldsNesting fields) := by
  induction fields with
  | nil => simp [Fields.put, fieldsNesting]
  | cons field rest ih =>
    obtain ⟨name, old⟩ := field
    rw [Fields.put]
    split
    · simp only [fieldsNesting]
      omega
    · simp only [fieldsNesting]
      omega

theorem nesting_orElse_le (value fallback : Json) :
    (value.orElse fallback).nesting ≤ max value.nesting fallback.nesting := by
  rw [orElse]
  split <;> omega

end Json

namespace DeploymentRecord

theorem copyCalls_eq (record : DeploymentRecord) :
    record.copyCalls = 4 + 2 * max record.message.nesting record.deployedBy.nesting := by
  have message := record.message.nesting_pos
  rw [copyCalls, toFields, Json.fieldsNesting_append]
  split
  · next none =>
    simp only [none, Json.fieldsNesting, Json.nesting]
    omega
  · simp only [Json.fieldsNesting, Json.nesting_str]
    omega

end DeploymentRecord

structure Metadata.Shallow [Machine] (metadata : Metadata) : Prop where
  environment : 10 + 2 * metadata.environment.nesting ≤ Machine.calls
  createdAt : 10 + 2 * metadata.createdAt.nesting ≤ Machine.calls
  updatedAt : 10 + 2 * metadata.updatedAt.nesting ≤ Machine.calls
  lastDeployment : 10 + 2 * (Json.obj metadata.lastDeployment).nesting ≤ Machine.calls
  extra : 10 + 2 * (Json.obj metadata.extra).nesting ≤ Machine.calls
  history : ∀ record ∈ metadata.history, 12 + record.copyCalls ≤ Machine.calls

theorem Metadata.shallow_iff [Machine] {metadata : Metadata} :
    6 + metadata.copyCalls ≤ Machine.calls ↔ metadata.Shallow := by
  have enough := Machine.roomy
  have records := @largest_le_iff _ DeploymentRecord.copyCalls metadata.history (Machine.calls - 12)
  constructor
  · intro copied
    simp only [copyCalls, values, Json.itemsNesting] at copied
    have each := records.mp (by omega)
    constructor
    case history =>
      intro record there
      have := each record there
      omega
    all_goals omega
  · intro shallow
    have history := records.mpr fun record there => by
      have := shallow.history record there
      omega
    obtain ⟨environment, createdAt, updatedAt, lastDeployment, extra, -⟩ := shallow
    simp only [copyCalls, values, Json.itemsNesting]
    omega

namespace Project

theorem copyable_iff [Machine] {project : Project} :
    project.Copyable ↔ (∀ page ∈ project.pages, 8 + page.copyCalls ≤ Machine.calls) ∧
      project.metadata.Shallow := by
  have enough := Machine.roomy
  have pages := @largest_le_iff _ Page.copyCalls project.pages (Machine.calls - 8)
  rw [← Metadata.shallow_iff, Copyable, copyCalls]
  constructor
  · intro copied
    refine ⟨fun page there => ?_, by omega⟩
    have := pages.mp (by omega) page there
    omega
  · rintro ⟨each, shallow⟩
    have := pages.mpr fun page there => by
      have := each page there
      omega
    omega

theorem Copyable.shallow [Machine] {project : Project} (h : project.Copyable) :
    project.metadata.Shallow :=
  (copyable_iff.mp h).2

theorem Copyable.withMetadata [Machine] {project : Project} (h : project.Copyable)
    {metadata : Metadata} (shallow : metadata.Shallow) : Copyable { project with metadata } :=
  copyable_iff.mpr ⟨(copyable_iff.mp h).1, shallow⟩

end Project

/-! Identifiers are copied in no calls of their own -/

theorem Node.fieldsNesting_ownFields (node : Node) : Json.fieldsNesting node.ownFields =
    max (max 1 (Json.obj node.props).nesting)
      (max (Json.obj (node.styles.map fun f => (f.1, .str f.2))).nesting
        (Json.obj node.metadata).nesting) := by
  rw [ownFields, Json.fieldsNesting_append]
  split
  · next none =>
    rw [List.isEmpty_iff.mp none]
    simp only [Json.fieldsNesting, Json.nesting]
    omega
  · simp only [Json.fieldsNesting, Json.nesting_str]
    omega

mutual

@[simp] theorem Node.copyCalls_withoutIds : ∀ node : Node, node.withoutIds.copyCalls = node.copyCalls
  | ⟨id, type, props, styles, metadata, children⟩ => by
    simp only [Node.withoutIds, copyCalls, Node.fieldsNesting_ownFields,
      copyCallsList_withoutIdsList children]

@[simp] theorem Node.copyCallsList_withoutIdsList : ∀ nodes : List Node,
    copyCallsList (withoutIdsList nodes) = copyCallsList nodes
  | [] => rfl
  | node :: rest => by
    simp only [withoutIdsList, copyCallsList, copyCalls_withoutIds node,
      copyCallsList_withoutIdsList rest]

end

theorem Project.copyable_withoutIds [Machine] {project : Project} :
    project.withoutIds.Copyable ↔ project.Copyable := by
  have same (page : Page) : page.withoutIds.copyCalls = page.copyCalls := by
    simp only [Page.copyCalls, Page.withoutIds, Node.copyCallsList_withoutIdsList]
  simp only [copyable_iff, withoutIds, List.forall_mem_map, same]

theorem Project.copyable_repairIds [Machine] {prior enhanced : Project} {millis : Int}
    {random : Random} :
    (prior.repairIds enhanced millis random).1.Copyable ↔ enhanced.Copyable := by
  rw [← copyable_withoutIds, withoutIds_repairIds, copyable_withoutIds]

end Sitewright
