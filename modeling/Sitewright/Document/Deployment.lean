import Sitewright.Document.Component
import Sitewright.Document.Shape

namespace Sitewright

inductive DeploymentStatus
  | success
  | error
  deriving DecidableEq, Repr

namespace DeploymentStatus

def name : DeploymentStatus → String
  | success => "success"
  | error => "error"

def ofName? (s : String) : Option DeploymentStatus := [success, error].find? (·.name == s)

@[simp] theorem ofName?_name (status : DeploymentStatus) : ofName? status.name = some status := by
  cases status <;> decide

/-- Absent is success; a list or an object cannot be looked up. -/
def ofJson (place : Place) : Option Json → Except Error DeploymentStatus
  | none => .ok .success
  | some (.arr _) | some (.obj _) => .error .statusCompound
  | some value =>
    match value.asText?.bind ofName? with
    | some status => .ok status
    | none =>
      if value.isWritable then .error (.statusUnknown place value) else .error .integerOverlong

@[simp] theorem ofJson_name (place : Place) (status : DeploymentStatus) :
    ofJson place (some (.str status.name)) = .ok status := by
  simp [ofJson, Json.asText?]

end DeploymentStatus

def Target.ofJson (place : Place) (value : Json) : Except Error Target :=
  match value.asText?.bind ofName? with
  | some target => .ok target
  | none => .error (.environmentUnknown place)

@[simp] theorem Target.ofJson_name (place : Place) (target : Target) :
    ofJson place (.str target.name) = .ok target := by
  simp [ofJson, Json.asText?]

/-- The message and the actor may be any value; an actor that is null is none. -/
structure DeploymentRecord where
  id : String
  target : Target
  deployedAt : String
  status : DeploymentStatus := .success
  message : Json := .str ""
  deployedBy : Json := .null
  deriving DecidableEq, Repr

namespace DeploymentRecord

def ofJson (place : Place) (data : Json) : Except Error DeploymentRecord := do
  let fields ← Shape.object place data
  let target ← Target.ofJson place (fields.value "environment")
  let status ← DeploymentStatus.ofJson place (fields.get? "status")
  let id ← Shape.requiredText place fields "id"
  let deployedAt ← Shape.requiredText place fields "deployedAt"
  return {
    id, target, deployedAt, status
    message := (fields.value "message").orElse (.str "")
    deployedBy := fields.value "deployedBy" }

def toFields (record : DeploymentRecord) : Fields Json :=
  [("id", .str record.id), ("environment", .str record.target.name),
   ("deployedAt", .str record.deployedAt), ("status", .str record.status.name),
   ("message", record.message)] ++
  (if record.deployedBy = .null then [] else [("deployedBy", record.deployedBy)])

def toJson (record : DeploymentRecord) : Json := .obj record.toFields

end DeploymentRecord

end Sitewright
