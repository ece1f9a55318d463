import Sitewright.Document.Deployment
import Sitewright.Json.Mapping

/-!
What a project carries besides its pages: its environment, its times, its deployments, and fields
that are kept without being looked at.
-/

namespace Sitewright

/-- The environment and the times may be any value, and null is none. -/
structure Metadata where
  environment : Json := .null
  createdAt : Json := .null
  updatedAt : Json := .null
  lastDeployment : Fields Json := []
  history : List DeploymentRecord := []
  extra : Fields Json := []
  deriving DecidableEq, Repr, Inhabited

namespace Metadata

def knownKeys : List String :=
  ["environment", "createdAt", "updatedAt", "lastDeployment", "deploymentHistory"]

def environmentOf (place : Place) : Json → Except Error Json
  | .null => .ok .null
  | .str s =>
    match Environment.ofName? s with
    | some _ => .ok (.str s)
    | none => .error (.environmentUnknown place)
  | _ => .error (.environmentUnknown place)

def ofFields [Machine] (outer : Nat) (place : Place) (fields : Fields Json) :
    Except Error Metadata := do
  let environment ← environmentOf place (fields.value "environment")
  let lastDeployment ← Shape.optionalObject (outer + 1) place fields "lastDeployment"
  let records ← Shape.optionalArray place fields "deploymentHistory"
  let history ← Shape.items (.field place "deploymentHistory") DeploymentRecord.ofJson records
  let extra ← Shape.eachCopied (outer + 2) (fields.filter fun f => !knownKeys.contains f.1)
  return {
    environment, lastDeployment, history, extra
    createdAt := fields.value "createdAt"
    updatedAt := fields.value "updatedAt" }

def ofJson [Machine] (outer : Nat) (place : Place) : Json → Except Error Metadata
  | .null => .ok {}
  | .obj fields => ofFields outer place fields
  | _ => .error (.notObject place)

def knownFields (metadata : Metadata) : Fields Json :=
  [("environment", metadata.environment), ("createdAt", metadata.createdAt),
   ("updatedAt", metadata.updatedAt),
   ("lastDeployment",
    if metadata.lastDeployment.isEmpty then .null else .obj metadata.lastDeployment),
   ("deploymentHistory",
    if metadata.history.isEmpty then .null
    else .arr (metadata.history.map DeploymentRecord.toJson))]

def toFields (metadata : Metadata) : Fields Json :=
  metadata.extra.merge metadata.knownFields.present

def toJson (metadata : Metadata) : Json := .obj metadata.toFields

@[simp] theorem map_fst_knownFields (metadata : Metadata) :
    metadata.knownFields.map Prod.fst = knownKeys := rfl

theorem distinct_knownFields (metadata : Metadata) :
    (metadata.knownFields.map Prod.fst).Nodup := by
  rw [map_fst_knownFields]
  decide

theorem toFields_eq_append {metadata : Metadata}
    (h : ∀ field ∈ metadata.extra, field.1 ∉ knownKeys) :
    metadata.toFields = metadata.extra ++ metadata.knownFields.present := by
  have sub : (metadata.knownFields.present.map Prod.fst).Sublist knownKeys :=
    map_fst_knownFields metadata ▸ List.Sublist.map Prod.fst List.filter_sublist
  refine Fields.merge_eq_append (sub.nodup (by decide)) ?_
  intro field hField known
  exact h field hField (sub.subset known)

theorem value_toFields {metadata : Metadata}
    (h : ∀ field ∈ metadata.extra, field.1 ∉ knownKeys) {key : String} (known : key ∈ knownKeys) :
    metadata.toFields.value key = metadata.knownFields.value key := by
  rw [toFields_eq_append h, Fields.value_append_of_absent,
    Fields.value_present (distinct_knownFields metadata)]
  exact fun field hField same => h field hField (same ▸ known)

def fieldNames : List String :=
  ["environment", "created_at", "updated_at", "last_deployment", "deployment_history", "extra"]

/-- The metadata with a field replaced. Times of deployments may come as any mapping. -/
def replace (metadata : Metadata) (key : String) (value : Json) : Except Error Metadata :=
  match key with
  | "environment" => return { metadata with environment := value }
  | "created_at" => return { metadata with createdAt := value }
  | "updated_at" => return { metadata with updatedAt := value }
  | "last_deployment" => return { metadata with
      lastDeployment := ← (value.orElse (.obj [])).toMapping }
  | "deployment_history" => do
    let records ← match value.orElse (.arr []) with
      | .arr records => pure records
      | _ => throw .notObjectItem
    return { metadata with
      history := ← Shape.items (.named key) DeploymentRecord.ofJson records }
  | _ =>
    match value with
    | .obj extra => return { metadata with extra }
    | _ => throw .notMapping

def replaceAll (metadata : Metadata) (changes : Fields Json) : Except Error Metadata :=
  if changes.all fun change => fieldNames.contains change.1 then
    changes.foldlM (fun metadata change => metadata.replace change.1 change.2) metadata
  else .error .metadataFieldUnknown

end Metadata

end Sitewright
