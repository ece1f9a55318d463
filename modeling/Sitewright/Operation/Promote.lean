import Sitewright.Operation.Read
import Sitewright.Store.Audit

namespace Sitewright.Operation

open Time (DateTime)

def defaultHistoryLimit : Int := 50

def newest {α : Type} (limit : Nat) (records : List α) : List α :=
  records.drop (records.length - limit)

structure Deployment where
  projectId : String
  record : DeploymentRecord
  deriving Repr

def Deployment.toFields (deployment : Deployment) : Fields Json :=
  [("projectId", .str deployment.projectId),
   ("environment", .str deployment.record.target.name),
   ("deployedAt", .str deployment.record.deployedAt),
   ("deploymentLog", deployment.record.toJson)]

def recorded (metadata : Metadata) (record : DeploymentRecord) (limit : Nat) : Metadata :=
  { metadata with
    updatedAt := .str record.deployedAt
    lastDeployment := metadata.lastDeployment.put record.target.name (.str record.deployedAt)
    history := newest limit (metadata.history ++ [record]) }

def relabelled (environment : Environment) (metadata : Metadata) : Metadata :=
  { metadata with environment := .str environment.name }

variable [Machine]

/-- The copies that a deployment leaves, that of the target first. Each is labelled with the
environment that it is for. -/
def copiesOf (builder : Project) (record : DeploymentRecord) (limit : Nat) :
    Except Error (Project × Project) := do
  let synced ← builder.withMetadata fun metadata => .ok (recorded metadata record limit)
  let deployed ← synced.withMetadata fun metadata =>
    .ok (relabelled record.target.environment metadata)
  let synced ← synced.withMetadata fun metadata => .ok (relabelled .builder metadata)
  return (deployed, synced)

def checkHistoryLimit (limit : Int) : Except Error Unit :=
  if limit < 1 then .error .historyLimitTooLow else .ok ()

/-- The record of a deployment. A message that does not count gives way to a standard one. -/
def recordOf (id : String) (target : Target) (deployedAt : String) (message actor : Json) :
    DeploymentRecord where
  id := id
  target := target
  deployedAt := deployedAt
  message := message.orElse (.str ("Deployed to " ++ target.name))
  deployedBy := actor

def noteDeployment (projectId : String) (target : Target) (deployed synced : Project)
    (note : Store.AuditNote) : Action Unit := do
  Store.save projectId target.name deployed
  Store.save projectId Environment.builder.name synced
  Store.putEntry synced
  Store.note note

def writeDeployment (projectId : String) (target : Target) (deployed synced : Project)
    (note : Store.AuditNote) : Action Unit :=
  Store.transaction (noteDeployment projectId target deployed synced note)

def promoteNote (projectId : String) (record : DeploymentRecord) : Store.AuditNote where
  action := .promote
  projectId := projectId
  actor := record.deployedBy
  payload := [("environment", .str record.target.name), ("deployment_id", .str record.id)]

def promote (projectId : String) (target message actor : Json) (at? : Option DateTime)
    (historyLimit : Int) : Action Deployment := do
  Action.ofExcept (checkHistoryLimit historyLimit)
  let target ← Action.ofExcept (Environment.checkPromotion Environment.builder.name target)
  let builder ← (Store.load projectId Environment.builder.name).mapError
    (insteadOfNotFound .builderCopyMissing)
  let _ ← Action.ofExcept builder.checkWithPages
  let deployedAt ← Action.ofExcept (stampOf (← currentTime at?))
  let millis := (← get).millis
  let id ← Action.draw (Identifier.freshDeployment millis)
  let record := recordOf id target deployedAt message actor
  let (deployed, synced) ← Action.ofExcept (copiesOf builder record historyLimit.toNat)
  writeDeployment projectId target deployed synced (promoteNote projectId record)
  return { projectId, record }

end Sitewright.Operation
