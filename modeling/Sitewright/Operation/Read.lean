import Sitewright.Document.Validity
import Sitewright.Store.Documents

namespace Sitewright.Operation

def insteadOfNotFound (other error : Error) : Error :=
  if error.kind = some .notFound then other else error

variable [Machine]

def getProject (projectId : String) : Action Project :=
  (Store.load projectId Environment.builder.name).mapError (insteadOfNotFound .projectUnknown)

def loadCopy (projectId : String) (environment : Json) : Action Project := do
  let environment ← Action.ofExcept (Environment.ofJson environment)
  Store.load projectId environment.name

def deployments (projectId : String) : Action (Fields Json) := do
  let project ← getProject projectId
  return [
    ("projectId", .str projectId),
    ("deploymentHistory", .arr (project.metadata.history.map DeploymentRecord.toJson)),
    ("lastDeployment", .obj project.metadata.lastDeployment)]

def listProjects : Action (List Store.Entry) := Store.catalogue

end Sitewright.Operation
