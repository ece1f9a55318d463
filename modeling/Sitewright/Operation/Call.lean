import Sitewright.Operation.Enhance
import Sitewright.Operation.Promote

namespace Sitewright.Operation

open Time (DateTime)

inductive Call
  | create (data actor : Json) (at? : Option DateTime)
  | save (projectId : String) (environment data actor : Json) (at? known : Option DateTime)
  | promote (projectId : String) (target message actor : Json) (at? : Option DateTime)
      (historyLimit : Int)
  | enhance (prior : Project) (instruction : Json) (transform : Transform) (saves : Bool)
      (environment actor : Json) (at? : Option DateTime)
  | delete (projectId : String) (actor : Json)
  | get (projectId : String)
  | load (projectId : String) (environment : Json)
  | deployments (projectId : String)
  | list

def Call.perform [Machine] : Call → Action Json
  | .create data actor at? => Project.toJson <$> createProject data actor at?
  | .save projectId environment data actor at? known =>
    Project.toJson <$> saveCopy projectId environment data actor at? known
  | .promote projectId target message actor at? historyLimit => do
    return .obj (← Operation.promote projectId target message actor at? historyLimit).toFields
  | .enhance prior instruction transform saves environment actor at? =>
    Project.toJson <$> Operation.enhance prior instruction transform saves environment actor at?
  | .delete projectId actor => do
    deleteProject projectId actor
    return .null
  | .get projectId => Project.toJson <$> getProject projectId
  | .load projectId environment => Project.toJson <$> loadCopy projectId environment
  | .deployments projectId => Json.obj <$> Operation.deployments projectId
  | .list => do return .arr ((← listProjects).map fun entry => .obj entry.toFields)

end Sitewright.Operation
