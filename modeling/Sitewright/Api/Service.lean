import Sitewright.Api.Description
import Sitewright.Operation.Enhance
import Sitewright.Operation.Promote
import Sitewright.Time.DateText

/-!
The service: it answers requests from a store. The sender is made out before anything else is looked
at, and errors become responses only at the end.
-/

namespace Sitewright.Api

variable [Machine]

def objectBody (request : Request) : Except Error (Fields Json) := do
  match ← request.data with
  | some (.obj fields) => .ok fields
  | _ => .error .bodyNotObject

def optionalBody (request : Request) : Except Error (Fields Json) := do
  match ← request.data with
  | some (.obj fields) => .ok fields
  | some data => if data.isTruthy then .error .bodyUnusable else .ok []
  | none => .ok []

def projectIn (body : Fields Json) : Json := (body.get? "project").getD (.obj body)

def messageIn (body : Fields Json) : Except Error Json :=
  match Fields.value body "message" with
  | .null => .ok .null
  | .str s => .ok (.str s)
  | _ => .error .messageNotText

def argsIn (request : Request) : Fields Json :=
  request.target.args.map fun arg => (arg.1, .str arg.2)

def auditFilter (args : Fields String) : Store.AuditFilter where
  action := args.get? "action"
  entityType := args.get? "entity_type"
  entityId := args.get? "entity_id"

def copyResponse (id environment : String) (fields : Fields Json) : Action Response := do
  let written ← Store.writtenAt id environment
  return { Response.ofFields fields with lastModified := written.bind Time.HttpDate.ofDateTime? }

def succeeded (fields : Fields Json) : Response := .ofFields (("success", .bool true) :: fields)

def listProjects (request : Request) : Action Response := do
  let usualSize := Json.int Listing.defaultPageSize
  let (page, size) ← Action.ofExcept (Listing.pageArgs (argsIn request) usualSize)
  let entries ← Operation.listProjects
  let rows ← Action.ofExcept do
    (Listing.pageItems entries page size).mapM fun entry => Listing.entryRow entry.toFields
  let info ← Action.ofExcept (Listing.pageInfo (.int page) (.int size) (.int entries.length))
  return .ofFields (Listing.response "projects" rows (some info))

def createProject (request : Request) (actor : Json) : Action Response := do
  let body ← Action.ofExcept (objectBody request)
  let project ← Operation.createProject (.obj body) actor none
  return succeeded [("project", project.toJson)]

def exportProject (request : Request) : Action Response := do
  let body ← Action.ofExcept (objectBody request)
  let exported := Site.exportArchive (projectIn body) (.int Site.usualLevel)
  let (fileName, entries) ← Action.ofExcept exported
  return { body := .archive fileName entries }

def deploy (settings : Settings) (request : Request) (actor : Json) (id : String) :
    Action Response := do
  let body ← Action.ofExcept (optionalBody request)
  let message ← Action.ofExcept (messageIn body)
  let deployment ← Operation.promote id (Fields.value body "targetEnvironment") message actor none
    settings.historyLimit
  let text := "Successfully deployed to " ++ deployment.record.target.name
  return succeeded (("message", .str text) :: deployment.toFields)

def loadCopy (id environment : String) : Action Response := do
  let project ← Operation.loadCopy id (.str environment)
  copyResponse id environment
    [("success", .bool true), ("project", project.toJson), ("environment", .str environment)]

def Request.knownTime (settings : Settings) (request : Request) :
    Except Error (Option Time.DateTime) :=
  Time.DateText.knownTime settings.today (request.header? "If-Unmodified-Since")

def saveCopy (settings : Settings) (request : Request) (actor : Json) (id environment : String) :
    Action Response := do
  let body ← Action.ofExcept (objectBody request)
  let known ← Action.ofExcept (request.knownTime settings)
  let project ← Operation.saveCopy id (.str environment) (projectIn body) actor none known
  copyResponse id environment
    [("success", .bool true),
     ("message", .str ("Project saved to " ++ environment ++ " environment")),
     ("projectId", .str project.id), ("environment", .str environment),
     ("updatedAt", project.metadata.updatedAt)]

/-- The project in the body is enhanced, and saved if an environment is named. -/
def enhance (transform : Operation.Transform) (request : Request) (actor : Json) :
    Action Response := do
  let body ← Action.ofExcept (optionalBody request)
  let data := Fields.value body "project"
  if data.asObject?.isNone then throw .projectRequired
  let prompt := Fields.value body "enhancementPrompt"
  let _ ← Action.ofExcept (Operation.instructionOf prompt)
  let project ← Action.ofExcept (Project.ofJson data)
  let environment := Fields.value body "environment"
  let enhanced ← Operation.enhance project prompt transform environment.isTruthy environment actor
    none
  return succeeded [("project", enhanced.toJson)]

/-- Only a database has an audit trail to show. -/
def audit (request : Request) : Action Response := do
  if (← get).store.backing ≠ .database then throw .auditUnavailable
  let args := request.target.args
  let usualLimit := Json.int Listing.defaultPageSize
  let limit ← Action.ofExcept (Listing.limitArg (argsIn request) usualLimit)
  return .ofFields (← Store.auditPage (auditFilter args) (args.get? "cursor") limit)

def Route.perform (settings : Settings) (transform : Operation.Transform) (request : Request)
    (actor : Json) : Route → Action Response
  | health => return .ofFields [("status", .str "ok"), ("service", .str "sitebuilder")]
  | description => Action.ofExcept (Description.response settings.description request)
  | staticFile => return .notFound
  | projects => listProjects request
  | createProject => Api.createProject request actor
  | exportProject => Api.exportProject request
  | project id => do return .ofFields [("project", (← Operation.getProject id).toJson)]
  | deleteProject id => do
    Operation.deleteProject id actor
    return succeeded []
  | deploy id => Api.deploy settings request actor id
  | deployments id => Response.ofFields <$> Operation.deployments id
  | copy id environment => loadCopy id environment
  | saveCopy id environment => Api.saveCopy settings request actor id environment
  | enhance => Api.enhance transform request actor
  | audit => Api.audit request

/-- The sender as far as a resource asks for one. -/
def senderFor (settings : Settings) (request : Request) (route : Route) :
    Except Refusal (Option String) :=
  if route.isPublic then .ok none else sender settings request

def serve (settings : Settings) (transform : Operation.Transform) (request : Request)
    (route : Route) : StateM World Response := fun world =>
  match senderFor settings request route with
  | .error refusal => (.ofRefusal refusal, world)
  | .ok sender =>
    match (route.perform settings transform request (.ofText? sender)).perform world with
    | (.ok response, world) => (response, world)
    | (.error error, world) => (.ofError error, world)

def respond (settings : Settings) (transform : Operation.Transform) (request : Request) :
    StateM World Response := do
  let response ← match Routing.ofRequest request with
    | .found route => serve settings transform request route
    | .options => pure { body := .fixed (some "text/html") }
    | .moved => pure { status := 308, body := .fixed (some "text/html") }
    | .methodNotAllowed => pure .methodNotAllowed
    | .noSocket => pure .noSocket
    | .notFound => pure .notFound
  return if request.method = .head then response.withoutBody else response

end Sitewright.Api
