import Sitewright.Api.Request

/-!
The resources of the service, and how the path and the method of a request lead to one.
-/

namespace Sitewright.Api

inductive Route
  | health
  | description
  | staticFile
  | projects
  | createProject
  | exportProject
  | project (id : String)
  | deleteProject (id : String)
  | deploy (id : String)
  | deployments (id : String)
  | copy (id environment : String)
  | saveCopy (id environment : String)
  | enhance
  | audit
  deriving DecidableEq, Repr

namespace Route

/-- The resources under the projects. The archive of an export hides no other method of a project of
that name. -/
def underProjects : List String → List (Method × Route)
  | [] => [(.get, .projects), (.post, .createProject)]
  | [id] =>
    (if id = "export" then [(.post, .exportProject)] else []) ++
      [(.get, .project id), (.delete, .deleteProject id)]
  | [id, "deploy"] => [(.post, .deploy id)]
  | [id, "deployments"] => [(.get, .deployments id)]
  | [id, "environments", environment] =>
    [(.get, .copy id environment), (.put, .saveCopy id environment)]
  | _ => []

/-- The path of a file: it does not begin with a slash, and no line ends in it past its first
character. -/
def isFile : List String → Bool
  | [] => false
  | first :: rest =>
    first ≠ "" && ((first.toList.drop 1) :: rest.map String.toList).all (!·.contains '\n')

/-- The resources at a path, each with the method it answers. No identifier is empty. -/
def resources : List String → List (Method × Route)
  | ["openapi", "builder.yaml"] => [(.get, .description)]
  | "static" :: file => if isFile file then [(.get, .staticFile)] else []
  | ["api", "v1", "health"] => [(.get, .health)]
  | ["api", "v1", "audit"] => [(.get, .audit)]
  | ["api", "v1", "builder", "enhance"] => [(.post, .enhance)]
  | "api" :: "v1" :: "projects" :: rest => if rest.contains "" then [] else underProjects rest
  | _ => []

def isPublic : Route → Bool
  | health | description | staticFile => true
  | _ => false

end Route

inductive Routing
  | found (route : Route)
  | options
  /-- The path leads somewhere once every run of slashes in it is made one. -/
  | moved
  | methodNotAllowed
  /-- The path leads somewhere, but nothing there is a websocket. -/
  | noSocket
  | notFound
  deriving DecidableEq, Repr

namespace Routing

/-- Where a request for a websocket leads: never to a resource. -/
def forSocket (method : Method) (known : List (Method × Route)) : Routing :=
  if known.isEmpty then notFound
  else if known.all (·.1.serves method) then noSocket
  else methodNotAllowed

def of (method : Method) (path : List Char) : Routing :=
  let here := Route.resources (Target.segments path)
  let there := Route.resources (Target.segments (Target.merged path))
  match here.find? (·.1.serves method), there.find? (·.1.serves method) with
  | some (_, route), _ => if method = .options then options else found route
  | none, some _ => moved
  | none, none => if (here ++ there).isEmpty then notFound else methodNotAllowed

def ofRequest (request : Request) : Routing :=
  let path := request.target.path
  if request.asksForSocket then
    forSocket request.method
      (Route.resources (Target.segments path) ++
        Route.resources (Target.segments (Target.merged path)))
  else of request.method path

end Routing

end Sitewright.Api
