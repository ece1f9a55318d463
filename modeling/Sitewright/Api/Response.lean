import Sitewright.Api.Access
import Sitewright.Api.Route
import Sitewright.Error
import Sitewright.Site.Archive

namespace Sitewright.Api

inductive Body
  | json (data : Json)
  | archive (fileName : String) (entries : List Site.ArchiveEntry)
  /-- Nothing, or a document that stays as it is. -/
  | fixed (mediaType : Option String)
  deriving DecidableEq, Repr

namespace Body

def mediaType : Body → Option String
  | json _ => some "application/json"
  | archive .. => some "application/zip"
  | fixed mediaType => mediaType

def disposition? : Body → Option String
  | archive fileName _ => some ("attachment; filename=" ++ fileName)
  | _ => none

end Body

structure Response where
  status : Nat := 200
  body : Body
  lastModified : Option String := none
  deriving DecidableEq, Repr

namespace Response

def ofFields (fields : Fields Json) : Response where
  body := .json (.obj fields)

def fault (status : Nat) (name message : String) : Response where
  status := status
  body := .json (.obj [("error", .str name), ("message", .str message)])

def unexpected : Response := fault 500 "InternalError" "An unexpected error occurred"

/-- An error is reported by its kind; one without a kind was not expected. -/
def ofError (error : Error) : Response :=
  match error.kind with
  | some kind => fault kind.status kind.name error.message
  | none => unexpected

def notFound : Response :=
  fault 404 "Not Found"
    ("The requested URL was not found on the server. " ++
      "If you entered the URL manually please check your spelling and try again.")

def methodNotAllowed : Response :=
  fault 405 "Method Not Allowed" "The method is not allowed for the requested URL."

def noSuchPart : Response :=
  fault 416 "Requested Range Not Satisfiable" "The server cannot provide the requested range."

def noSocket : Response :=
  fault 400 "Bad Request"
    "The browser (or proxy) sent a request that this server could not understand."

def refused (status : Nat) (message : String) : Response where
  status := status
  body := .json (.obj [("msg", .str message)])

def ofRefusal : Refusal → Response
  | .missing => refused 401 "Missing Authorization Header"
  | .otherScheme =>
    refused 401
      "Missing 'Bearer' type in 'Authorization' header. Expected 'Authorization: Bearer <JWT>'"
  | .noToken => refused 422 "Bad Authorization header. Expected 'Authorization: Bearer <JWT>'"
  | .tokenUnreadable => refused 422 "Not enough segments"
  | .subjectNotText => refused 422 "Subject must be a string"
  | .headerBroken => unexpected

def withoutBody (response : Response) : Response :=
  { response with body := .fixed response.body.mediaType }

end Response

end Sitewright.Api
