import Sitewright.Enhancement.Prompt
import Sitewright.Error
import Sitewright.Json.Reader

namespace Sitewright.Enhancement

structure Endpoint where
  url : String := "http://localhost:5173/api/chat"
  timeout : Json := .float (.ofDecimal false 120 0)
  deriving Repr

/-- What came of a request: a failure on the way, or a response. -/
inductive Exchange
  | failed
  | response (status : Int) (body : String)
  deriving Repr

namespace Exchange

def isFailure : Exchange → Bool
  | .failed => true
  | .response status _ => 400 ≤ status && status < 600

def answer [Machine] : Exchange → Except Error Json
  | .failed => .error .transformFailed
  | .response status body =>
    if isFailure (.response status body) then .error .transformFailed
    else match Json.read body with
      | .ok data => .ok (content data)
      | .error .nested => .error .textNested
      | .error .torn => .error .textTorn
      | .error _ => .error .replyNotJson

end Exchange

namespace Endpoint

def body (project : Json) (instruction : String) : Json :=
  .obj [("messages", messages project instruction), ("stream", .bool false)]

def request (endpoint : Endpoint) (project : Json) (instruction : String) : Json :=
  .obj [("url", .str endpoint.url), ("json", body project instruction),
    ("timeout", endpoint.timeout)]

end Endpoint

end Sitewright.Enhancement
