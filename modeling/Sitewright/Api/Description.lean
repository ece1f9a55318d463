import Sitewright.Api.Condition
import Sitewright.Api.Response
import Sitewright.Settings
import Sitewright.Time.HttpDate

namespace Sitewright.Api.Description

def mediaType : String := "application/yaml"

variable (document : FixedDocument)

def sent (status : Nat) : Response where
  status := status
  body := .fixed (some mediaType)
  lastModified := Time.HttpDate.ofDateTime? document.modified

def response (request : Request) : Except Error Response := do
  match ← deliver request document.length document.modified with
  | .whole => return sent document 200
  | .part => return sent document 206
  | .conditionFailed => return sent document 412
  | .unchanged => return { status := 304, body := .fixed none }
  | .noSuchPart => return .noSuchPart

end Sitewright.Api.Description
