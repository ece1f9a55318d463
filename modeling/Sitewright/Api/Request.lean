import Sitewright.Api.Target
import Sitewright.Json.Reader
import Sitewright.Text.Case
import Sitewright.Text.Encoding
import Sitewright.Text.Words

namespace Sitewright.Api

inductive Method
  | get
  | head
  | post
  | put
  | delete
  | options
  | other
  deriving DecidableEq, Repr

namespace Method

def ofName (s : String) : Method :=
  match Text.upper s with
  | "GET" => get
  | "HEAD" => head
  | "POST" => post
  | "PUT" => put
  | "DELETE" => delete
  | "OPTIONS" => options
  | _ => other

/-- A resource that answers one method answers further ones: with GET also HEAD, and OPTIONS in any
case. -/
def serves : Method → Method → Bool
  | get, head => true
  | _, options => true
  | a, b => a = b

end Method

inductive Content
  | empty
  | json (type : String) (data : Json)
  | text (type body : String)
  deriving DecidableEq, Repr

namespace Content

def type? : Content → Option String
  | empty => none
  | json type _ | text type _ => some type

def mediaType (s : String) : String :=
  Text.lower (Text.trim (String.ofList (s.toList.takeWhile (· ≠ ';'))))

def isJsonType (s : String) : Bool :=
  s = "application/json" || (s.startsWith "application/" && s.endsWith "+json")

def dataOf [Machine] (body : String) : Except Error (Option Json) :=
  match Text.Encoding.reread body with
  | .error .broken => .ok none
  | .error .torn => .error .textTorn
  | .ok s =>
    match Json.read s with
    | .ok data => .ok (some data)
    | .error .nested => .error .textNested
    | .error .torn => .error .textTorn
    | .error _ => .ok none

/-- The data of a body. What is not declared to be JSON, or is none, carries no data. -/
def data [Machine] : Content → Except Error (Option Json)
  | empty => .ok none
  | json type data => .ok (if isJsonType (mediaType type) then some data else none)
  | text type body => if isJsonType (mediaType type) then dataOf body else .ok none

end Content

structure Header where
  name : String
  value : String
  deriving DecidableEq, Repr

namespace Header

/-- A hyphen and an underscore are the same in a name, and so are upper and lower case. -/
def foldName (s : String) : List Char :=
  s.toList.map fun c => if c = '_' then '-' else c.toLower

def isNamed (name : String) (header : Header) : Bool := foldName header.name = foldName name

def check (header : Header) : Except Error Unit :=
  if header.value.toList.any fun c => c = '\n' || c = '\r' then .error .headerBroken else .ok ()

def declaredType (headers : List Header) : String :=
  let isType (header : Header) : Bool :=
    header.name.toList.map Char.toLower = "content-type".toList
  ((headers.find? isType).map (·.value)).getD "application/json"

end Header

structure Request where
  method : Method
  target : Target
  headers : List Header := []
  content : Content := .empty
  /-- The subject of a bearer token that is added to the authorizations in the headers. A valid one
  names somebody by a text. -/
  token : Option Json := none
  deriving DecidableEq, Repr

namespace Request

/-- A request from its parts as they are written. The media type of a body is a header too. -/
def ofParts (method target : String) (headers : List Header) (content : Content)
    (token : Option Json) : Except Error Request := do
  let target ← Target.ofText target
  headers.forM Header.check
  content.type?.forM fun type => Header.check { name := "Content-Type", value := type }
  return { method := .ofName method, target, headers, content, token }

def values (request : Request) (name : String) : List String :=
  (request.headers.filter (Header.isNamed name)).map (·.value)

/-- The value of a header. The values of one that is given several times are joined. -/
def header? (request : Request) (name : String) : Option String :=
  match request.values name with
  | [] => none
  | found => some (Text.join ", " found)

def asksForSocket (request : Request) : Bool :=
  let value (name : String) := (Text.lower ((request.header? name).getD "")).toList
  ((Text.split ',' (value "Connection")).map Text.trimChars).contains "upgrade".toList &&
    value "Upgrade" = "websocket".toList

/-- The data of the body. A body in chunks, whose length is not known beforehand, is not read. -/
def data [Machine] (request : Request) : Except Error (Option Json) :=
  if request.header? "Transfer-Encoding" = some "chunked" then .ok none else request.content.data

end Request

end Sitewright.Api
