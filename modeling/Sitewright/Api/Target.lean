import Sitewright.Api.Reference
import Sitewright.Fields
import Sitewright.Text.Percent

/-!
The target of a request: a path, and the arguments after the question mark.
-/

namespace Sitewright.Api

structure Target where
  /-- Without its escapes, and without the slashes it begins with. -/
  path : List Char
  /-- In the order in which they are given; of several under one name the first counts. -/
  args : Fields String
  deriving DecidableEq, Repr

namespace Target

/-- A plus sign stands for a space. -/
def argText (cs : List Char) : String :=
  Text.Percent.decodeText (String.ofList (cs.map fun c => if c = '+' then ' ' else c))

def argsOf (query : List Char) : Fields String :=
  ((Text.split '&' query).filter (· ≠ [])).map fun arg =>
    let (name, value) := Authority.cut '=' arg
    (argText name, argText value)

/-- The path of a target may be a reference again, and the path of that one too. Two hosts are
dropped in this way; a third one begins the path. -/
def ofText (s : String) : Except Error Target := do
  let outer ← Reference.ofText s.toList
  let inner ← Reference.ofText outer.pathAndQuery
  let path ← (← Reference.ofText inner.path).normalized
  let _ ← (Authority.ofText outer.authority).normalized
  return { path := (Text.Percent.decode (String.ofList path)).toList.dropWhile (· = '/')
           args := argsOf inner.query }

def merged : List Char → List Char
  | [] => []
  | c :: rest => if c = '/' && rest.head? = some '/' then merged rest else c :: merged rest

def segments (path : List Char) : List String := (Text.split '/' path).map String.ofList

end Target

end Sitewright.Api
