import Sitewright.Document.Slug
import Sitewright.Text.Case
import Sitewright.Text.Words

namespace Sitewright.Site

def isLowerOrDigit (c : Char) : Bool := ('a' ≤ c && c ≤ 'z') || ('0' ≤ c && c ≤ '9')

def isAsciiAlphanumeric (c : Char) : Bool := isLowerOrDigit c || ('A' ≤ c && c ≤ 'Z')

def packageName (projectName : String) : String :=
  let words := Text.words isLowerOrDigit (Text.lower projectName).toList
  if words.isEmpty then "site" else String.ofList (Text.joinWith '-' words)

def isFileNameChar (c : Char) : Bool := isLowerOrDigit c || c = '.' || c = '_' || c = '-'

def archiveFileName (projectName : String) : String :=
  let dashed := Text.joinWith '-' (Text.words (!Text.isBlank ·) projectName.toList)
  let base := (Text.lower (String.ofList dashed)).toList.filter isFileNameChar
  (if base.isEmpty then "site" else String.ofList base) ++ ".zip"

def upperFirst : List Char → List Char
  | [] => []
  | c :: rest => c.toUpper :: rest

def componentName (pageName : String) : String :=
  let base := (Text.words isAsciiAlphanumeric pageName.toList).flatMap upperFirst
  let base := if base.isEmpty then "Untitled".toList else base
  let base := if base.head?.any Char.isDigit then "Page".toList ++ base else base
  String.ofList (base ++ "Page".toList)

def pagePath (slug : String) : String :=
  if slug = Slug.home then "pages/index.tsx"
  else "pages/" ++ String.ofList (slug.toList.dropWhile (· = '/')) ++ ".tsx"

end Sitewright.Site
