import Sitewright.Markup.Attribute
import Sitewright.Text.Split

namespace Sitewright.Markup

/-- What stands in an opening tag. The style is written last. -/
structure Tag where
  name : String
  attributes : Fields Json := []
  style : Fields String := []
  deriving Repr

inductive Element
  | closed (tag : Tag)
  /-- An element on one line around a text. -/
  | inline (tag : Tag) (text : String)
  /-- An element around a text, unless that is empty, and other elements. -/
  | block (tag : Tag) (text : String) (children : List Element)
  deriving Repr

namespace Tag

def parts (tag : Tag) : List String :=
  tag.name :: ((tag.attributes.map fun a => writeAttribute a.1 a.2) ++
    [writeStyle (.obj (tag.style.map fun s => (s.1, .str s.2)))]).filter (· ≠ "")

def opening (tag : Tag) : String := "<" ++ Text.join " " tag.parts ++ ">"

def alone (tag : Tag) : String := "<" ++ Text.join " " tag.parts ++ " />"

def closing (tag : Tag) : String := "</" ++ tag.name ++ ">"

end Tag

/-- The blanks before a line. Above the top level there are none. -/
def pad (depth : Int) : String := String.ofList (List.replicate (2 * depth).toNat ' ')

namespace Element

mutual

def lines (depth : Int) : Element → List String
  | .closed tag => [pad depth ++ tag.alone]
  | .inline tag content => [pad depth ++ tag.opening ++ writeText content ++ tag.closing]
  | .block tag content children =>
    (pad depth ++ tag.opening) ::
      (if content = "" then [] else [pad (depth + 1) ++ writeText content]) ++
      linesList (depth + 1) children ++ [pad depth ++ tag.closing]

def linesList (depth : Int) : List Element → List String
  | [] => []
  | element :: rest => lines depth element ++ linesList depth rest

end

end Element

end Sitewright.Markup
