import Sitewright.Json.Writer
import Sitewright.Text.Words

/-!
Texts and attributes in markup. What could be taken for markup is written as an expression in
braces, which holds a JSON value.
-/

namespace Sitewright.Markup

def isUnsafeInText (c : Char) : Bool :=
  c = '\x7b' || c = '\x7d' || c = '<' || c = '>' || c = '&' || c = '\n' || c = '\r'

def isUnsafeInQuotes (c : Char) : Bool := isUnsafeInText c || c = '"' || c = '\\'

def isPlain (cs : List Char) : Bool :=
  !cs.any isUnsafeInText && !(cs.head?.any Text.isBlank) && !(cs.getLast?.any Text.isBlank)

def braced (s : String) : String := "\x7b" ++ s ++ "\x7d"

def writeText (s : String) : String :=
  if isPlain s.toList then s else braced (Json.str s).literal

/-- A flag stands for itself when it is set and for nothing when it is not. -/
def writeAttribute (name : String) : Json → String
  | .bool set => if set then name else ""
  | .str s =>
    if s.toList.any isUnsafeInQuotes then name ++ "=" ++ braced (Json.str s).literal
    else name ++ "=\"" ++ s ++ "\""
  | value => name ++ "=" ++ braced value.literal

/-- A style that says nothing is left out. -/
def writeStyle (styles : Json) : String :=
  if styles.isTruthy then "style=" ++ braced styles.literal else ""

end Sitewright.Markup
