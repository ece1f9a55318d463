import Sitewright.Json.Display

/-!
JSON text: on one line, or indented by two places a level. Strings escape quotes, backslashes and
controls, and on request everything outside printable ASCII.
-/

namespace Sitewright.Json

def unitEscape (n : Nat) : List Char := '\\' :: 'u' :: Text.hexDigits 4 n

def codePointEscape (n : Nat) : List Char :=
  if n < 0x10000 then unitEscape n
  else unitEscape (0xD800 + (n - 0x10000) / 0x400) ++ unitEscape (0xDC00 + (n - 0x10000) % 0x400)

def escapeChar (ascii : Bool) (c : Char) : List Char :=
  if c = '"' then ['\\', '"']
  else if c = '\\' then ['\\', '\\']
  else if c = '\n' then ['\\', 'n']
  else if c = '\r' then ['\\', 'r']
  else if c = '\t' then ['\\', 't']
  else if c = '\x08' then ['\\', 'b']
  else if c = '\x0c' then ['\\', 'f']
  else if c.toNat < 0x20 || (ascii && 0x7E < c.toNat) then codePointEscape c.toNat
  else [c]

def stringText (ascii : Bool) (s : String) : String :=
  String.ofList ('"' :: s.toList.flatMap (escapeChar ascii) ++ ['"'])

def floatText : Binary64 → String
  | .nan => "NaN"
  | .infinite negative => if negative then "-Infinity" else "Infinity"
  | x => x.display

mutual

def compact (ascii : Bool) : Json → String
  | .null => "null"
  | .bool b => if b then "true" else "false"
  | .int n => toString n
  | .float x => floatText x
  | .str s => stringText ascii s
  | .arr items => "[" ++ compactItems ascii items ++ "]"
  | .obj fields => "\x7b" ++ compactFields ascii fields ++ "\x7d"

def compactItems (ascii : Bool) : List Json → String
  | [] => ""
  | [item] => compact ascii item
  | item :: rest => compact ascii item ++ ", " ++ compactItems ascii rest

def compactFields (ascii : Bool) : List (String × Json) → String
  | [] => ""
  | [(key, value)] => stringText ascii key ++ ": " ++ compact ascii value
  | (key, value) :: rest =>
    stringText ascii key ++ ": " ++ compact ascii value ++ ", " ++ compactFields ascii rest

end

def newline (level : Nat) : String := String.ofList ('\n' :: List.replicate (2 * level) ' ')

mutual

/-- The value over several lines, its own first line at the given level. -/
def indented (ascii : Bool) (level : Nat) : Json → String
  | .arr [] => "[]"
  | .arr items =>
    "[" ++ newline (level + 1) ++ indentedItems ascii (level + 1) items ++ newline level ++ "]"
  | .obj [] => "\x7b\x7d"
  | .obj fields =>
    "\x7b" ++ newline (level + 1) ++ indentedFields ascii (level + 1) fields ++ newline level ++
      "\x7d"
  | .null => "null"
  | .bool b => if b then "true" else "false"
  | .int n => toString n
  | .float x => floatText x
  | .str s => stringText ascii s

def indentedItems (ascii : Bool) (level : Nat) : List Json → String
  | [] => ""
  | [item] => indented ascii level item
  | item :: rest =>
    indented ascii level item ++ "," ++ newline level ++ indentedItems ascii level rest

def indentedFields (ascii : Bool) (level : Nat) : List (String × Json) → String
  | [] => ""
  | [(key, value)] => stringText ascii key ++ ": " ++ indented ascii level value
  | (key, value) :: rest =>
    stringText ascii key ++ ": " ++ indented ascii level value ++ "," ++ newline level ++
      indentedFields ascii level rest

end

/-- One line, with every character but quotes, backslashes and controls as it is. -/
def literal (value : Json) : String := value.compact false

end Sitewright.Json
