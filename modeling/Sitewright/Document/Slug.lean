import Sitewright.Error
import Sitewright.Text.Split

/-!
Slugs, the addresses of pages: a slash alone, or segments each led by a slash. A segment cannot
climb out of the directory that the pages are written to.
-/

namespace Sitewright.Slug

def home : String := "/"

def isSegmentChar (c : Char) : Bool :=
  ('A' ≤ c && c ≤ 'Z') || ('a' ≤ c && c ≤ 'z') || ('0' ≤ c && c ≤ '9') ||
    c = '.' || c = '_' || c = '~' || c = '-'

/-- One line break may stand at the end of a segment. -/
def withoutLastBreak (cs : List Char) : List Char :=
  match cs.reverse with
  | '\n' :: rest => rest.reverse
  | _ => cs

def isSegment (cs : List Char) : Bool :=
  let name := withoutLastBreak cs
  cs ≠ ['.'] && cs ≠ ['.', '.'] && !name.isEmpty && name.all isSegmentChar

def isValid (slug : String) : Bool :=
  slug = home ||
    match slug.toList with
    | '/' :: rest => (Text.split '/' rest).all isSegment
    | _ => false

def check : Json → Except Error Unit
  | .str slug => if isValid slug then .ok () else .error (.slugInvalid (.str slug))
  | value => .error (.slugInvalid value)

end Sitewright.Slug
