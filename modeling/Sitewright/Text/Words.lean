import Sitewright.Text.Ranges

/-!
Blank characters, texts with the blanks at their ends taken off, and the words of a text, which are
its longest runs of characters of one class.
-/

namespace Sitewright.Text

/-- The ASCII blanks, the four information separators and the spaces of the other scripts. The zero
width characters are not blank. -/
def blankRanges : List (Nat × Nat) :=
  [(0x9, 0xD), (0x1C, 0x20), (0x85, 0x85), (0xA0, 0xA0), (0x1680, 0x1680), (0x2000, 0x200A),
   (0x2028, 0x2029), (0x202F, 0x202F), (0x205F, 0x205F), (0x3000, 0x3000)]

def isBlank (c : Char) : Bool := inRanges blankRanges c

def dropWhileEnd (p : Char → Bool) (cs : List Char) : List Char :=
  (cs.reverse.dropWhile p).reverse

def trimChars (cs : List Char) : List Char := dropWhileEnd isBlank (cs.dropWhile isBlank)

def trim (s : String) : String := String.ofList (trimChars s.toList)

def isAllBlank (s : String) : Bool := s.toList.all isBlank

/-- The run at the beginning, which may be empty, and the runs after it. -/
def runs (p : Char → Bool) : List Char → List Char × List (List Char)
  | [] => ([], [])
  | c :: rest =>
    let (first, others) := runs p rest
    if p c then (c :: first, others)
    else ([], if first.isEmpty then others else first :: others)

def words (p : Char → Bool) (cs : List Char) : List (List Char) :=
  match runs p cs with
  | ([], others) => others
  | (first, others) => first :: others

end Sitewright.Text
