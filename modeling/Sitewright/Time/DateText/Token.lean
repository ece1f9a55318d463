import Sitewright.Text.Digit
import Sitewright.Text.Letter
import Sitewright.Text.Words

/-!
The tokens of a date: words, numerals with a point in them or without one, and single characters. A
blank is a token too.
-/

namespace Sitewright.Time.DateText

/-- What a token has been so far: letters or digits, without a point or with one. -/
inductive Kind
  | word
  | number
  | dottedWord
  | dottedNumber
  deriving DecidableEq, Repr

def Kind.next (token : List Char) (c : Char) : Kind → Option Kind
  | word => if Text.isLetter c then some word else if c = '.' then some dottedWord else none
  | number =>
    if Text.isDigit c then some number
    else if c = '.' || (c = ',' && 2 ≤ token.length) then some dottedNumber
    else none
  | dottedWord =>
    if c = '.' || Text.isLetter c then some dottedWord
    else if Text.isDigit c && token.head? = some '.' then some dottedNumber
    else none
  | dottedNumber =>
    if c = '.' || Text.isDigit c then some dottedNumber
    else if Text.isLetter c && token.head? = some '.' then some dottedWord
    else none

/-- The rest of a token whose characters so far are given last one first, its kind, whether it holds
letters, and what follows it. -/
def scan : Kind → Bool → List Char → List Char → List Char × Kind × Bool × List Char
  | kind, letters, token, [] => (token.reverse, kind, letters, [])
  | kind, letters, token, c :: rest =>
    let letters := letters || kind = .word || kind = .dottedWord
    match kind.next token c with
    | some kind => scan kind letters (c :: token) rest
    | none => (token.reverse, kind, letters, c :: rest)

def isMark (c : Char) : Bool := c = '.' || c = ','

def cutAtMarks : List Char → List (List Char)
  | [] => [[]]
  | c :: rest =>
    match cutAtMarks rest with
    | [] => [[c]]
    | piece :: pieces => if isMark c then [] :: [c] :: piece :: pieces else (c :: piece) :: pieces

/-- The tokens of a scanned one: points that do not make a decimal end it. -/
def settle (token : List Char) (kind : Kind) (letters : Bool) : List (List Char) :=
  if (kind = .dottedWord || kind = .dottedNumber) &&
      (letters || 1 < token.count '.' || token.getLast?.any isMark) then
    (cutAtMarks token).filter (!·.isEmpty)
  else if kind = .dottedNumber && !token.contains '.' then
    [token.map fun c => if c = ',' then '.' else c]
  else [token]

def tokensWithin : Nat → List Char → List (List Char)
  | 0, _ | _, [] => []
  | fuel + 1, c :: rest =>
    if Text.isLetter c || Text.isDigit c then
      let (token, kind, letters, rest) :=
        scan (if Text.isLetter c then .word else .number) false [c] rest
      settle token kind letters ++ tokensWithin fuel rest
    else [if Text.isBlank c then ' ' else c] :: tokensWithin fuel rest

def tokens (s : String) : List String :=
  let cs := s.toList.filter (· ≠ '\x00')
  (tokensWithin cs.length cs).map String.ofList

end Sitewright.Time.DateText
