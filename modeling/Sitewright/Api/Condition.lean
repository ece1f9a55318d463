import Sitewright.Api.Request
import Sitewright.Text.Integer
import Sitewright.Time.MailDate

/-!
Conditions under which a client wants a document, and the parts of a document that it asks for.
Conditions name the document by a tag or by the time at which it was last changed.
-/

namespace Sitewright.Api

namespace Tags

def afterComma? (cs : List Char) : Option (List Char) :=
  if cs.isEmpty then some []
  else match cs.dropWhile Text.isBlank with
    | ',' :: rest => some (rest.dropWhile Text.isBlank)
    | _ => none

def afterQuoted? : List Char → Option (List Char)
  | [] => none
  | c :: rest =>
    match if c = '"' then afterComma? rest else none with
    | some after => some after
    | none => afterQuoted? rest

def plainTag : List Char → List Char × List Char
  | [] => ([], [])
  | c :: rest =>
    match afterComma? (c :: rest) with
    | some after => ([], after)
    | none => (c :: (plainTag rest).1, (plainTag rest).2)

def withoutWeakness : List Char → List Char
  | 'W' :: '/' :: rest | 'w' :: '/' :: rest => rest
  | cs => cs

def hasStarWithin : Nat → List Char → Bool
  | 0, _ | _, [] => false
  | count + 1, cs =>
    let cs := withoutWeakness cs
    match if cs.head? = some '"' then afterQuoted? cs.tail else none with
    | some after => hasStarWithin count after
    | none => (plainTag cs).1 = ['*'] || hasStarWithin count (plainTag cs).2

/-- No other tag is compared: that of the document is made anew with every change, and no answer
shows it. -/
def hasStar (s : String) : Bool := hasStarWithin s.length s.toList

def unquoted (s : String) : String :=
  let cs := withoutWeakness (Text.trimChars s.toList)
  String.ofList (if cs.head? = some '"' && cs.getLast? = some '"' then cs.tail.dropLast else cs)

end Tags

namespace Range

def number? (cs : List Char) : Option Int :=
  let plain (cs : List Char) : Option Int :=
    if !cs.isEmpty && cs.length ≤ Text.maxNumeralLength && cs.all Char.isDigit then
      (Text.natOfChars? cs).map fun n => (n : Int)
    else none
  match Text.trimChars cs with
  | '-' :: rest => (plain rest).map (- ·)
  | cs => plain cs

/-- The parts of a list, each with the first byte and the byte after the last, if that is given. A
negative first byte counts from the end. Parts must not overlap, and none follows an open one. -/
def parts? : Option Int → List (List Char) → Option (List (Int × Option Int))
  | _, [] => some []
  | last, item :: rest => do
    let last ← last
    let item := Text.trimChars item
    if item.head? = some '-' then
      let first ← number? item
      return (first, none) :: (← parts? none rest)
    let (first, stop) ← Text.cut? '-' item
    let first ← number? first
    if first < last then none
    if (Text.trimChars stop).isEmpty then return (first, none) :: (← parts? none rest)
    let stop := (← number? stop) + 1
    if stop ≤ first then none
    return (first, some stop) :: (← parts? (some stop) rest)

def isWithin (size : Int) (header : String) : Bool :=
  match Text.cut? '=' header.toList with
  | none => false
  | some (unit, list) =>
    match parts? (some 0) (Text.split ',' list) with
    | some [(first, stop)] =>
      let first := if stop.isNone && first < 0 then first + size else first
      Text.lower (Text.trim (String.ofList unit)) = "bytes" && 0 ≤ first && first < size
    | _ => false

end Range

/-- What a part of a document is wanted for only. -/
inductive PartCondition
  | unchangedSince (time : Time.DateTime)
  | tagged (tag : String)

namespace Request

def partCondition (request : Request) : Except Error (Option PartCondition) := do
  let text := (request.header? "If-Range").getD ""
  if text = "" || (request.header? "Range").isNone then return none
  match ← Time.MailDate.read text with
  | some time => return some (.unchangedSince time)
  | none => return some (.tagged (Tags.unquoted text))

/-- Whether a document that was changed last at the given time is what the client knows of. A list
of tags to be met is not met. -/
def knows (request : Request) (modified : Time.DateTime) (part : Option PartCondition) :
    Except Error Bool := do
  let since ← match part with
    | some (.unchangedSince time) => pure (some time)
    | _ => Time.MailDate.read ((request.header? "If-Modified-Since").getD "")
  match part with
  | some (.tagged tag) => return Tags.hasStar tag
  | _ =>
    if (request.header? "If-Match").getD "" ≠ "" then return true
    match (request.header? "If-None-Match").getD "" with
    | "" => return since.any fun time => modified.instant ≤ time.instant
    | tags => return Tags.hasStar tags

end Request

inductive Delivery
  | whole
  | part
  | unchanged
  | conditionFailed
  | noSuchPart
  deriving DecidableEq, Repr

/-- A part is given where it is asked for and the condition for it holds; the other conditions are
for the whole document. -/
def deliver (request : Request) (size : Int) (modified : Time.DateTime) :
    Except Error Delivery := do
  let mayDivide ←
    if (request.header? "If-Range").isNone then pure true
    else request.knows modified (← request.partCondition)
  match (if mayDivide then request.header? "Range" else none) with
  | some range => return if Range.isWithin size range then .part else .noSuchPart
  | none =>
    if !(← request.knows modified none) then return .whole
    return if (request.header? "If-Match").getD "" = "" then .unchanged else .conditionFailed

end Sitewright.Api
