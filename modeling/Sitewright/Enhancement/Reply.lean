import Sitewright.Error
import Sitewright.Json.Reader
import Sitewright.Text.Utf8

/-!
What an enhancement transform answers with: a value, a text, or bytes. Texts may carry code fences,
which are taken out before they are read as JSON.
-/

namespace Sitewright.Enhancement

inductive Reply
  | value (data : Json)
  | bytes (content : List UInt8)
  deriving Repr

/-- The long s is an s of either case. -/
def isSameLetter (lower c : Char) : Bool :=
  c = lower || c.toLower = lower || (lower = 's' && c = '\u017F')

def dropLanguage : List Char → List Char
  | a :: b :: c :: d :: rest =>
    if isSameLetter 'j' a && isSameLetter 's' b && isSameLetter 'o' c && isSameLetter 'n' d
    then rest
    else a :: b :: c :: d :: rest
  | cs => cs

theorem length_dropLanguage_le (cs : List Char) : (dropLanguage cs).length ≤ cs.length := by
  unfold dropLanguage
  split
  · split
    · simp only [List.length_cons]
      omega
    · simp
  · simp

/-- The text without its fences, wherever they stand, and without the blanks after each. -/
def dropFences : List Char → List Char
  | [] => []
  | c :: rest =>
    match c, rest with
    | '\x60', '\x60' :: '\x60' :: after => dropFences ((dropLanguage after).dropWhile Text.isBlank)
    | c, rest => c :: dropFences rest
termination_by cs => cs.length
decreasing_by
  · have h := List.dropWhile_sublist Text.isBlank (l := dropLanguage after) |>.length_le
    have := length_dropLanguage_le after
    simp only [List.length_cons]
    omega
  · simp

def textValue [Machine] (s : String) : Except Json.Fault Json :=
  Json.read (String.ofList (Text.trimChars (dropFences s.toList)))

namespace Reply

/-- The value of a reply; a text stands for the JSON in it. -/
def toValue [Machine] : Reply → Except Error Json
  | .value (.str s) => ofText s
  | .value data => .ok data
  | .bytes content => ofText (Text.Utf8.decode content)
where
  ofText (s : String) : Except Error Json :=
    match textValue s with
    | .ok data => .ok data
    | .error .malformed => .error .replyNotJson
    | .error .overlong => .error .replyOverlong
    | .error .nested => .error .textNested
    | .error .torn => .error .textTorn

def toProject [Machine] (reply : Reply) : Except Error (Fields Json) := do
  match ← reply.toValue with
  | .obj fields =>
    if (Fields.value fields "id").isTruthy && (Fields.value fields "pages").asArray?.isSome then
      return fields
    else .error .replyNotProject
  | _ => .error .replyNotProject

end Reply

end Sitewright.Enhancement
