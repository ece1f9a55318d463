import Sitewright.Api.Request
import Sitewright.Settings
import Sitewright.Text.Words

/-!
Who sends a request. A bearer token that holds names its sender; where no token is asked for, a
request without one comes from nobody in particular.
-/

namespace Sitewright.Api

inductive Refusal
  | missing
  | otherScheme
  | noToken
  | tokenUnreadable
  | subjectNotText
  | headerBroken
  deriving DecidableEq, Repr

/-- Whether nobody has been named, which is no fault where no token is asked for. -/
def Refusal.isAbsence : Refusal → Bool
  | missing | otherScheme => true
  | noToken | tokenUnreadable | subjectNotText | headerBroken => false

/-- The text without the blanks at its ends and the commas after those that it begins with. -/
def fieldsText (header : String) : List Char :=
  (Text.trimChars header.toList).dropWhile fun c => c = ','

/-- The pieces between commas, but the last one apart, without the blanks after each comma. -/
def pieces (cs : List Char) : List (List Char) :=
  match Text.split ',' cs with
  | [] => []
  | first :: rest => first :: rest.map (·.dropWhile Text.isBlank)

/-- The fields of an authorization, each in words. Nothing between two commas is no field, but
a field of nothing but blanks breaks the header. -/
def fieldsOf (pieces : List (List Char)) : Except Refusal (List (List (List Char))) :=
  let fields := (pieces.filter (!·.isEmpty)).map (Text.words (!Text.isBlank ·))
  if fields.contains [] then .error .headerBroken else .ok fields

def bearerFields (fields : List (List (List Char))) : List (List (List Char)) :=
  fields.filter (·.head? = some "Bearer".toList)

/-- What a request shows where it carries no valid token. A token that is only written down names
nobody. -/
def refusalOf (header : String) : Refusal :=
  let text := fieldsText header
  if text.isEmpty then .missing
  else match fieldsOf (pieces text) with
    | .error refusal => refusal
    | .ok fields =>
      match bearerFields fields with
      | [[_, _]] => .tokenUnreadable
      | [_] => .noToken
      | _ => .otherScheme

/-- Whom a token names that stands after the other authorizations of a request. It must be the only
one. -/
def subjectOf (before : List String) (subject : Json) : Except Refusal String := do
  let text := fieldsText (Text.join ", " (before ++ [""]))
  let fields ← fieldsOf (pieces text).dropLast
  if !(bearerFields fields).isEmpty then throw .otherScheme
  match subject with
  | .str name => return name
  | _ => throw .subjectNotText

def sender (settings : Settings) (request : Request) : Except Refusal (Option String) :=
  match request.token with
  | some subject =>
    match subjectOf (request.values "Authorization") subject with
    | .ok name => .ok (some name)
    | .error refusal => settle refusal
  | none => settle (refusalOf ((request.header? "Authorization").getD ""))
where
  /-- Where no token is asked for, nobody in particular may send a request. -/
  settle (refusal : Refusal) : Except Refusal (Option String) :=
    if refusal.isAbsence && !settings.requireAuth then .ok none else .error refusal

end Sitewright.Api
