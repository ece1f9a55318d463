import Sitewright.Document.Repair
import Sitewright.Enhancement.Reply
import Sitewright.Operation.Save

/-!
Enhancing a project by a transform. The answer is read, its identifiers are put in
order, and what the transform must not touch is kept from the project before; only then is anything
written.
-/

namespace Sitewright.Operation

open Time (DateTime)

abbrev Transform := Json → String → Except Error Enhancement.Reply

def asTransformFault (error : Error) : Error :=
  if error.kind.isSome then error else .transformFailed

/-- What the transform answers; that it was asked is remembered. -/
def ask (transform : Transform) (project : Project) (instruction : String) :
    Action Enhancement.Reply := do
  modify fun world => { world with asked := world.asked ++ [instruction] }
  Action.ofExcept ((transform project.toJson instruction).mapError asTransformFault)

def instructionOf : Json → Except Error String
  | .str s => if Text.isAllBlank s then .error .promptRequired else .ok s
  | _ => .error .promptRequired

def environmentOf : Json → Except Error (Option Environment)
  | .null => .ok none
  | value => some <$> Environment.ofJson value

def asReplyFault (error : Error) : Error :=
  if error.kind = some .validation then .replyMalformed error else error

variable [Machine]

def answered (prior : Project) (reply : Enhancement.Reply) : Except Error Project := do
  let fields ← reply.toProject
  if Fields.value fields "id" ≠ .str prior.id then .error .replyForOther
  (Project.ofJson (.obj fields)).mapError asReplyFault

def withRecords (prior metadata : Metadata) : Metadata :=
  { metadata with
    createdAt := prior.createdAt
    lastDeployment := prior.lastDeployment
    history := prior.history }

def completed (prior repaired : Project) : Except Error Project := do
  let project ← repaired.withMetadata fun metadata => .ok (withRecords prior.metadata metadata)
  let _ ← project.check
  return project

def enhanceNote (project : Project) (environment : Environment) (instruction : String)
    (actor : Json) : Store.AuditNote where
  action := .enhance
  projectId := project.id
  actor := actor
  payload := [("environment", .str environment.name),
    ("instruction", .str (String.ofList (instruction.toList.take 200)))]

def rewritten (prior : Project) (instruction : String) (transform : Transform) :
    Action Project := do
  let reply ← ask transform prior instruction
  let millis := (← get).millis
  let repaired ← Action.ofExcept ((answered prior reply).bind (prior.repair · millis))
  let project ← Action.draw repaired
  Action.ofExcept (completed prior project)

def saveRewritten (project : Project) (environment : Environment) (instruction : String)
    (actor : Json) (at? : Option DateTime) : Action Project := do
  let stamp ← Action.ofExcept (stampOf (← currentTime at?))
  let project ← Action.ofExcept
    (project.withMetadata fun metadata => .ok (labelled environment stamp metadata))
  writeNoted project.id environment none project
    (enhanceNote project environment instruction actor)
  return project

/-- The project enhanced, and saved to an environment if one is given and `saves` is set. -/
def enhance (prior : Project) (instruction : Json) (transform : Transform) (saves : Bool)
    (environment actor : Json) (at? : Option DateTime) : Action Project := do
  let instruction ← Action.ofExcept (instructionOf instruction)
  let environment ← Action.ofExcept (environmentOf environment)
  let project ← rewritten prior instruction transform
  match saves, environment with
  | true, some environment => saveRewritten project environment instruction actor at?
  | _, _ => return project

end Sitewright.Operation
