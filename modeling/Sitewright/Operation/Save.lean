import Sitewright.Document.Validity
import Sitewright.Store.Audit
import Sitewright.Store.Documents
import Sitewright.Time.Freshness

/-!
Writing the copies of a project from data that a client sends, and deleting a project with all its
copies. What is written is checked first, and is written together with its entry and its note.
-/

namespace Sitewright.Operation

open Time (DateTime)

def isNamed : Json → Bool
  | .obj fields => (Fields.value fields "id").isTruthy && (Fields.value fields "name").isTruthy
  | _ => false

def saveNote (project : Project) (projectId environment : String) (actor : Json) :
    Store.AuditNote where
  action := .save
  projectId := projectId
  actor := actor
  payload := [("environment", .str environment), ("pages", .int project.pages.length)]

def writeCopy (projectId : String) (environment : Environment) (project : Project) :
    Action Unit := do
  Store.save projectId environment.name project
  if environment = .builder then Store.putEntry project

def labelled (environment : Environment) (stamp : String) (metadata : Metadata) : Metadata :=
  { metadata with
    environment := .str environment.name
    updatedAt := .str stamp }

/-- The time of creation is kept when one is given. -/
def withCreation (stamp : String) (metadata : Metadata) : Metadata :=
  { metadata with createdAt := metadata.createdAt.orElse (.str stamp) }

variable [Machine]

def stamped (project : Project) (time : DateTime) (change : String → Metadata → Metadata) :
    Except Error Project := do
  let stamp ← stampOf time
  let project ← project.withMetadata fun metadata => .ok (change stamp metadata)
  let _ ← project.check
  return project

def created (data : Json) (time : DateTime) : Except Error Project :=
  if isNamed data then do
    let project ← Project.ofJson data
    stamped project time fun stamp metadata => labelled .builder stamp (withCreation stamp metadata)
  else .error .unnamedProject

/-- The copy that data make for an environment of a project. Nothing but its environment and its
time of change is altered. -/
def replacement (projectId : String) (environment : Environment) (data : Json) (time : DateTime) :
    Except Error Project :=
  if !isNamed data then .error .unnamedCopy
  else if Fields.value (data.asObject?.getD []) "id" ≠ .str projectId then .error .otherProject
  else do
    let project ← Project.ofJson data
    stamped project time (labelled environment)

def checkUnmodified (projectId environment : String) (known : Option DateTime) : Action Unit := do
  match known with
  | none => return
  | some known =>
    match ← Store.writtenAt projectId environment with
    | none => return
    | some written =>
      Action.ofExcept known.checkZone
      Action.refuseIf (written.isModifiedSince known) .modifiedSince

def noteCopy (projectId : String) (environment : Environment) (known : Option DateTime)
    (project : Project) (note : Store.AuditNote) : Action Unit := do
  checkUnmodified projectId environment.name known
  writeCopy projectId environment project
  Store.note note

def writeNoted (projectId : String) (environment : Environment) (known : Option DateTime)
    (project : Project) (note : Store.AuditNote) : Action Unit :=
  Store.transaction (noteCopy projectId environment known project note)

/-- Makes or replaces the builder copy. -/
def createProject (data actor : Json) (at? : Option DateTime) : Action Project := do
  let time ← currentTime at?
  let project ← Action.ofExcept (created data time)
  writeNoted project.id .builder none project
    (saveNote project project.id Environment.builder.name actor)
  return project

def saveCopy (projectId : String) (environment data actor : Json) (at? known : Option DateTime) :
    Action Project := do
  let environment ← Action.ofExcept (Environment.ofJson environment)
  let time ← currentTime at?
  let project ← Action.ofExcept (replacement projectId environment data time)
  writeNoted projectId environment known project
    (saveNote project projectId environment.name actor)
  return project

def noteDeletion (projectId : String) (actor : Json) : Action Unit := do
  Store.delete projectId
  Store.note { action := .delete, projectId, actor }

def deleteProject (projectId : String) (actor : Json) : Action Unit :=
  Store.transaction (noteDeletion projectId actor)

end Sitewright.Operation
