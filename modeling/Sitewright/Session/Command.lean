import Sitewright.Operation.Call

/-!
Commands for a store: the operations on projects, direct access to the store, and transactions
around other commands. Some commands put the store out of order, to show what happens then.
-/

namespace Sitewright.Session

open Time (DateTime Instant)

inductive Prior
  | data (project : Json)
  | stored (projectId environment : String)

def Prior.load [Machine] : Prior → Action Project
  | .data project => Action.ofExcept (Project.ofJson project)
  | .stored projectId environment => Store.load projectId environment

inductive Tampering
  | update
  | delete

inductive Command
  | operation (call : Operation.Call)
  | enhance (prior : Prior) (instruction : Json) (transform : Operation.Transform) (saves : Bool)
      (environment actor : Json) (at? : Option DateTime)
  | load (projectId environment : String)
  | contains (projectId environment : String)
  | writtenAt (projectId environment : String)
  | save (projectId environment : String) (data : Json)
  | putEntry (data : Json)
  | delete (projectId : String)
  | document (projectId environment : String)
  | replaceDocument (projectId environment : String) (document : Json)
  | audit (limit : Int) (cursor : Option String)
  | tamper (how : Tampering)
  /-- Saving to an environment fails from now on, or no longer fails. -/
  | fill (environment : Option String)
  | dropTables
  | timed (clock : Instant) (command : Command)
  /-- Commands in one transaction, which fails at its end if `aborts` is set. -/
  | transaction (commands : List Command) (aborts : Bool)

/-- Rows of the audit trail can be neither changed nor deleted. -/
def refuseTampering (_ : Tampering) : Action Unit := do
  Store.access
  if (← get).store.tables.audit ≠ [] then throw .auditImmutable

def enhanced [Machine] (prior : Prior) (instruction : Json) (transform : Operation.Transform)
    (saves : Bool) (environment actor : Json) (at? : Option DateTime) : Action Json := do
  let project ← prior.load
  modify fun world => { world with asked := [] }
  let project ← Operation.enhance project instruction transform saves environment actor at?
  return .obj [("project", project.toJson),
    ("calls", .arr ((← get).asked.map .str))]

namespace Command

mutual

def perform [Machine] : Command → Action Json
  | .operation op => op.perform
  | .enhance prior instruction transform saves environment actor at? =>
    enhanced prior instruction transform saves environment actor at?
  | .load projectId environment => Project.toJson <$> Store.load projectId environment
  | .contains projectId environment => Json.bool <$> Store.contains projectId environment
  | .writtenAt projectId environment => do
    let written ← Store.writtenAt projectId environment
    return (written.map fun t => Json.str t.iso).getD .null
  | .save projectId environment data => do
    Store.save projectId environment (← Action.ofExcept (Project.ofJson data))
    return .null
  | .putEntry data => do
    Store.putEntry (← Action.ofExcept (Project.ofJson data))
    return .null
  | .delete projectId => do
    Store.delete projectId
    return .null
  | .document projectId environment => do
    return ((← Store.copy? projectId environment).map Store.Copy.document).getD .null
  | .replaceDocument projectId environment new => do
    Store.replaceDocument projectId environment new
    return .null
  | .audit limit cursor => Json.obj <$> Store.auditPage {} cursor limit
  | .tamper how => do
    refuseTampering how
    return .null
  | .fill environment => do
    Action.changeStore fun store => { store with full := environment }
    return .null
  | .dropTables => do
    Action.changeStore fun store => { store with lost := true }
    return .null
  | .timed clock command => do
    modify fun world => { world with clock }
    perform command
  | .transaction commands aborts =>
    Json.arr <$> Store.transaction do
      let answers ← performAll commands
      if aborts then throw .blockAborted
      return answers

/-- The answers of commands one after the other; the first failure ends them. -/
def performAll [Machine] : List Command → Action (List Json)
  | [] => return []
  | command :: rest => do
    let answer ← perform command
    return answer :: (← performAll rest)

end

end Command

def run [Machine] : List Command → World → List (Except Error Json)
  | [], _ => []
  | command :: rest, world =>
    let (answer, world) := command.perform.perform world
    answer :: run rest world

end Sitewright.Session
