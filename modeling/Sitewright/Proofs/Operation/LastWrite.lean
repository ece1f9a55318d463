import Sitewright.Proofs.Operation.Outcome
import Sitewright.Proofs.Store.Loading

/-!
The last write of every copy. A ledger is kept along a run of calls, of what was last written to
each environment of each project since the project was deleted. What is loaded is what the ledger
says, unless a database has kept a document that is alike to the one it was given.
-/

namespace Sitewright.Operation

open Store (Tables Unchanged kept)
open Time (DateTime Instant)

/-! What a call writes -/

def answer? {α : Type} (action : Action α) (world : World) : Option α :=
  (action.perform world).1.toOption

theorem answer?_eq_some {α : Type} {action : Action α} {world : World} {a : α} :
    answer? action world = some a ↔ ∃ after, action.perform world = (.ok a, after) := by
  rw [answer?]
  rcases action.perform world with ⟨error | _, after⟩ <;> simp [Except.toOption]

namespace Call

/-- The project that a call writes to an environment of a project, if it succeeds and does so. A
deployment writes to two environments, and starts from what is loaded from the builder. -/
def written? [Machine] (world : World) (projectId : String) (environment : Environment) :
    Call → Option Project
  | .create data actor at? =>
    (answer? (createProject data actor at?) world).filter fun project =>
      project.id = projectId ∧ environment = .builder
  | .save id label data actor at? known =>
    (answer? (saveCopy id label data actor at? known) world).filter fun _ =>
      id = projectId ∧ label = .str environment.name
  | .enhance prior instruction transform saves label actor at? =>
    (answer? (Operation.enhance prior instruction transform saves label actor at?) world).filter
      fun _ => prior.id = projectId ∧ saves = true ∧ label = .str environment.name
  | .promote id target message actor at? limit => do
    let deployment ← answer? (Operation.promote id target message actor at? limit) world
    let builder ← answer? (Store.load id Environment.builder.name) world
    if id = projectId ∧
        (environment = .builder ∨ environment = deployment.record.target.environment) then
      some (promoted builder deployment.record limit environment)
    else none
  | _ => none

def deletes (world : World) (projectId : String) : Call → Bool
  | .delete id actor => id = projectId && (answer? (deleteProject id actor) world).isSome
  | _ => false

end Call

def nextDocument (backing : Store.Backing) (old? : Option Json) (written? : Option Project)
    (deleted : Bool) : Option Json :=
  match written? with
  | some project => some (kept backing old? project.toJson)
  | none => if deleted then none else old?

variable {world after : World} {projectId : String} {environment : Environment}

@[simp] theorem name_eq_name_iff {place : Environment} :
    place.name = environment.name ↔ environment = place :=
  ⟨fun same => (Environment.name_injective same).symm, fun same => congrArg _ same.symm⟩

theorem document?_of_writtenCopy {mid : World} {place : Environment} {project : Project}
    (same : mid.store = world.store)
    (matching : after.store.tables.Match (writtenCopy mid place project)) :
    after.store.tables.document? projectId environment.name =
      if project.id = projectId ∧ environment = place then
        some (kept world.store.backing
          (world.store.tables.document? projectId environment.name) project.toJson)
      else world.store.tables.document? projectId environment.name := by
  rw [matching.document?_eq, document?_writtenCopy, same]
  simp only [name_eq_name_iff]

theorem document?_of_unchanged {tables : Tables} (same : tables = world.store.tables) :
    tables.document? projectId environment.name =
      nextDocument world.store.backing (world.store.tables.document? projectId environment.name)
        none false := by
  rw [same]
  rfl

theorem document?_of_answer {action : Action Project} {goes : Project → Bool}
    (settled : world.store.Settled) (atomic : Store.Atomic action)
    (writes : ∀ project after, action.perform world = (.ok project, after) →
      after.store.tables.document? projectId environment.name =
        if goes project then
          some (kept world.store.backing
            (world.store.tables.document? projectId environment.name) project.toJson)
        else world.store.tables.document? projectId environment.name) :
    (action.perform world).2.store.tables.document? projectId environment.name =
      nextDocument world.store.backing (world.store.tables.document? projectId environment.name)
        ((answer? action world).filter goes) false := by
  have failed := (atomic world settled).2
  rw [answer?]
  rcases performed : action.perform world with ⟨error | project, after⟩
  · rw [performed] at failed
    exact document?_of_unchanged (failed error rfl)
  · rw [writes project after performed, Except.toOption]
    rcases there : goes project with _ | _
    · rw [Option.filter_some_neg there]
      rfl
    · rw [Option.filter_some_pos there]
      rfl

theorem document?_of_writtenDeployment {mid : World} {builder : Project}
    {record : DeploymentRecord} {limit : Int} (same : mid.store = world.store)
    (matching : after.store.tables.Match (writtenDeployment mid record.target
      (promoted builder record limit record.target.environment)
      (promoted builder record limit .builder))) :
    after.store.tables.document? projectId environment.name =
      if builder.id = projectId ∧
          (environment = .builder ∨ environment = record.target.environment) then
        some (kept world.store.backing
          (world.store.tables.document? projectId environment.name)
          (promoted builder record limit environment).toJson)
      else world.store.tables.document? projectId environment.name := by
  have one : (promoted builder record limit .builder).id =
      (promoted builder record limit record.target.environment).id := rfl
  have id : (promoted builder record limit record.target.environment).id = builder.id := rfl
  rw [matching.document?_eq, document?_writtenDeployment _ one, same, id]
  simp only [Target.name, name_eq_name_iff]
  by_cases here : builder.id = projectId
  · by_cases current : environment = .builder
    · simp only [here, current, true_and, if_true, true_or]
    · by_cases goal : environment = record.target.environment
      · subst goal
        simp only [here, current, true_and, if_true, or_true, if_false]
      · simp only [here, current, goal, and_false, if_false, or_false]
  · simp only [here, false_and, if_false]

theorem document?_of_promote [Machine] {id : String} {target message actor : Json}
    {at? : Option DateTime} {limit : Int} (settled : world.store.Settled)
    (filed : ∀ builder, answer? (Store.load id Environment.builder.name) world = some builder →
      builder.id = id) :
    ((promote id target message actor at? limit).perform world).2.store.tables.document? projectId
        environment.name =
      nextDocument world.store.backing (world.store.tables.document? projectId environment.name)
        ((Call.promote id target message actor at? limit).written? world projectId environment)
        false := by
  have failed := (atomic_promote id target message actor at? limit world settled).2
  rw [Call.written?, answer?]
  rcases performed : (promote id target message actor at? limit).perform world with
    ⟨error | deployment, after⟩
  · rw [performed] at failed
    exact document?_of_unchanged (failed error rfl)
  · obtain ⟨builder, looked, random, -, -, loaded, -, written⟩ := perform_promote_eq_ok performed
    have found : answer? (Store.load id Environment.builder.name) world = some builder := by
      rw [answer?, loaded]
      rfl
    -- Both copies are written under the identifier of the builder copy, not under the one asked for.
    obtain rfl := filed builder found
    have same : looked.store = world.store := by
      have unchanged := Store.unchanged_load builder.id Environment.builder.name world settled
      rwa [loaded] at unchanged
    have matching := @match_writeDeployment { looked with random } after deployment.record.target
      (promoted builder deployment.record limit deployment.record.target.environment)
      (promoted builder deployment.record limit .builder) _ (same ▸ settled) rfl written
    rw [document?_of_writtenDeployment same matching, found]
    simp only [Except.toOption, Option.bind_eq_bind, Option.bind_some]
    split <;> rfl

theorem document?_of_enhance [Machine] {prior : Project} {instruction : Json}
    {transform : Transform}
    {saves : Bool} {label actor : Json} {at? : Option DateTime} (settled : world.store.Settled) :
    ((enhance prior instruction transform saves label actor at?).perform
        world).2.store.tables.document? projectId environment.name =
      nextDocument world.store.backing (world.store.tables.document? projectId environment.name)
        ((Call.enhance prior instruction transform saves label actor at?).written? world projectId
          environment) false := by
  refine document?_of_answer settled (atomic_enhance _ _ _ _ _ _ _) fun project after h => ?_
  obtain ⟨text, made, mid, -, rewriting, saved⟩ := perform_enhance_eq_ok h
  have id := id_of_rewritten rewriting
  obtain ⟨-, -, -, -, -, -, random, asked, rfl⟩ := perform_rewritten_eq_ok rewriting
  obtain ⟨idle, -, rfl⟩ | ⟨place, saving, named, writing⟩ := saved
  · rw [if_neg]
    intro there
    obtain ⟨-, saving, rfl⟩ := of_decide_eq_true there
    -- Nothing is saved, so the label is null, and that is the name of no environment.
    exact idle ⟨saving, nofun⟩
  · obtain ⟨stamp, note, -, rfl, written⟩ := perform_saveRewritten_eq_ok writing
    obtain rfl := environmentOf_eq_some.mp named
    have matching := @match_writeNoted { world with random, asked } _ _ _ _ _ settled written
    rw [@document?_of_writtenCopy world _ _ _ { world with random, asked } _ _ rfl matching]
    simp only [decide_eq_true_eq, Json.str.injEq, name_eq_name_iff, id, saving, true_and]

theorem document?_of_delete {id : String} {actor : Json} (settled : world.store.Settled) :
    ((deleteProject id actor).perform world).2.store.tables.document? projectId environment.name =
      nextDocument world.store.backing (world.store.tables.document? projectId environment.name)
        none ((Call.delete id actor).deletes world projectId) := by
  have failed := (atomic_deleteProject id actor world settled).2
  rw [Call.deletes, answer?]
  rcases performed : (deleteProject id actor).perform world with ⟨error | _, after⟩
  · rw [performed] at failed
    simp only [Except.toOption, Option.isSome_none, Bool.and_false]
    exact document?_of_unchanged (failed error rfl)
  · obtain ⟨-, matching⟩ := match_deleteProject settled performed
    simp only [Except.toOption, Option.isSome_some, Bool.and_true]
    rw [matching.document?_eq, Tables.document?, Tables.copy?_without]
    by_cases here : projectId = id
    · simp only [here, if_true, Option.map_none, nextDocument, decide_true]
    · simp only [here, Ne.symm here, if_false, nextDocument, decide_false, Bool.false_eq_true]
      rfl

/-- One call: the document of a copy is the one that it writes or the one before, if it does not
delete it. -/
theorem document?_perform [Machine] (call : Call) (settled : world.store.Settled)
    (filed : ∀ id builder, answer? (Store.load id Environment.builder.name) world = some builder →
      builder.id = id) :
    (call.perform.perform world).2.store.tables.document? projectId environment.name =
      nextDocument world.store.backing (world.store.tables.document? projectId environment.name)
        (call.written? world projectId environment) (call.deletes world projectId) := by
  have looked {α : Type} {action : Action α} (unchanged : Action.Within Unchanged action) :
      (action.perform world).2.store.tables.document? projectId environment.name =
        nextDocument world.store.backing
          (world.store.tables.document? projectId environment.name) none false :=
    document?_of_unchanged (congrArg Store.tables (unchanged world settled))
  cases call with
  | create data actor at? =>
    rw [Call.perform, Action.perform_map]
    refine document?_of_answer settled (atomic_createProject data actor at?)
      fun project after h => ?_
    obtain ⟨-, matching⟩ := match_createProject settled h
    rw [document?_of_writtenCopy rfl matching]
    simp only [decide_eq_true_eq]
  | save id label data actor at? known =>
    rw [Call.perform, Action.perform_map]
    refine document?_of_answer settled (atomic_saveCopy _ _ _ _ _ _) fun project after h => ?_
    obtain ⟨place, named, stored, matching⟩ := match_saveCopy settled h
    obtain rfl := Environment.ofJson_eq_ok.mp named
    obtain rfl := stored.id
    rw [document?_of_writtenCopy rfl matching]
    simp only [decide_eq_true_eq, Json.str.injEq, name_eq_name_iff]
  | enhance prior instruction transform saves label actor at? =>
    rw [Call.perform, Action.perform_map]
    exact document?_of_enhance settled
  | promote id target message actor at? limit =>
    rw [Call.perform, bind_pure_comp, Action.perform_map]
    exact document?_of_promote settled (filed id)
  | delete id actor =>
    rw [Call.perform, bind_pure_comp, Action.perform_map]
    exact document?_of_delete settled
  | get id => exact looked ((unchanged_getProject id).map _)
  | load id label => exact looked ((unchanged_loadCopy id label).map _)
  | deployments id => exact looked ((unchanged_deployments id).map _)
  | list => exact looked (Store.unchanged_catalogue.bind fun _ => Action.within_pure _)

/-! The ledger -/

/-- A call that has written a copy: the world it was made in, and the project it wrote. -/
structure Write where
  before : World
  call : Call
  project : Project

/-- What was last written to each environment of each project. -/
abbrev Ledger := String → Environment → Option Write

def Ledger.entered [Machine] (ledger : Ledger) (world : World) (call : Call) : Ledger :=
  fun projectId environment =>
    match call.written? world projectId environment with
    | some project => some ⟨world, call, project⟩
    | none => if call.deletes world projectId then none else ledger projectId environment

/-- A run of calls on a store that is empty at first, in memory or in a database, and its ledger.
Between two calls time goes on, and writes begin to fail or to succeed again. -/
inductive Ledgered [Machine] : World → Ledger → Prop
  | empty {backing : Store.Backing} (clock : Instant) (random : Random) :
    backing ≠ .unguarded → Ledgered { store := { backing }, clock, random } fun _ _ => none
  | between {world : World} {ledger : Ledger} (clock : Instant) (random : Random)
    (full : Option String) (fault : Option Store.Fault) : Ledgered world ledger →
      Ledgered { world with clock, random, store := { world.store with full, fault } } ledger
  | call {world : World} {ledger : Ledger} (call : Call) : Ledgered world ledger →
      Ledgered (call.perform.perform world).2 (ledger.entered world call)

def Write.old? (write : Write) (projectId : String) (environment : Environment) : Option Json :=
  write.before.store.tables.document? projectId environment.name

/-- What is known of a project that was written, from the call that wrote it. -/
structure Write.Fits [Machine] (write : Write) (projectId : String) (environment : Environment) :
    Prop where
  id : write.project.id = projectId
  readable : write.call.HasReadPrior → write.project.Readable
  saved {id : String} {label data actor : Json} {at? known : Option DateTime} :
    write.call = .save id label data actor at? known →
      ∃ parsed stamp, Project.ofJson data = .ok parsed ∧
        stampOf (at?.getD write.before.now) = .ok stamp ∧
        write.project = { parsed with
          metadata := { parsed.metadata with
            environment := .str environment.name
            updatedAt := .str stamp } }

theorem fits_of_written? [Machine] {call : Call} {project : Project} (settled : world.store.Settled)
    (filed : ∀ id builder, answer? (Store.load id Environment.builder.name) world = some builder →
      builder.id = id)
    (h : call.written? world projectId environment = some project) :
    Write.Fits ⟨world, call, project⟩ projectId environment := by
  cases call with
  | create data actor at? =>
    obtain ⟨answered, there⟩ := Option.filter_eq_some_iff.mp h
    obtain ⟨after, performed⟩ := answer?_eq_some.mp answered
    obtain ⟨⟨time, made⟩, -⟩ := match_createProject settled performed
    exact {
      id := (of_decide_eq_true there).1
      readable := fun _ => (storedAs_of_created made).readable
      saved := nofun }
  | save id label data actor at? known =>
    obtain ⟨answered, there⟩ := Option.filter_eq_some_iff.mp h
    obtain ⟨after, performed⟩ := answer?_eq_some.mp answered
    obtain ⟨place, note, named, valid, -⟩ := perform_saveCopy_eq_ok performed
    have stored := storedAs_of_replacement valid
    obtain ⟨rfl, rfl⟩ := of_decide_eq_true there
    obtain rfl := Environment.name_injective (Json.str.inj (Environment.ofJson_eq_ok.mp named))
    refine ⟨stored.id, fun _ => stored.readable, ?_⟩
    rintro _ _ _ _ _ _ ⟨⟩
    obtain ⟨parsed, read, -, stamping⟩ := replacement_eq_ok valid
    obtain ⟨stamp, stamped, rfl, -⟩ := stamped_eq_ok stamping
    exact ⟨parsed, stamp, read, stamped, rfl⟩
  | promote id target message actor at? limit =>
    obtain ⟨deployment, answered, h⟩ := Option.bind_eq_some_iff.mp h
    obtain ⟨builder, loaded, h⟩ := Option.bind_eq_some_iff.mp h
    split at h
    · next there =>
      obtain rfl := Option.some.inj h
      obtain ⟨after, performed⟩ := answer?_eq_some.mp answered
      obtain ⟨looked, performed'⟩ := answer?_eq_some.mp loaded
      obtain ⟨_, _, _, -, record, -⟩ := perform_promote_eq_ok performed
      exact {
        id := (filed id builder loaded).trans there.1
        readable := fun _ =>
          readable_promoted (Store.readable_of_load performed') record limit environment
        saved := nofun }
    · cases h
  | enhance prior instruction transform saves label actor at? =>
    obtain ⟨answered, there⟩ := Option.filter_eq_some_iff.mp h
    obtain ⟨after, performed⟩ := answer?_eq_some.mp answered
    refine ⟨(id_of_enhance performed).trans (of_decide_eq_true there).1, ?_, nofun⟩
    rintro ⟨data, read⟩
    exact readable_of_enhance (Project.readable_of_ofJson read) performed
  | _ => cases h

structure Ledger.Tells [Machine] (ledger : Ledger) (world : World) : Prop where
  settled : world.store.Settled
  present : world.store.lost = false
  document (projectId : String) (environment : Environment) :
    world.store.tables.document? projectId environment.name =
      (ledger projectId environment).map fun write =>
        kept write.before.store.backing (write.old? projectId environment) write.project.toJson
  fits {projectId : String} {environment : Environment} {write : Write} :
    ledger projectId environment = some write → write.Fits projectId environment

namespace Ledger.Tells

variable {ledger : Ledger}

theorem perform_load [Machine] (tells : ledger.Tells world) (projectId : String)
    (environment : Environment) :
    (Store.load projectId environment.name).perform world =
      match ledger projectId environment with
      | none => (.error (.copyUnknown environment.name), world)
      | some write =>
        ((Project.ofJson (kept write.before.store.backing (write.old? projectId environment)
          write.project.toJson)).mapError (Store.readingError world.store.backing), world) := by
  have document := tells.document projectId environment
  split
  · next none =>
    rw [none, Option.map_none, Tables.document?, Option.map_eq_none_iff] at document
    exact Store.perform_load_of_none tells.settled tells.present document
  · next write entered =>
    rw [entered, Option.map_some] at document
    exact Store.perform_load_of_kept tells.settled (fun _ => tells.present) document

/-- A project is loaded from where its identifier says. -/
theorem filed [Machine] (tells : ledger.Tells world) {projectId : String} {project : Project}
    (h : answer? (Store.load projectId environment.name) world = some project) :
    project.id = projectId := by
  obtain ⟨after, loaded⟩ := answer?_eq_some.mp h
  rw [tells.perform_load] at loaded
  split at loaded
  · cases loaded
  · next write entered =>
    have read := mapError_eq_ok.mp (Prod.mk.inj loaded).1
    exact (Store.id_of_ofJson_kept read).trans (tells.fits entered).id

theorem entered [Machine] (tells : ledger.Tells world) (call : Call) :
    (ledger.entered world call).Tells (call.perform.perform world).2 where
  settled := (call.atomic_perform world tells.settled).1
  present := (stands_perform call world).lost.trans tells.present
  document projectId environment := by
    rw [document?_perform call tells.settled fun _ _ => tells.filed, Ledger.entered]
    rcases call.written? world projectId environment with _ | project
    · rcases call.deletes world projectId with _ | _
      · exact tells.document projectId environment
      · rfl
    · rfl
  fits {projectId environment write} h := by
    rw [Ledger.entered] at h
    split at h
    · next project written =>
      obtain rfl := Option.some.inj h
      exact fits_of_written? tells.settled (fun _ _ => tells.filed) written
    · split at h
      · cases h
      · exact tells.fits h

end Ledger.Tells

theorem tells_of_ledgered [Machine] {ledger : Ledger} (h : Ledgered world ledger) :
    ledger.Tells world := by
  induction h with
  | empty _ _ guarded => exact ⟨settled_empty guarded, rfl, fun _ _ => rfl, nofun⟩
  | between _ _ _ _ _ ih =>
    exact ⟨⟨ih.settled.guarded, ih.settled.queued⟩, ih.present, ih.document, ih.fits⟩
  | call call _ ih => exact ih.entered call

/-- After any run, nothing is loaded from an environment that nothing has been written to since the
project was deleted. From any other, what was last written is loaded, exactly if it is read as
itself, as it is unless it comes from an enhancement of a project that no document is read as, and
no document that is alike is kept in its place. What a save has written is what its document is read
as, but for the environment and the time. -/
theorem load_of_ledgered [Machine] {ledger : Ledger} (run : Ledgered world ledger)
    (projectId : String) (environment : Environment) :
    (ledger projectId environment = none →
      (loadCopy projectId (.str environment.name)).perform world =
        (.error (.copyUnknown environment.name), world)) ∧
    ∀ write, ledger projectId environment = some write →
      ((loadCopy projectId (.str environment.name)).perform world = (.ok write.project, world) ↔
        Project.ofJson write.project.toJson = .ok write.project ∧
        ¬Store.Obscures write.before.store.backing (write.old? projectId environment)
          write.project) ∧
      (write.call.HasReadPrior → Project.ofJson write.project.toJson = .ok write.project) ∧
      ∀ id label data actor at? known, write.call = .save id label data actor at? known →
        ∃ parsed stamp, Project.ofJson data = .ok parsed ∧
          stampOf (at?.getD write.before.now) = .ok stamp ∧
          write.project = { parsed with
            metadata := { parsed.metadata with
              environment := .str environment.name
              updatedAt := .str stamp } } := by
  have tells := tells_of_ledgered run
  rw [perform_loadCopy, tells.perform_load]
  refine ⟨fun none => ?_, fun write entered => ⟨?_, fun prior => ?_, fun _ _ _ _ _ _ saving => ?_⟩⟩
  · rw [none]
  · rw [entered, Prod.mk.injEq, and_iff_left rfl, mapError_eq_ok, Store.ofJson_kept_eq_ok_iff]
  · exact Project.ofJson_toJson ((tells.fits entered).readable prior)
  · exact (tells.fits entered).saved saving

def savingNote (note : Json) : Call :=
  .save "p1" (.str "staging") (.obj [("id", .str "p1"), ("name", .str "P"), ("pages", .arr []),
    ("metadata", .obj [("note", note)])]) .null none none

def notedDocument (note : Json) : Json :=
  .obj [("id", .str "p1"), ("name", .str "P"), ("pages", .arr []), ("metadata", .obj [
    ("note", note), ("environment", .str "staging"),
    ("updatedAt", .str "1970-01-01T00:00:00.000Z")])]

def unnoted (backing : Store.Backing) : World :=
  { store := { backing }, clock := 0, random := default }

def onceNoted [Machine] (backing : Store.Backing) : World :=
  ((savingNote (.int 1)).perform.perform (unnoted backing)).2

def twiceNoted [Machine] (backing : Store.Backing) : World :=
  ((savingNote (.bool true)).perform.perform (onceNoted backing)).2

/-- In memory the last of two saves is loaded, and from a database the first. -/
theorem load_of_ledgered_twiceNoted :
    (∃ ledger write, Ledgered (twiceNoted .memory) ledger ∧
      ledger "p1" .staging = some write ∧ write.project.toJson = notedDocument (.bool true) ∧
      (loadCopy "p1" (.str "staging")).perform (twiceNoted .memory) =
        (.ok write.project, twiceNoted .memory)) ∧
    ∃ ledger write, Ledgered (twiceNoted .database) ledger ∧
      ledger "p1" .staging = some write ∧ write.project.toJson = notedDocument (.bool true) ∧
      (loadCopy "p1" (.str "staging")).perform (twiceNoted .database) ≠
        (.ok write.project, twiceNoted .database) := by
  have run (backing : Store.Backing) (guarded : backing ≠ .unguarded)
      (saved : ((savingNote (.bool true)).written? (onceNoted backing) "p1" .staging).map
        Project.toJson = some (notedDocument (.bool true))) :
      ∃ ledger project, Ledgered (twiceNoted backing) ledger ∧
        ledger "p1" .staging = some ⟨onceNoted backing, savingNote (.bool true), project⟩ ∧
        project.toJson = notedDocument (.bool true) := by
    obtain ⟨project, written, document⟩ := Option.map_eq_some_iff.mp saved
    refine ⟨_, project, .call _ (.call (savingNote (.int 1)) (.empty 0 default guarded)), ?_,
      document⟩
    simp only [Ledger.entered, written]
  constructor
  · obtain ⟨ledger, project, ledgered, entered, document⟩ :=
      run .memory nofun (by decide +kernel)
    obtain ⟨loads, rereads, -⟩ := (load_of_ledgered ledgered "p1" .staging).2 _ entered
    exact ⟨ledger, _, ledgered, entered, document,
      loads.mpr ⟨rereads trivial, fun obscures => nomatch obscures.1⟩⟩
  · obtain ⟨ledger, project, ledgered, entered, document⟩ :=
      run .database nofun (by decide +kernel)
    obtain ⟨loads, -⟩ := (load_of_ledgered ledgered "p1" .staging).2 _ entered
    refine ⟨ledger, _, ledgered, entered, document, fun loaded => (loads.mp loaded).2 ⟨rfl, ?_⟩⟩
    -- The documents are alike, since a database takes `1` and `true` for equal, but not the same.
    refine ⟨notedDocument (.int 1), rfl, ?_, fun read => ?_⟩
    · rw [document]
      exact Json.alike_obj_of_canonicalFields rfl
    · have old : (Project.ofJson (notedDocument (.int 1))).map Project.toJson =
          .ok (notedDocument (.int 1)) := rfl
      rw [read] at old
      exact absurd (document.symm.trans (Except.ok.inj old)) (by decide)

end Sitewright.Operation
