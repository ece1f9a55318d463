import Sitewright.Proofs.Operation.Atomicity
import Sitewright.Proofs.Store.Invariant

namespace Sitewright

open Sitewright.Action (Keeps)
open Time (DateTime Instant)
open World (Sound)

namespace Operation

theorem readable_labelled [Machine] (environment : Environment) (stamp : String)
    {metadata : Metadata}
    (h : metadata.Readable) : (labelled environment stamp metadata).Readable :=
  { h with environment := .inr ⟨environment, rfl⟩ }

theorem readable_of_label [Machine] {project : Project} (h : project.Readable)
    (environment : Environment) (stamp : String) :
    Project.Readable { project with metadata := labelled environment stamp project.metadata } :=
  { h with metadata := readable_labelled environment stamp h.metadata }

theorem readable_withCreation [Machine] (stamp : String) {metadata : Metadata}
    (h : metadata.Readable) :
    (withCreation stamp metadata).Readable := { h with }

theorem mem_of_mem_newest {α : Type} {limit : Nat} {records : List α} {record : α}
    (h : record ∈ newest limit records) : record ∈ records := List.mem_of_mem_drop h

@[simp] theorem length_newest {α : Type} (limit : Nat) (records : List α) :
    (newest limit records).length = min limit records.length := by
  rw [newest, List.length_drop]
  omega

theorem readable_recordOf {id deployedAt : String} (target : Target) (message actor : Json)
    (idThere : id ≠ "") (timeThere : deployedAt ≠ "") :
    (recordOf id target deployedAt message actor).Readable where
  id := idThere
  deployedAt := timeThere
  message := by
    simp only [recordOf, Json.orElse]
    split
    · next truthy => exact .inl truthy
    · cases target <;> exact .inl rfl

theorem readable_recorded [Machine] {metadata : Metadata} {record : DeploymentRecord} (limit : Nat)
    (h : metadata.Readable) (k : record.Readable) : (recorded metadata record limit).Readable where
  environment := h.environment
  lastDeployment := Shape.copyable_put (by decide) h.lastDeployment _ _
  history := by
    intro other hOther
    rcases List.mem_append.mp (mem_of_mem_newest hOther) with old | new
    · exact h.history other old
    · rwa [List.mem_singleton.mp new]
  extra := h.extra
  unknown := h.unknown

def asCopy (project : Project) (metadata : Metadata) (environment : Environment) : Project :=
  { project with metadata := relabelled environment metadata }

theorem copiesOf_eq_ok [Machine] {builder : Project} {record : DeploymentRecord} {limit : Nat}
    {copies : Project × Project} : copiesOf builder record limit = .ok copies ↔
      (builder.Copyable ∧
        Project.Copyable { builder with metadata := recorded builder.metadata record limit }) ∧
      copies = (asCopy builder (recorded builder.metadata record limit) record.target.environment,
        asCopy builder (recorded builder.metadata record limit) .builder) := by
  constructor
  · intro made
    obtain ⟨synced, recording, made⟩ := bind_eq_ok.mp made
    obtain ⟨deployed, deploying, made⟩ := bind_eq_ok.mp made
    obtain ⟨builder', labelling, made⟩ := bind_eq_ok.mp made
    obtain ⟨copyable, rfl⟩ := Project.eq_of_withMetadata_ok recording
    obtain ⟨copyable', rfl⟩ := Project.eq_of_withMetadata_ok deploying
    obtain ⟨-, rfl⟩ := Project.eq_of_withMetadata_ok labelling
    exact ⟨⟨copyable, copyable'⟩, (Except.ok.inj made).symm⟩
  · rintro ⟨⟨copyable, copyable'⟩, rfl⟩
    rw [copiesOf, Project.withMetadata_ok copyable, ok_bind, Project.withMetadata_ok copyable',
      ok_bind, Project.withMetadata_ok copyable', ok_bind]
    rfl

theorem copiesOf_eq_error [Machine] {builder : Project} {record : DeploymentRecord} {limit : Nat}
    {error : Error} : copiesOf builder record limit = .error error ↔
      ¬(builder.Copyable ∧
        Project.Copyable { builder with metadata := recorded builder.metadata record limit }) ∧
      error = .valueNested := by
  by_cases copyable : builder.Copyable
  · rw [copiesOf, Project.withMetadata_ok copyable, ok_bind, and_iff_right copyable]
    by_cases copyable' :
        Project.Copyable { builder with metadata := recorded builder.metadata record limit }
    · rw [Project.withMetadata_ok copyable', ok_bind, Project.withMetadata_ok copyable', ok_bind]
      exact iff_of_false nofun fun failed => failed.1 copyable'
    · rw [Project.withMetadata_ok_eq_error.mpr ⟨copyable', rfl⟩]
      simp [copyable', eq_comm]
  · rw [copiesOf, Project.withMetadata_ok_eq_error.mpr ⟨copyable, rfl⟩]
    simp [copyable, eq_comm]

theorem storedAs_asCopy [Machine] {project : Project} {projectId environment : String}
    {metadata : Metadata}
    (h : project.StoredAs projectId environment) (k : metadata.Readable) (other : Environment) :
    (asCopy project metadata other).StoredAs projectId other.name where
  readable := { h.readable with metadata := { k with environment := .inr ⟨other, rfl⟩ } }
  id := h.id
  environment := rfl
  valid := h.valid

def keepingRecords (prior project : Project) : Project :=
  { project with metadata := withRecords prior.metadata project.metadata }

theorem completed_eq_ok [Machine] {prior repaired found : Project} :
    completed prior repaired = .ok found ↔ repaired.Copyable ∧
      found = keepingRecords prior repaired ∧ ∃ warnings, found.check = .ok warnings := by
  constructor
  · intro made
    obtain ⟨project, kept, made⟩ := bind_eq_ok.mp made
    obtain ⟨warnings, valid, made⟩ := bind_eq_ok.mp made
    cases made
    obtain ⟨copyable, rfl⟩ := Project.eq_of_withMetadata_ok kept
    exact ⟨copyable, rfl, warnings, valid⟩
  · rintro ⟨copyable, rfl, warnings, valid⟩
    rw [completed, Project.withMetadata_ok copyable, ok_bind]
    exact congrArg (· >>= fun _ => .ok (keepingRecords prior repaired)) valid

theorem readable_keepingRecords [Machine] {prior enhanced : Project} (h : prior.Readable)
    (k : enhanced.Readable) : (keepingRecords prior enhanced).Readable :=
  { k with metadata := { k.metadata with
      lastDeployment := h.metadata.lastDeployment
      history := h.metadata.history } }

theorem stamped_eq_ok [Machine] {project found : Project} {time : DateTime}
    {change : String → Metadata → Metadata} (h : stamped project time change = .ok found) :
    ∃ stamp, stampOf time = .ok stamp ∧
      found = { project with metadata := change stamp project.metadata } ∧
      ∃ warnings, found.check = .ok warnings := by
  obtain ⟨stamp, timed, h⟩ := bind_eq_ok.mp h
  obtain ⟨written, changed, h⟩ := bind_eq_ok.mp h
  obtain ⟨warnings, valid, h⟩ := bind_eq_ok.mp h
  cases h
  exact ⟨stamp, timed, (Project.eq_of_withMetadata_ok changed).2, warnings, valid⟩

theorem storedAs_of_stamped [Machine] {project found : Project} {time : DateTime}
    {change : String → Metadata → Metadata} {environment : String}
    (h : stamped project time change = .ok found) (readable : project.Readable)
    (changed : ∀ stamp, (change stamp project.metadata).Readable)
    (label : ∀ stamp, (change stamp project.metadata).environment = .str environment) :
    found.StoredAs project.id environment := by
  obtain ⟨stamp, -, rfl, valid⟩ := stamped_eq_ok h
  exact {
    readable := { readable with metadata := changed stamp }
    id := rfl
    environment := label stamp
    valid }

theorem storedAs_of_created [Machine] {data : Json} {time : DateTime} {project : Project}
    (h : created data time = .ok project) : project.StoredAs project.id "builder" := by
  simp only [created] at h
  split at h
  · obtain ⟨read, hRead, h⟩ := bind_eq_ok.mp h
    have readable := Project.readable_of_ofJson hRead
    have stored : project.StoredAs read.id "builder" := storedAs_of_stamped h readable
      (fun stamp => readable_labelled _ _ (readable_withCreation stamp readable.metadata))
      (fun _ => rfl)
    exact stored.id ▸ stored
  · cases h

theorem replacement_eq_ok [Machine] {projectId : String} {environment : Environment} {data : Json}
    {time : DateTime} {project : Project}
    (h : replacement projectId environment data time = .ok project) :
    ∃ parsed, Project.ofJson data = .ok parsed ∧ parsed.id = projectId ∧
      stamped parsed time (labelled environment) = .ok project := by
  simp only [replacement] at h
  split at h
  · cases h
  · split at h
    · cases h
    · next same =>
      obtain ⟨parsed, read, h⟩ := bind_eq_ok.mp h
      have id : parsed.id = projectId := by
        simpa [Project.id_of_ofJson read] using same
      exact ⟨parsed, read, id, h⟩

theorem storedAs_of_replacement [Machine] {projectId : String} {environment : Environment}
    {data : Json} {time : DateTime} {project : Project}
    (h : replacement projectId environment data time = .ok project) :
    project.StoredAs projectId environment.name := by
  obtain ⟨parsed, read, rfl, stamping⟩ := replacement_eq_ok h
  have readable := Project.readable_of_ofJson read
  exact storedAs_of_stamped stamping readable
    (fun stamp => readable_labelled _ stamp readable.metadata) (fun _ => rfl)

theorem keeps_currentTime [Machine] (given : Option DateTime) :
    Keeps Sound (currentTime given) fun _ => True :=
  Action.keeps_get.andThen fun _ => Action.keeps_pure trivial

theorem keeps_stamp [Machine] (time : DateTime) :
    Keeps Sound (Action.ofExcept (stampOf time)) fun stamp => stamp ≠ "" :=
  Action.keeps_ofExcept fun _ => ne_empty_of_stampOf

theorem keeps_checkUnmodified [Machine] (projectId environment : String) (known : Option DateTime) :
    Keeps Sound (checkUnmodified projectId environment known) fun _ => True := by
  cases known with
  | none => exact Action.keeps_pure trivial
  | some known =>
    refine (Store.keeps_writtenAt projectId environment).andThen fun written? => ?_
    cases written? with
    | none => exact Action.keeps_pure trivial
    | some written =>
      exact (Action.keeps_ofExcept fun _ _ => trivial).andThen fun _ => Action.keeps_refuseIf _ _

theorem keeps_writeCopy [Machine] {projectId : String} {environment : Environment}
    {project : Project} (h : project.StoredAs projectId environment.name) :
    Keeps Sound (writeCopy projectId environment project) fun _ => True :=
  (Store.keeps_save h).andThen fun _ =>
    Action.keeps_ite (Store.keeps_putEntry project) (Action.keeps_pure trivial)

theorem keeps_noteCopy [Machine] {projectId : String} {environment : Environment}
    {project : Project} (known : Option DateTime) (note : Store.AuditNote)
    (h : project.StoredAs projectId environment.name) :
    Keeps Sound (noteCopy projectId environment known project note) fun _ => True :=
  (keeps_checkUnmodified _ _ _).andThen fun _ => (keeps_writeCopy h).andThen fun _ =>
    Store.keeps_note note

theorem keeps_writeNoted [Machine] {projectId : String} {environment : Environment}
    {project : Project} (known : Option DateTime) (note : Store.AuditNote)
    (h : project.StoredAs projectId environment.name) :
    Keeps Sound (writeNoted projectId environment known project note) fun _ => True :=
  Store.keeps_transaction (keeps_noteCopy known note h)

theorem keeps_createProject [Machine] (data actor : Json) (at? : Option DateTime) :
    Keeps Sound (createProject data actor at?) fun _ => True :=
  (keeps_currentTime at?).andThen fun _ =>
    (Action.keeps_ofExcept fun _ => storedAs_of_created).bind fun _ stored =>
      (keeps_writeNoted _ _ stored).andThen fun _ => Action.keeps_pure trivial

theorem keeps_saveCopy [Machine] (projectId : String) (environment data actor : Json)
    (at? known : Option DateTime) :
    Keeps Sound (saveCopy projectId environment data actor at? known) fun _ => True :=
  (Action.keeps_ofExcept fun _ _ => trivial).andThen fun _ =>
    (keeps_currentTime at?).andThen fun _ =>
      (Action.keeps_ofExcept fun _ => storedAs_of_replacement).bind fun _ stored =>
        (keeps_writeNoted _ _ stored).andThen fun _ => Action.keeps_pure trivial

theorem keeps_noteDeployment [Machine] {projectId : String} {target : Target}
    {deployed synced : Project}
    (note : Store.AuditNote) (h : deployed.StoredAs projectId target.name)
    (k : synced.StoredAs projectId "builder") :
    Keeps Sound (noteDeployment projectId target deployed synced note) fun _ => True :=
  (Store.keeps_save h).andThen fun _ => (Store.keeps_save k).andThen fun _ =>
    (Store.keeps_putEntry synced).andThen fun _ => Store.keeps_note note

theorem keeps_writeDeployment [Machine] {projectId : String} {target : Target}
    {deployed synced : Project}
    (note : Store.AuditNote) (h : deployed.StoredAs projectId target.name)
    (k : synced.StoredAs projectId "builder") :
    Keeps Sound (writeDeployment projectId target deployed synced note) fun _ => True :=
  Store.keeps_transaction (keeps_noteDeployment note h k)

theorem keeps_draw [Machine] {α : Type} {next : Random → α × Random} {answer : α → Prop}
    (h : ∀ random, answer (next random).1) : Keeps Sound (Action.draw next) answer := by
  refine (Action.keeps_draw fun _ _ sound => ⟨sound.tables, sound.present⟩).imp fun a drawn => ?_
  obtain ⟨random, rfl⟩ := drawn
  exact h random

theorem keeps_freshDeployment [Machine] (millis : Int) :
    Keeps Sound (Action.draw (Identifier.freshDeployment millis)) fun id => id ≠ "" :=
  keeps_draw fun random => Identifier.ofChance_ne_empty "deploy" millis (random.chance 0)

theorem keeps_promote [Machine] (projectId : String) (target message actor : Json)
    (at? : Option DateTime) (historyLimit : Int) :
    Keeps Sound (promote projectId target message actor at? historyLimit) fun _ => True := by
  refine (Action.keeps_ofExcept fun _ _ => trivial).andThen fun _ =>
    (Action.keeps_ofExcept fun _ _ => trivial).andThen fun target =>
      (Action.keeps_mapError (Store.keeps_load projectId _) _).bind fun builder stored =>
        (Action.keeps_ofExcept fun _ _ => trivial).andThen fun _ =>
          (keeps_currentTime at?).andThen fun time => (keeps_stamp time).bind fun stamp timeThere =>
            Action.keeps_get.andThen fun world =>
              (keeps_freshDeployment world.millis).bind fun id idThere => ?_
  have readable := readable_recorded historyLimit.toNat stored.readable.metadata
    (readable_recordOf target message actor idThere timeThere)
  refine (Action.keeps_ofExcept fun _ made => (copiesOf_eq_ok.mp made).2).bind
    fun copies same => ?_
  subst same
  refine Keeps.andThen (keeps_writeDeployment _ ?_ ?_) fun _ => Action.keeps_pure trivial
  · exact storedAs_asCopy stored readable target.environment
  · exact storedAs_asCopy stored readable .builder

theorem keeps_ask [Machine] (transform : Transform) (project : Project) (instruction : String) :
    Keeps Sound (ask transform project instruction) fun _ => True :=
  (Action.keeps_modify fun _ sound => ⟨sound.tables, sound.present⟩).andThen fun _ =>
    Action.keeps_ofExcept fun _ _ => trivial

theorem answered_eq_ok [Machine] {prior project : Project} {reply : Enhancement.Reply} :
    answered prior reply = .ok project ↔
      ∃ fields, reply.toProject = .ok fields ∧ Fields.value fields "id" = .str prior.id ∧
        Project.ofJson (.obj fields) = .ok project := by
  rw [answered, bind_eq_ok]
  refine exists_congr fun fields => and_congr_right fun _ => ?_
  dsimp only
  split
  · next other => exact iff_of_false (fun failed => by cases failed) fun found => other found.1
  · next same => rw [mapError_eq_ok, and_iff_right (Classical.not_not.mp same)]

theorem readable_of_answered [Machine] {prior project : Project} {reply : Enhancement.Reply}
    (h : answered prior reply = .ok project) : project.Readable := by
  obtain ⟨fields, -, -, hRead⟩ := answered_eq_ok.mp h
  exact Project.readable_of_ofJson hRead

theorem repaired_eq_ok [Machine] {prior : Project} {reply : Enhancement.Reply} {millis : Int}
    {next : Random → Project × Random} :
    (answered prior reply).bind (prior.repair · millis) = .ok next ↔
      ∃ parsed, answered prior reply = .ok parsed ∧ parsed.Copyable ∧
        next = prior.repairIds parsed millis := by
  refine bind_eq_ok.trans (exists_congr fun parsed => and_congr_right fun _ => ?_)
  exact Project.repair_eq_ok

theorem keeps_rewritten [Machine] {prior : Project} (instruction : String) (transform : Transform)
    (h : prior.Readable) :
    Keeps Sound (rewritten prior instruction transform) fun project =>
      project.Readable ∧ ∃ warnings, project.check = .ok warnings :=
  (keeps_ask transform prior instruction).andThen fun _ =>
    Action.keeps_get.andThen fun world =>
      (Action.keeps_ofExcept fun _ made => repaired_eq_ok.mp made).bind
        fun _ ⟨_, read, _, same⟩ => same ▸ (keeps_draw fun random =>
          Project.readable_repairIds prior world.millis random
            (readable_of_answered read)).bind fun _ repaired =>
              Action.keeps_ofExcept fun _ made => by
                obtain ⟨-, rfl, valid⟩ := completed_eq_ok.mp made
                exact ⟨readable_keepingRecords h repaired, valid⟩

theorem keeps_saveRewritten [Machine] {project : Project} (environment : Environment)
    (instruction : String) (actor : Json) (at? : Option DateTime) (h : project.Readable)
    (valid : ∃ warnings, project.check = .ok warnings) :
    Keeps Sound (saveRewritten project environment instruction actor at?) fun _ => True := by
  refine (keeps_currentTime at?).andThen fun time => (keeps_stamp time).andThen fun stamp =>
    (Action.keeps_ofExcept fun _ made => (Project.eq_of_withMetadata_ok made).2).bind
      fun copy same => Keeps.andThen (keeps_writeNoted _ _ ?_) fun _ => Action.keeps_pure trivial
  subst same
  exact {
    readable := readable_of_label h environment stamp
    id := rfl
    environment := rfl
    valid }

theorem keeps_enhance [Machine] {prior : Project} (instruction : Json) (transform : Transform)
    (saves : Bool) (environment actor : Json) (at? : Option DateTime) (h : prior.Readable) :
    Keeps Sound (enhance prior instruction transform saves environment actor at?)
      fun _ => True := by
  refine (Action.keeps_ofExcept fun _ _ => trivial).andThen fun instruction =>
    (Action.keeps_ofExcept fun _ _ => trivial).andThen fun environment =>
      (keeps_rewritten instruction transform h).bind fun project stored => ?_
  split
  · exact keeps_saveRewritten _ _ _ _ stored.1 stored.2
  · exact Action.keeps_pure trivial

theorem keeps_noteDeletion [Machine] (projectId : String) (actor : Json) :
    Keeps Sound (noteDeletion projectId actor) fun _ => True :=
  (Store.keeps_delete projectId).andThen fun _ => Store.keeps_note _

theorem keeps_deleteProject [Machine] (projectId : String) (actor : Json) :
    Keeps Sound (deleteProject projectId actor) fun _ => True :=
  Store.keeps_transaction (keeps_noteDeletion projectId actor)

theorem keeps_getProject [Machine] (projectId : String) :
    Keeps Sound (getProject projectId) (Project.StoredAs projectId "builder") :=
  Action.keeps_mapError (Store.keeps_load projectId "builder") _

theorem keeps_loadCopy [Machine] (projectId : String) (environment : Json) :
    Keeps Sound (loadCopy projectId environment) fun _ => True :=
  Action.Keeps.andThen (Action.keeps_ofExcept fun _ _ => trivial) fun environment =>
    (Store.keeps_load projectId environment.name).imp fun _ _ => trivial

theorem keeps_deployments [Machine] (projectId : String) :
    Keeps Sound (deployments projectId) fun _ => True :=
  (keeps_getProject projectId).andThen fun _ => Action.keeps_pure trivial

namespace Call

/-- A project that is to be enhanced has been read from a document. -/
def HasReadPrior [Machine] : Call → Prop
  | .enhance prior _ _ _ _ _ _ => ∃ data, Project.ofJson data = .ok prior
  | _ => True

theorem keeps_perform [Machine] (call : Call) (h : call.HasReadPrior) :
    Keeps Sound call.perform fun _ => True := by
  cases call with
  | create => exact (keeps_createProject _ _ _).map _
  | save => exact (keeps_saveCopy _ _ _ _ _ _).map _
  | promote => exact (keeps_promote _ _ _ _ _ _).andThen fun _ => Action.keeps_pure trivial
  | enhance =>
    obtain ⟨data, read⟩ := h
    exact (keeps_enhance _ _ _ _ _ _ (Project.readable_of_ofJson read)).map _
  | delete => exact (keeps_deleteProject _ _).andThen fun _ => Action.keeps_pure trivial
  | get projectId => exact (keeps_getProject projectId).map _
  | load projectId environment => exact (keeps_loadCopy projectId environment).map _
  | deployments projectId => exact (keeps_deployments projectId).map _
  | list => exact Store.keeps_catalogue.andThen fun _ => Action.keeps_pure trivial

end Call

/-- The worlds that calls lead to from an empty store, in memory or in a database. Between two calls
time goes on, and writes begin to fail or to succeed again. -/
inductive Reachable [Machine] : World → Prop
  | empty {backing : Store.Backing} (clock : Instant) (random : Random) :
    backing ≠ .unguarded → Reachable { store := { backing }, clock, random }
  | between {world : World} (clock : Instant) (random : Random) (full : Option String)
    (fault : Option Store.Fault) : Reachable world →
      Reachable { world with clock, random, store := { world.store with full, fault } }
  | call {world : World} (call : Call) : call.HasReadPrior → Reachable world →
      Reachable (call.perform.perform world).2

theorem settled_empty {backing : Store.Backing} (guarded : backing ≠ .unguarded) :
    Store.Settled { backing } := by
  refine ⟨?_, fun _ => rfl⟩
  cases backing with
  | unguarded => exact absurd rfl guarded
  | memory => rfl
  | database => rfl

theorem settled_of_reachable [Machine] {world : World} (h : Reachable world) :
    world.store.Settled := by
  induction h with
  | empty _ _ guarded => exact settled_empty guarded
  | between _ _ _ _ _ ih => exact ⟨ih.guarded, ih.queued⟩
  | call call _ _ ih => exact (call.atomic_perform _ ih).1

theorem sound_of_reachable [Machine] {world : World} (h : Reachable world) : world.Sound := by
  induction h with
  | empty => exact ⟨fun _ hCopy => (List.not_mem_nil hCopy).elim, rfl⟩
  | between _ _ _ _ _ ih => exact ⟨ih.tables, ih.present⟩
  | call call prior _ ih => exact (call.keeps_perform prior _ ih).1

/-- Whatever calls have been made, a document that is stored is read as a valid project of its
identifier and its environment, and loading it succeeds. -/
theorem exists_project_of_copy [Machine] {world : World} (reached : Reachable world)
    {projectId environment : String} {copy : Store.Copy}
    (stored : world.store.tables.copy? projectId environment = some copy) :
    ∃ project warnings, Project.ofJson copy.document = .ok project ∧ project.id = projectId ∧
      project.metadata.environment = .str environment ∧ project.check = .ok warnings ∧
      (Store.load projectId environment).perform world = (.ok project, world) := by
  have sound := sound_of_reachable reached
  obtain ⟨project, written, belongs⟩ := sound.tables copy (Store.Tables.mem_of_copy? stored)
  obtain ⟨rfl, rfl⟩ := Store.Tables.isOf_of_copy? stored
  have read : Project.ofJson copy.document = .ok project :=
    written ▸ Project.ofJson_toJson belongs.readable
  obtain ⟨warnings, valid⟩ := belongs.valid
  exact ⟨project, warnings, read, belongs.id, belongs.environment, valid,
    Store.perform_load (settled_of_reachable reached) sound.present stored read⟩

theorem Reachable.calls [Machine] {world : World} (reached : Reachable world) {calls : List Call}
    (read : ∀ call ∈ calls, call.HasReadPrior) :
    Reachable (calls.foldl (fun world call => (call.perform.perform world).2) world) := by
  induction calls generalizing world with
  | nil => exact reached
  | cons call rest ih =>
    rw [List.forall_mem_cons] at read
    exact ih (.call call read.1 reached) read.2

def pageOf (texts : List String) : Project where
  id := "p1"
  name := "Home"
  pages := [⟨"g1", "Start", "/", [⟨"b1", "Body", [], [], [],
    texts.map fun text => { id := text, type := "Text", props := [("text", .str text)] }⟩], []⟩]

/-- A project is created and filled in, promoted, and saved in a third environment with a text that
a transform has added. -/
def busyCalls : List Call := [
  .create (.obj [("id", .str "p1"), ("name", .str "Home")]) .null none,
  .save "p1" (.str "builder") (pageOf ["t1"]).toJson (.str "ann") none none,
  .promote "p1" (.str "staging") .null .null none 50,
  .enhance (pageOf ["t1"]) (.str "Add a text.")
    (fun _ _ => .ok (.value (pageOf ["t1", "t2"]).toJson)) true (.str "production") .null none]

def busyWorld : World :=
  busyCalls.foldl (fun world call => (call.perform.perform world).2)
    { store := { backing := .memory }, clock := 0, random := default }

theorem reachable_busyWorld : Reachable busyWorld := by
  refine Reachable.calls (.empty 0 default (by decide)) ?_
  simp only [busyCalls, List.forall_mem_cons]
  exact ⟨trivial, trivial, trivial, ⟨(pageOf ["t1"]).toJson, rfl⟩, List.forall_mem_nil _⟩

theorem exists_project_of_copy_busy :
    Reachable busyWorld ∧ ∀ environment ∈ ["builder", "staging", "production"], ∃ copy,
      busyWorld.store.tables.copy? "p1" environment = some copy ∧
      ∃ project warnings, Project.ofJson copy.document = .ok project ∧ project.id = "p1" ∧
        project.metadata.environment = .str environment ∧ project.check = .ok warnings ∧
        (Store.load "p1" environment).perform busyWorld = (.ok project, busyWorld) := by
  refine ⟨reachable_busyWorld, fun environment known => ?_⟩
  have all : ∀ environment ∈ ["builder", "staging", "production"],
      (busyWorld.store.tables.copy? "p1" environment).isSome := by decide +kernel
  obtain ⟨copy, stored⟩ := Option.isSome_iff_exists.mp (all environment known)
  exact ⟨copy, stored, exists_project_of_copy reachable_busyWorld stored⟩

end Operation

end Sitewright
