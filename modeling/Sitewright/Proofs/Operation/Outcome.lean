import Sitewright.Proofs.Operation.Writing
import Sitewright.Proofs.Store.Outcome

namespace Sitewright.Operation

open Store (Tables withFault withTables withDepth withQueued)
open Time (DateTime)

variable {world after : World}

theorem perform_checkUnmodified_eq_ok {projectId environment : String} {known : Option DateTime}
    (idle : world.store.Idle)
    (h : (checkUnmodified projectId environment known).perform world = (.ok (), after)) :
    after = world := by
  cases known with
  | none =>
    cases h
    rfl
  | some known =>
    obtain ⟨written?, _, looked, checked⟩ := Action.perform_bind_eq_ok.mp h
    obtain rfl := Store.perform_writtenAt_eq_ok idle looked
    cases written? with
    | none =>
      cases checked
      rfl
    | some written =>
      obtain ⟨_, -, fresh⟩ := Action.perform_ofExcept_bind_eq_ok.mp checked
      exact (Action.perform_refuseIf_eq_ok.mp fresh).2

theorem perform_writeCopy_eq_ok {environment : Environment} {project : Project}
    (idle : world.store.Idle) (inside : world.store.Inside)
    (h : (writeCopy project.id environment project).perform world = (.ok (), after)) :
    ∃ fault,
      after = withFault fault (withTables (writtenCopy world environment project) world) := by
  obtain ⟨_, _, saved, entered⟩ := Action.perform_bind_eq_ok.mp h
  obtain ⟨fault, rfl⟩ := Store.perform_save_eq_ok idle inside saved
  simp only [writtenCopy]
  split at entered
  · next builder =>
    obtain ⟨fault', rfl⟩ := @Store.perform_putEntry_eq_ok
      (withFault fault (withTables (Store.saved world project.id environment.name project) world))
      _ _ idle inside entered
    rw [if_pos builder]
    exact ⟨fault', rfl⟩
  · next other =>
    cases entered
    rw [if_neg other]
    exact ⟨fault, rfl⟩

theorem tables_noteCopy {environment : Environment} {known : Option DateTime} {project : Project}
    {note : Store.AuditNote} (idle : world.store.Idle) (inside : world.store.Inside)
    (h : (noteCopy project.id environment known project note).perform world = (.ok (), after)) :
    after.store.tables = writtenCopy world environment project := by
  obtain ⟨_, _, checked, writing⟩ := Action.perform_bind_eq_ok.mp h
  obtain rfl := perform_checkUnmodified_eq_ok idle checked
  obtain ⟨_, _, written, noted⟩ := Action.perform_bind_eq_ok.mp writing
  obtain ⟨fault, rfl⟩ := perform_writeCopy_eq_ok idle inside written
  obtain ⟨queued, rfl⟩ := Store.perform_note_eq_ok noted
  rfl

theorem tables_noteDeployment {target : Target} {deployed synced : Project}
    {note : Store.AuditNote} (idle : world.store.Idle) (inside : world.store.Inside)
    (same : synced.id = deployed.id)
    (h : (noteDeployment deployed.id target deployed synced note).perform world =
      (.ok (), after)) :
    after.store.tables = writtenDeployment world target deployed synced := by
  rw [noteDeployment_eq target same] at h
  obtain ⟨_, _, saved, writing⟩ := Action.perform_bind_eq_ok.mp h
  obtain ⟨fault, rfl⟩ := Store.perform_save_eq_ok idle inside saved
  obtain ⟨_, _, written, noted⟩ := Action.perform_bind_eq_ok.mp writing
  obtain ⟨fault', rfl⟩ := @perform_writeCopy_eq_ok
    (withFault fault (withTables (Store.saved world deployed.id target.name deployed) world))
    _ _ _ idle inside written
  obtain ⟨queued, rfl⟩ := Store.perform_note_eq_ok noted
  rfl

theorem tables_noteDeletion {projectId : String} {actor : Json} (idle : world.store.Idle)
    (inside : world.store.Inside)
    (h : (noteDeletion projectId actor).perform world = (.ok (), after)) :
    (world.store.tables.entryOf? projectId).isSome ∧
      after.store.tables = world.store.tables.without projectId := by
  obtain ⟨_, _, deleted, noted⟩ := Action.perform_bind_eq_ok.mp h
  obtain ⟨known, fault, rfl⟩ := Store.perform_delete_eq_ok idle inside deleted
  obtain ⟨queued, rfl⟩ := Store.perform_note_eq_ok noted
  exact ⟨known, rfl⟩

/-! The transactions -/

theorem match_writeNoted {environment : Environment} {known : Option DateTime} {project : Project}
    {note : Store.AuditNote} (settled : world.store.Settled)
    (h : (writeNoted project.id environment known project note).perform world = (.ok (), after)) :
    after.store.tables.Match (writtenCopy world environment project) := by
  obtain ⟨mid, performed, same⟩ := Store.match_transaction h
  have tables := @tables_noteCopy (withDepth (world.store.depth + 1) world) _ _ _ _ _
    settled.queued (fun _ => Nat.succ_ne_zero _) performed
  exact tables ▸ same

theorem present_of_writeNoted {projectId : String} {environment : Environment}
    {known : Option DateTime} {project : Project} {note : Store.AuditNote}
    (settled : world.store.Settled) (database : world.store.backing = .database)
    (h : (writeNoted projectId environment known project note).perform world = (.ok (), after)) :
    world.store.lost = false := by
  obtain ⟨_, performed, -⟩ := Store.match_transaction h
  obtain ⟨_, _, checked, writing⟩ := Action.perform_bind_eq_ok.mp performed
  obtain rfl := @perform_checkUnmodified_eq_ok (withDepth (world.store.depth + 1) world) _ _ _ _
    settled.queued checked
  obtain ⟨_, _, written, -⟩ := Action.perform_bind_eq_ok.mp writing
  obtain ⟨_, _, saved, -⟩ := Action.perform_bind_eq_ok.mp written
  exact @Store.present_of_save (withDepth (world.store.depth + 1) world) _ _ _ _ database
    (fun _ => Nat.succ_ne_zero _) saved

theorem match_writeDeployment {target : Target} {deployed synced : Project}
    {note : Store.AuditNote} (settled : world.store.Settled) (same : synced.id = deployed.id)
    (h : (writeDeployment deployed.id target deployed synced note).perform world =
      (.ok (), after)) :
    after.store.tables.Match (writtenDeployment world target deployed synced) := by
  obtain ⟨mid, performed, matching⟩ := Store.match_transaction h
  have tables := @tables_noteDeployment (withDepth (world.store.depth + 1) world) _ _ _ _ _
    settled.queued (fun _ => Nat.succ_ne_zero _) same performed
  exact tables ▸ matching

theorem match_deleteProject {projectId : String} {actor : Json} (settled : world.store.Settled)
    (h : (deleteProject projectId actor).perform world = (.ok (), after)) :
    (world.store.tables.entryOf? projectId).isSome ∧
      after.store.tables.Match (world.store.tables.without projectId) := by
  obtain ⟨mid, performed, matching⟩ := Store.match_transaction h
  obtain ⟨known, tables⟩ := @tables_noteDeletion (withDepth (world.store.depth + 1) world) _ _ _
    settled.queued (fun _ => Nat.succ_ne_zero _) performed
  exact ⟨known, tables ▸ matching⟩

/-! The operations -/

@[simp] theorem perform_currentTime_bind {α : Type} (given : Option DateTime)
    (second : DateTime → Action α) (world : World) :
    (currentTime given >>= second).perform world =
      (second (given.getD world.now)).perform world := by
  have now : (currentTime given).perform world = (.ok (given.getD world.now), world) := by
    rw [currentTime, Action.perform_get_bind, Action.perform_pure]
  rw [Action.perform_bind_of_ok now]

@[simp] theorem perform_loadCopy [Machine] (projectId : String) (place : Environment) (world : World) :
    (loadCopy projectId (.str place.name)).perform world =
      (Store.load projectId place.name).perform world := by
  rw [loadCopy, Environment.ofJson_eq_ok.mpr rfl, Action.ofExcept_ok_bind]

theorem match_createProject [Machine] {data actor : Json} {at? : Option DateTime}
    {project : Project} (settled : world.store.Settled)
    (h : (createProject data actor at?).perform world = (.ok project, after)) :
    (∃ time, created data time = .ok project) ∧
      after.store.tables.Match (writtenCopy world .builder project) := by
  rw [createProject, perform_currentTime_bind] at h
  obtain ⟨made, valid, writing⟩ := Action.perform_ofExcept_bind_eq_ok.mp h
  obtain ⟨_, _, written, answered⟩ := Action.perform_bind_eq_ok.mp writing
  cases answered
  exact ⟨⟨_, valid⟩, match_writeNoted settled written⟩

theorem perform_saveCopy_eq_ok [Machine] {projectId : String} {environment data actor : Json}
    {at? known : Option DateTime} {project : Project}
    (h : (saveCopy projectId environment data actor at? known).perform world =
      (.ok project, after)) :
    ∃ place note, Environment.ofJson environment = .ok place ∧
      replacement projectId place data (at?.getD world.now) = .ok project ∧
      (writeNoted projectId place known project note).perform world = (.ok (), after) := by
  obtain ⟨place, label, saving⟩ := Action.perform_ofExcept_bind_eq_ok.mp h
  rw [perform_currentTime_bind] at saving
  obtain ⟨made, valid, writing⟩ := Action.perform_ofExcept_bind_eq_ok.mp saving
  obtain ⟨_, _, written, answered⟩ := Action.perform_bind_eq_ok.mp writing
  cases answered
  exact ⟨place, _, label, valid, written⟩

theorem match_saveCopy [Machine] {projectId : String} {environment data actor : Json}
    {at? known : Option DateTime} {project : Project} (settled : world.store.Settled)
    (h : (saveCopy projectId environment data actor at? known).perform world =
      (.ok project, after)) :
    ∃ place, Environment.ofJson environment = .ok place ∧ project.StoredAs projectId place.name ∧
      after.store.tables.Match (writtenCopy world place project) := by
  obtain ⟨place, note, label, valid, written⟩ := perform_saveCopy_eq_ok h
  have stored := storedAs_of_replacement valid
  obtain rfl := stored.id
  exact ⟨place, label, stored, match_writeNoted settled written⟩

theorem id_of_created [Machine] {data : Json} {time : DateTime} {project : Project}
    (h : created data time = .ok project) :
    Fields.value (data.asObject?.getD []) "id" = .str project.id := by
  simp only [created] at h
  split at h
  · obtain ⟨read, hRead, stamping⟩ := bind_eq_ok.mp h
    obtain ⟨stamp, -, rfl, -⟩ := stamped_eq_ok stamping
    have id := Project.id_of_ofJson hRead
    exact id
  · cases h

/-- What a promotion starts from and what it records. -/
structure Promotes [Machine] (world : World) (projectId : String) (limit : Int) (builder : Project)
    (record : DeploymentRecord) : Prop where
  document : world.store.tables.document? projectId Environment.builder.name = some builder.toJson
  builder : builder.StoredAs projectId Environment.builder.name
  record : record.Readable
  limit : 1 ≤ limit

def promoted (builder : Project) (record : DeploymentRecord) (limit : Int)
    (environment : Environment) : Project :=
  asCopy builder (recorded builder.metadata record limit.toNat) environment

@[simp] theorem history_promoted (builder : Project) (record : DeploymentRecord) (limit : Int)
    (environment : Environment) : (promoted builder record limit environment).metadata.history =
      newest limit.toNat (builder.metadata.history ++ [record]) := rfl

@[simp] theorem lastDeployment_promoted (builder : Project) (record : DeploymentRecord)
    (limit : Int) (environment : Environment) :
    (promoted builder record limit environment).metadata.lastDeployment =
      builder.metadata.lastDeployment.put record.target.name (.str record.deployedAt) := rfl

theorem readable_promoted [Machine] {builder : Project} {record : DeploymentRecord}
    (h : builder.Readable) (k : record.Readable) (limit : Int) (environment : Environment) :
    (promoted builder record limit environment).Readable :=
  { h with metadata := { readable_recorded limit.toNat h.metadata k with
      environment := .inr ⟨environment, rfl⟩ } }

theorem Promotes.storedAs [Machine] {projectId : String} {limit : Int} {builder : Project}
    {record : DeploymentRecord} (h : Promotes world projectId limit builder record)
    (environment : Environment) :
    (promoted builder record limit environment).StoredAs projectId environment.name :=
  storedAs_asCopy h.builder (readable_recorded _ h.builder.readable.metadata h.record) environment

theorem perform_promote_eq_ok [Machine] {projectId : String} {target message actor : Json}
    {at? : Option DateTime} {limit : Int} {deployment : Deployment}
    (h : (promote projectId target message actor at? limit).perform world =
      (.ok deployment, after)) :
    ∃ builder looked random, 1 ≤ limit ∧ deployment.record.Readable ∧
      (Store.load projectId Environment.builder.name).perform world = (.ok builder, looked) ∧
      (∃ id deployedAt, deployment.record =
        recordOf id deployment.record.target deployedAt message actor) ∧
      (writeDeployment projectId deployment.record.target
        (promoted builder deployment.record limit deployment.record.target.environment)
        (promoted builder deployment.record limit .builder)
        (promoteNote projectId deployment.record)).perform { looked with random } =
          (.ok (), after) := by
  obtain ⟨_, limited, h⟩ := Action.perform_ofExcept_bind_eq_ok.mp h
  obtain ⟨goal, -, h⟩ := Action.perform_ofExcept_bind_eq_ok.mp h
  obtain ⟨builder, looked, loaded, promoting⟩ := Action.perform_bind_eq_ok.mp h
  obtain ⟨_, -, recording⟩ := Action.perform_ofExcept_bind_eq_ok.mp promoting
  rw [perform_currentTime_bind] at recording
  obtain ⟨stamp, stamped, drawing⟩ := Action.perform_ofExcept_bind_eq_ok.mp recording
  have idThere : (Identifier.freshDeployment looked.millis looked.random).1 ≠ "" :=
    Identifier.ofChance_ne_empty _ _ _
  rw [Action.perform_get_bind, Action.perform_draw_bind] at drawing
  generalize Identifier.freshDeployment looked.millis looked.random = drawn at drawing idThere
  obtain ⟨copies, copied, writing⟩ := Action.perform_ofExcept_bind_eq_ok.mp drawing
  obtain ⟨-, rfl⟩ := copiesOf_eq_ok.mp copied
  obtain ⟨_, _, written, answered⟩ := Action.perform_bind_eq_ok.mp writing
  cases answered
  refine ⟨builder, looked, drawn.2, ?_, ?_, Action.perform_mapError_eq_ok.mp loaded,
    ⟨_, _, rfl⟩, written⟩
  · simp only [checkHistoryLimit] at limited
    split at limited
    · cases limited
    · omega
  · exact readable_recordOf goal message actor idThere (ne_empty_of_stampOf stamped)

theorem match_promote [Machine] {projectId : String} {target message actor : Json}
    {at? : Option DateTime}
    {limit : Int} {deployment : Deployment} (settled : world.store.Settled) (sound : world.Sound)
    (h : (promote projectId target message actor at? limit).perform world =
      (.ok deployment, after)) :
    ∃ builder mid, Promotes world projectId limit builder deployment.record ∧
      (∃ id deployedAt, deployment.record =
        recordOf id deployment.record.target deployedAt message actor) ∧
      mid.store = world.store ∧
      after.store.tables.Match (writtenDeployment mid deployment.record.target
        (promoted builder deployment.record limit deployment.record.target.environment)
        (promoted builder deployment.record limit .builder)) := by
  obtain ⟨builder, looked, random, limit, record, loaded, made, written⟩ := perform_promote_eq_ok h
  obtain ⟨rfl, document, stored⟩ := Store.perform_load_eq_ok settled sound loaded
  obtain rfl := stored.id
  refine ⟨builder, { looked with random }, ⟨document, stored, record, limit⟩, made, rfl, ?_⟩
  exact @match_writeDeployment { looked with random } _ _ _ _ _ settled rfl written

theorem perform_saveRewritten_eq_ok [Machine] {project found : Project} {environment : Environment}
    {instruction : String} {actor : Json} {at? : Option DateTime}
    (h : (saveRewritten project environment instruction actor at?).perform world =
      (.ok found, after)) :
    ∃ stamp note, stampOf (at?.getD world.now) = .ok stamp ∧
      found = { project with metadata := labelled environment stamp project.metadata } ∧
      (writeNoted found.id environment none found note).perform world = (.ok (), after) := by
  rw [saveRewritten, perform_currentTime_bind] at h
  obtain ⟨stamp, stamped, h⟩ := Action.perform_ofExcept_bind_eq_ok.mp h
  obtain ⟨copy, copied, writing⟩ := Action.perform_ofExcept_bind_eq_ok.mp h
  obtain ⟨-, rfl⟩ := Project.eq_of_withMetadata_ok copied
  obtain ⟨_, _, written, answered⟩ := Action.perform_bind_eq_ok.mp writing
  cases answered
  exact ⟨stamp, _, stamped, rfl, written⟩

theorem match_saveRewritten [Machine] {project found : Project} {environment : Environment}
    {instruction : String} {actor : Json} {at? : Option DateTime} (settled : world.store.Settled)
    (readable : project.Readable) (valid : ∃ warnings, project.check = .ok warnings)
    (h : (saveRewritten project environment instruction actor at?).perform world =
      (.ok found, after)) :
    found.StoredAs project.id environment.name ∧
      after.store.tables.Match (writtenCopy world environment found) := by
  obtain ⟨stamp, note, -, rfl, written⟩ := perform_saveRewritten_eq_ok h
  refine ⟨?_, match_writeNoted settled written⟩
  exact {
    readable := readable_of_label readable environment stamp
    id := rfl
    environment := rfl
    valid }

theorem perform_rewritten_eq_ok [Machine] {prior made : Project} {instruction : String}
    {transform : Transform}
    (h : (rewritten prior instruction transform).perform world = (.ok made, after)) :
    ∃ reply parsed, transform prior.toJson instruction = .ok reply ∧
      answered prior reply = .ok parsed ∧
      made = keepingRecords prior (prior.repairIds parsed world.millis world.random).1 ∧
      (∃ warnings, made.check = .ok warnings) ∧
      ∃ random asked, after = { world with random, asked } := by
  obtain ⟨reply, mid, asking, h⟩ := Action.perform_bind_eq_ok.mp h
  rw [ask, Action.perform_bind_of_ok (Action.perform_modify _ _), Action.perform_ofExcept] at asking
  obtain ⟨replied, rfl⟩ := Prod.mk.inj asking
  rw [Action.perform_get_bind] at h
  obtain ⟨next, repairing, drawing⟩ := Action.perform_ofExcept_bind_eq_ok.mp h
  obtain ⟨parsed, read, -, rfl⟩ := repaired_eq_ok.mp repairing
  rw [Action.perform_draw_bind, Action.perform_ofExcept] at drawing
  obtain ⟨completing, rfl⟩ := Prod.mk.inj drawing
  obtain ⟨-, rfl, warnings, valid⟩ := completed_eq_ok.mp completing
  exact ⟨reply, parsed, mapError_eq_ok.mp replied, read, rfl, ⟨warnings, valid⟩, _, _, rfl⟩

theorem id_of_answered [Machine] {prior project : Project} {reply : Enhancement.Reply}
    (h : answered prior reply = .ok project) : project.id = prior.id := by
  obtain ⟨fields, -, same, read⟩ := answered_eq_ok.mp h
  exact (Json.str.inj (same.symm.trans (Project.id_of_ofJson read))).symm

theorem id_of_rewritten [Machine] {prior project : Project} {instruction : String}
    {transform : Transform}
    (h : (rewritten prior instruction transform).perform world = (.ok project, after)) :
    project.id = prior.id := by
  obtain ⟨reply, parsed, -, read, made, -⟩ := perform_rewritten_eq_ok h
  have id : parsed.id = prior.id := id_of_answered read
  rw [made]
  exact id

theorem readable_of_rewritten [Machine] {prior project : Project} {instruction : String}
    {transform : Transform} (readable : prior.Readable)
    (h : (rewritten prior instruction transform).perform world = (.ok project, after)) :
    project.Readable := by
  obtain ⟨reply, parsed, -, read, rfl, -⟩ := perform_rewritten_eq_ok h
  obtain ⟨fields, -, -, read⟩ := answered_eq_ok.mp read
  exact readable_keepingRecords readable
    (Project.readable_repairIds prior _ _ (Project.readable_of_ofJson read))

theorem exists_of_environmentOf {value : Json} {place? : Option Environment}
    (h : environmentOf value = .ok place?) (named : value ≠ .null) :
    ∃ environment, place? = some environment := by
  simp only [environmentOf] at h
  rcases read : Environment.ofJson value with _ | environment
  · rw [read] at h
    cases h
  · rw [read] at h
    cases h
    exact ⟨environment, rfl⟩

theorem environmentOf_eq_some {value : Json} {place : Environment} :
    environmentOf value = .ok (some place) ↔ value = .str place.name := by
  rw [← Environment.ofJson_eq_ok]
  cases value with
  | null => exact iff_of_false (fun h => by cases h) (fun h => by cases h)
  | _ =>
    simp only [environmentOf]
    constructor
    · intro h
      obtain ⟨found, read, same⟩ := map_eq_ok.mp h
      rw [read, Option.some.inj same]
    · intro h
      rw [h]
      rfl

theorem perform_enhance_eq_ok [Machine] {prior project : Project} {instruction : Json}
    {transform : Transform} {saves : Bool} {environment actor : Json} {at? : Option DateTime}
    (h : (enhance prior instruction transform saves environment actor at?).perform world =
      (.ok project, after)) :
    ∃ text made mid, instructionOf instruction = .ok text ∧
      (rewritten prior text transform).perform world = (.ok made, mid) ∧
      ((¬(saves = true ∧ environment ≠ .null) ∧ project = made ∧ after = mid) ∨
        ∃ place, saves = true ∧ environmentOf environment = .ok (some place) ∧
          (saveRewritten made place text actor at?).perform mid = (.ok project, after)) := by
  obtain ⟨text, instructed, labelling⟩ := Action.perform_ofExcept_bind_eq_ok.mp h
  obtain ⟨place?, label, making⟩ := Action.perform_ofExcept_bind_eq_ok.mp labelling
  obtain ⟨made, mid, rewriting, writing⟩ := Action.perform_bind_eq_ok.mp making
  refine ⟨text, made, mid, instructed, rewriting, ?_⟩
  split at writing
  · next saves place? place => exact .inr ⟨place, rfl, label, writing⟩
  · next saves place? other =>
    cases writing
    refine .inl ⟨fun both => ?_, rfl, rfl⟩
    obtain ⟨place, rfl⟩ := exists_of_environmentOf label both.2
    exact other place both.1 rfl

theorem id_of_enhance [Machine] {prior project : Project} {instruction : Json}
    {transform : Transform}
    {saves : Bool} {environment actor : Json} {at? : Option DateTime}
    (h : (enhance prior instruction transform saves environment actor at?).perform world =
      (.ok project, after)) : project.id = prior.id := by
  obtain ⟨text, made, mid, -, rewriting, ⟨-, rfl, -⟩ | ⟨place, -, -, writing⟩⟩ :=
    perform_enhance_eq_ok h
  · exact id_of_rewritten rewriting
  · have id := id_of_rewritten rewriting
    obtain ⟨stamp, note, -, rfl, -⟩ := perform_saveRewritten_eq_ok writing
    exact id

theorem readable_of_enhance [Machine] {prior project : Project} {instruction : Json}
    {transform : Transform}
    {saves : Bool} {environment actor : Json} {at? : Option DateTime} (readable : prior.Readable)
    (h : (enhance prior instruction transform saves environment actor at?).perform world =
      (.ok project, after)) : project.Readable := by
  obtain ⟨text, made, mid, -, rewriting, ⟨-, rfl, -⟩ | ⟨place, -, -, writing⟩⟩ :=
    perform_enhance_eq_ok h
  · exact readable_of_rewritten readable rewriting
  · obtain ⟨stamp, note, -, rfl, -⟩ := perform_saveRewritten_eq_ok writing
    exact readable_of_label (readable_of_rewritten readable rewriting) place stamp

theorem match_enhance [Machine] {prior project : Project} {instruction : Json}
    {transform : Transform}
    {saves : Bool} {environment actor : Json} {at? : Option DateTime}
    (settled : world.store.Settled) (readable : prior.Readable)
    (h : (enhance prior instruction transform saves environment actor at?).perform world =
      (.ok project, after)) :
    (¬(saves = true ∧ environment ≠ .null) ∧ after.store = world.store) ∨
      ∃ place mid, saves = true ∧ environmentOf environment = .ok (some place) ∧
        project.StoredAs prior.id place.name ∧ mid.store = world.store ∧
        after.store.tables.Match (writtenCopy mid place project) := by
  obtain ⟨text, made, mid, -, rewriting, unsaved | saved⟩ := perform_enhance_eq_ok h
  all_goals obtain ⟨-, -, -, -, -, valid, random, asked, rfl⟩ := perform_rewritten_eq_ok rewriting
  · obtain ⟨idle, -, rfl⟩ := unsaved
    exact .inl ⟨idle, rfl⟩
  · obtain ⟨place, saves, label, writing⟩ := saved
    have settled : ({ world with random, asked } : World).store.Settled := settled
    obtain ⟨stored, matching⟩ :=
      match_saveRewritten settled (readable_of_rewritten readable rewriting) valid writing
    rw [id_of_rewritten rewriting] at stored
    exact .inr ⟨place, _, saves, label, stored, rfl, matching⟩

/-! No operation changes where the tables are kept, or loses them -/

section

open Sitewright.Action (Within)
open World (Frame)

def SameBacking (before after : World) : Prop := after.store.backing = before.store.backing

instance : IsPreorder World SameBacking where
  refl _ := rfl
  trans _ _ _ first second := Eq.trans second first

/-- The tables are kept where they were, and they are there if they were. -/
structure Stands (before after : World) : Prop where
  backing : SameBacking before after
  lost : after.store.lost = before.store.lost

instance : IsPreorder World Stands where
  refl _ := ⟨rfl, rfl⟩
  trans _ _ _ first second := ⟨second.1.trans first.1, second.2.trans first.2⟩

variable {α : Type}

theorem sameBacking_of_frame {action : Action α} (h : Within Frame action) :
    Within SameBacking action := fun world => (h world).backing

theorem sameBacking_load [Machine] (projectId environment : String) :
    Within SameBacking (Store.load projectId environment) :=
  sameBacking_of_frame (Store.frame_load projectId environment)

theorem stands_of_frame {action : Action α} (h : Within Frame action) : Within Stands action :=
  fun world => ⟨(h world).backing, (h world).lost⟩

theorem stands_load [Machine] (projectId environment : String) :
    Within Stands (Store.load projectId environment) :=
  stands_of_frame (Store.frame_load projectId environment)

theorem stands_writeNoted (projectId : String) (environment : Environment)
    (known : Option DateTime) (project : Project) (note : Store.AuditNote) :
    Within Stands (writeNoted projectId environment known project note) :=
  stands_of_frame (Store.frame_transaction (frame_noteCopy _ _ _ _ _))

theorem stands_currentTime (given : Option DateTime) :
    Within Stands (currentTime given) := fun _ => ⟨rfl, rfl⟩

theorem stands_draw (next : Random → α × Random) :
    Within Stands (Action.draw next) := fun _ => ⟨rfl, rfl⟩

theorem stands_promote [Machine] (projectId : String) (target message actor : Json)
    (at? : Option DateTime) (limit : Int) :
    Within Stands (promote projectId target message actor at? limit) :=
  (Action.within_ofExcept _).bind fun _ => (Action.within_ofExcept _).bind fun _ =>
    Within.bind (stands_load _ _) fun _ => (Action.within_ofExcept _).bind fun _ =>
      (stands_currentTime at?).bind fun _ => (Action.within_ofExcept _).bind fun _ =>
        Action.within_get.bind fun _ => (stands_draw _).bind fun _ =>
          (Action.within_ofExcept _).bind fun _ =>
            (stands_of_frame (Store.frame_transaction (frame_noteDeployment _ _ _ _ _))).bind
              fun _ => Action.within_pure _

theorem stands_rewritten [Machine] (prior : Project) (instruction : String)
    (transform : Transform) :
    Within Stands (rewritten prior instruction transform) := by
  have asked : Within Stands (ask transform prior instruction) := by
    refine Within.bind ?_ fun _ => Action.within_ofExcept _
    exact fun _ => ⟨rfl, rfl⟩
  exact asked.bind fun _ => Action.within_get.bind fun _ => (Action.within_ofExcept _).bind fun _ =>
    (stands_draw _).bind fun _ => Action.within_ofExcept _

theorem stands_enhance [Machine] (prior : Project) (instruction : Json) (transform : Transform)
    (saves : Bool) (environment actor : Json) (at? : Option DateTime) :
    Within Stands (enhance prior instruction transform saves environment actor at?) := by
  refine (Action.within_ofExcept _).bind fun _ => (Action.within_ofExcept _).bind fun _ =>
    (stands_rewritten _ _ _).bind fun _ => ?_
  split
  · exact (stands_currentTime at?).bind fun _ => (Action.within_ofExcept _).bind fun _ =>
      (Action.within_ofExcept _).bind fun _ => (stands_writeNoted _ _ _ _ _).bind fun _ =>
        Action.within_pure _
  · exact Action.within_pure _

theorem stands_perform [Machine] (call : Call) : Within Stands call.perform := by
  have read (projectId : String) : Within Stands (getProject projectId) :=
    stands_load projectId _
  cases call with
  | create data actor at? =>
    exact ((stands_currentTime at?).bind fun _ => (Action.within_ofExcept _).bind fun _ =>
      (stands_writeNoted _ _ _ _ _).bind fun _ => Action.within_pure _).map _
  | save projectId environment data actor at? known =>
    exact ((Action.within_ofExcept _).bind fun _ => (stands_currentTime at?).bind fun _ =>
      (Action.within_ofExcept _).bind fun _ => (stands_writeNoted _ _ _ _ _).bind fun _ =>
        Action.within_pure _).map _
  | promote => exact (stands_promote _ _ _ _ _ _).bind fun _ => Action.within_pure _
  | enhance => exact (stands_enhance _ _ _ _ _ _ _).map _
  | delete projectId actor =>
    exact (stands_of_frame (Store.frame_transaction (frame_noteDeletion _ _))).bind fun _ =>
      Action.within_pure _
  | get projectId => exact (read projectId).map _
  | load projectId environment =>
    exact ((Action.within_ofExcept _).bind fun _ => stands_load _ _).map _
  | deployments projectId => exact ((read projectId).bind fun _ => Action.within_pure _).map _
  | list =>
    exact (stands_of_frame (Store.frame_readTables.bind fun _ =>
      Action.within_get.bind fun _ => Action.within_pure _)).bind fun _ => Action.within_pure _

theorem sameBacking_perform [Machine] (call : Call) : Within SameBacking call.perform :=
  fun world => (stands_perform call world).backing

end

namespace Call

def MayWrite (projectId : String) (environment : Environment) : Call → Prop
  | .create data _ _ =>
    Fields.value (data.asObject?.getD []) "id" = .str projectId ∧ environment = .builder
  | .save id place _ _ _ _ => id = projectId ∧ Environment.ofJson place = .ok environment
  | .enhance prior _ _ saves place _ _ =>
    prior.id = projectId ∧ saves = true ∧ environmentOf place = .ok (some environment)
  | .promote id _ _ _ _ _ | .delete id _ => id = projectId
  | _ => False

/-- The project that a call is about, be it named by the call, by the data it is given or by the
project that is to be enhanced. -/
def IsOn (projectId : String) : Call → Prop
  | .create data _ _ => Fields.value (data.asObject?.getD []) "id" = .str projectId
  | .enhance prior _ _ _ _ _ _ => prior.id = projectId
  | .save id _ _ _ _ _ | .promote id _ _ _ _ _ | .delete id _ | .get id | .load id _
  | .deployments id => id = projectId
  | .list => False

/-- The tables that a call leaves behind, but for the trail. -/
inductive Wrote [Machine] (world : World) : Call → Tables → Prop
  | nothing {call : Call} : Wrote world call world.store.tables
  | copy {call : Call} {mid : World} {environment : Environment} {project : Project} :
    mid.store = world.store → project.StoredAs project.id environment.name →
    call.MayWrite project.id environment →
    Wrote world call (writtenCopy mid environment project)
  | deployment {projectId : String} {target message actor : Json} {at? : Option DateTime}
    {limit : Int} {mid : World} {goal : Target} {deployed synced : Project} :
    mid.store = world.store → deployed.StoredAs projectId goal.name →
    synced.StoredAs projectId Environment.builder.name →
    Wrote world (.promote projectId target message actor at? limit)
      (writtenDeployment mid goal deployed synced)
  | deletion {projectId : String} {actor : Json} :
    (world.store.tables.entryOf? projectId).isSome →
    Wrote world (.delete projectId actor) (world.store.tables.without projectId)

theorem wrote_perform [Machine] {call : Call} {answer : Json} (settled : world.store.Settled)
    (sound : world.Sound) (prior : call.HasReadPrior)
    (h : call.perform.perform world = (.ok answer, after)) :
    ∃ tables, call.Wrote world tables ∧ after.store.tables.Match tables := by
  have looked {α : Type} {action : Action α} {a : α}
      (unchanged : Action.Within Store.Unchanged action)
      (performed : action.perform world = (.ok a, after)) :
      ∃ tables, call.Wrote world tables ∧ after.store.tables.Match tables := by
    have same := unchanged world settled
    rw [performed] at same
    have same : after.store = world.store := same
    exact ⟨_, .nothing, same ▸ ⟨rfl, rfl⟩⟩
  cases call with
  | create data actor at? =>
    obtain ⟨project, performed, -⟩ := Action.perform_map_eq_ok.mp h
    obtain ⟨⟨time, made⟩, matching⟩ := match_createProject settled performed
    exact ⟨_, .copy rfl (storedAs_of_created made) ⟨id_of_created made, rfl⟩, matching⟩
  | save projectId environment data actor at? known =>
    obtain ⟨project, performed, -⟩ := Action.perform_map_eq_ok.mp h
    obtain ⟨place, label, stored, matching⟩ := match_saveCopy settled performed
    obtain rfl := stored.id
    exact ⟨_, .copy rfl stored ⟨rfl, label⟩, matching⟩
  | promote projectId target message actor at? limit =>
    obtain ⟨deployment, _, performed, answered⟩ := Action.perform_bind_eq_ok.mp h
    cases answered
    obtain ⟨builder, mid, promotes, -, same, matching⟩ := match_promote settled sound performed
    exact ⟨_, .deployment same (promotes.storedAs _) (promotes.storedAs _), matching⟩
  | enhance prior' instruction transform saves environment actor at? =>
    obtain ⟨project, performed, -⟩ := Action.perform_map_eq_ok.mp h
    obtain ⟨data, read⟩ := prior
    obtain ⟨-, same⟩ | ⟨place, mid, saving, label, stored, same, matching⟩ :=
      match_enhance settled (Project.readable_of_ofJson read) performed
    · exact ⟨_, .nothing, same ▸ ⟨rfl, rfl⟩⟩
    · have id := stored.id
      exact ⟨_, .copy same (id ▸ stored) ⟨id.symm, saving, label⟩, matching⟩
  | delete projectId actor =>
    obtain ⟨_, _, performed, answered⟩ := Action.perform_bind_eq_ok.mp h
    cases answered
    obtain ⟨known, matching⟩ := match_deleteProject settled performed
    exact ⟨_, .deletion known, matching⟩
  | get projectId => exact looked ((unchanged_getProject projectId).map _) h
  | load projectId environment => exact looked ((unchanged_loadCopy projectId environment).map _) h
  | deployments projectId => exact looked ((unchanged_deployments projectId).map _) h
  | list => exact looked (Store.unchanged_catalogue.bind fun _ => Action.within_pure _) h

/-- A call that fails has written nothing. -/
theorem exists_wrote [Machine] {call : Call} (settled : world.store.Settled) (sound : world.Sound)
    (prior : call.HasReadPrior) :
    ∃ tables, call.Wrote world tables ∧
      (call.perform.perform world).2.store.tables.Match tables := by
  have failed := (call.atomic_perform world settled).2
  rcases performed : call.perform.perform world with ⟨error | answer, after⟩
  · rw [performed] at failed
    exact ⟨_, .nothing, failed error rfl ▸ ⟨rfl, rfl⟩⟩
  · exact wrote_perform settled sound prior performed

end Call

end Sitewright.Operation
