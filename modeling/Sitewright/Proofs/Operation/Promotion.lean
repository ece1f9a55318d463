import Sitewright.Proofs.Operation.Copying
import Sitewright.Proofs.Operation.History

namespace Sitewright

open Store (Tables)
open Time (DateTime)

namespace Store.Tables

def project? [Machine] (tables : Tables) (projectId environment : String) : Option Project :=
  (tables.document? projectId environment).bind fun document => (Project.ofJson document).toOption

variable {tables : Tables} {projectId environment : String} {project : Project}

theorem project?_of_document? [Machine]
    (found : tables.document? projectId environment = some project.toJson)
    (readable : project.Readable) : tables.project? projectId environment = some project := by
  rw [project?, found, Option.bind_some, Project.ofJson_toJson readable]
  rfl

theorem exists_of_copy? [Machine] {copy : Copy} (sound : tables.Sound)
    (found : tables.copy? projectId environment = some copy) :
    ∃ project : Project, copy.document = project.toJson ∧
      tables.project? projectId environment = some project ∧
      project.StoredAs projectId environment := by
  obtain ⟨project, written, stored⟩ := sound copy (mem_of_copy? found)
  obtain ⟨rfl, rfl⟩ := isOf_of_copy? found
  refine ⟨project, written, project?_of_document? ?_ stored.readable, stored⟩
  rw [document?, found, Option.map_some, written]

theorem of_project?_eq_some [Machine] (sound : tables.Sound)
    (found : tables.project? projectId environment = some project) :
    tables.document? projectId environment = some project.toJson ∧
      project.StoredAs projectId environment := by
  obtain ⟨document, there, -⟩ := Option.bind_eq_some_iff.mp found
  obtain ⟨copy, stands, rfl⟩ := Option.map_eq_some_iff.mp there
  obtain ⟨other, written, found', stored⟩ := exists_of_copy? sound stands
  obtain rfl : other = project := Option.some.inj (found'.symm.trans found)
  exact ⟨written ▸ there, stored⟩

theorem copy?_eq_none_iff [Machine] (sound : tables.Sound) :
    tables.copy? projectId environment = none ↔
      tables.project? projectId environment = none := by
  constructor
  · intro none
    rw [project?, document?, none]
    rfl
  · intro none
    rcases found : tables.copy? projectId environment with _ | copy
    · rfl
    · obtain ⟨project, -, there, -⟩ := exists_of_copy? sound found
      rw [none] at there
      cases there

end Store.Tables

namespace Environment

@[simp] theorem checkPromotion_name (goal : Target) :
    checkPromotion builder.name (.str goal.name) = .ok goal := by
  cases goal <;> decide

theorem checkPromotion_of_ne {target : Json} (h : ∀ goal : Target, target ≠ .str goal.name) :
    checkPromotion builder.name target = .error .environmentInvalid := by
  have unknown : target.asText?.bind Target.ofName? = none := by
    cases target with
    | str s =>
      refine Option.eq_none_iff_forall_ne_some.mpr fun goal found => h goal ?_
      rw [Target.name_of_ofName? found]
    | _ => rfl
  rw [checkPromotion, unknown]

end Environment

namespace Operation

variable {world : World} {projectId : String} {target : Json} {limit : Int} {goal : Target}
  {builder : Project}

/-! What a promotion lacks -/

/-- A promotion is refused, and for what: the first of the things that it lacks. -/
inductive Refuses [Machine] (tables : Tables) (projectId : String) (target : Json) (limit : Int) :
    Error → Prop
  | limit : limit < 1 → Refuses tables projectId target limit .historyLimitTooLow
  | target : 1 ≤ limit → (∀ goal : Target, target ≠ .str goal.name) →
    Refuses tables projectId target limit .environmentInvalid
  | copy {goal : Target} : 1 ≤ limit → target = .str goal.name →
    tables.copy? projectId Environment.builder.name = none →
    Refuses tables projectId target limit .builderCopyMissing
  | pages {goal : Target} {builder : Project} : 1 ≤ limit → target = .str goal.name →
    tables.project? projectId Environment.builder.name = some builder → builder.pages = [] →
    Refuses tables projectId target limit .noPages

structure Promotable [Machine] (tables : Tables) (projectId : String) (target : Json) (limit : Int)
    (goal : Target) (builder : Project) : Prop where
  limit : 1 ≤ limit
  target : target = .str goal.name
  copy : tables.project? projectId Environment.builder.name = some builder
  pages : builder.pages ≠ []

theorem refuses_or_promotable [Machine] {tables : Tables} (sound : tables.Sound)
    (projectId : String) (target : Json) (limit : Int) :
    (∃ error, Refuses tables projectId target limit error) ∨
      ∃ goal builder, Promotable tables projectId target limit goal builder := by
  by_cases low : limit < 1
  · exact .inl ⟨_, .limit low⟩
  have enough := Int.not_lt.mp low
  by_cases known : ∀ goal : Target, target ≠ .str goal.name
  · exact .inl ⟨_, .target enough known⟩
  obtain ⟨goal, named⟩ := not_forall.mp known
  have named := not_not.mp named
  rcases found : tables.project? projectId Environment.builder.name with _ | builder
  · exact .inl ⟨_, .copy enough named ((Tables.copy?_eq_none_iff sound).mpr found)⟩
  by_cases empty : builder.pages = []
  · exact .inl ⟨_, .pages enough named found empty⟩
  · exact .inr ⟨goal, builder, enough, named, found, empty⟩

theorem checkHistoryLimit_of_le (enough : 1 ≤ limit) : checkHistoryLimit limit = .ok () :=
  if_neg (Int.not_lt.mpr enough)

theorem shallow_recorded_recordOf [Machine] {metadata : Metadata} (h : metadata.Shallow)
    (id : String)
    (goal : Target) (deployedAt : String) {message actor : Json} (plain : actor.nesting = 1)
    (plain' : message.nesting = 1) (limit : Nat) :
    (recorded metadata (recordOf id goal deployedAt message actor) limit).Shallow := by
  refine shallow_recorded h ?_ limit
  have said := Json.nesting_orElse_le message (.str ("Deployed to " ++ goal.name))
  have := Machine.roomy
  rw [plain', Json.nesting_str] at said
  simp only [DeploymentRecord.copyCalls_eq, recordOf, plain]
  omega

theorem perform_writeDeployment (h : world.store.Working) (target : Target)
    {deployed synced : Project} (same : synced.id = deployed.id) {note : Store.AuditNote}
    (storable : Storable note.actor) :
    ∃ after, (writeDeployment deployed.id target deployed synced note).perform world =
      (.ok (), after) := by
  obtain ⟨mid, performed, -⟩ := perform_noteDeployment (h.withDepth (world.store.depth + 1))
    (fun _ => Nat.succ_ne_zero _) target same storable
  obtain ⟨after, written, -⟩ := Store.perform_transaction_of_ok
    (frame_noteDeployment deployed.id target deployed synced note) h.toReady performed
  exact ⟨after, written⟩

section

variable [Machine] (settled : world.store.Settled) (sound : world.Sound)

include settled sound

theorem perform_loadBuilder
    (found : world.store.tables.project? projectId Environment.builder.name = some builder)
    (other : Error) :
    ((Store.load projectId Environment.builder.name).mapError (insteadOfNotFound other)).perform
      world = (.ok builder, world) := by
  obtain ⟨document, stored⟩ := Tables.of_project?_eq_some sound.tables found
  obtain ⟨copy, there, written⟩ := Option.map_eq_some_iff.mp document
  rw [Action.perform_mapError, Store.perform_load settled sound.present there
    (written ▸ Project.ofJson_toJson stored.readable)]
  rfl

theorem perform_promote_of_refuses {error : Error}
    (refuses : Refuses world.store.tables projectId target limit error) (message actor : Json)
    (at? : Option DateTime) :
    (promote projectId target message actor at? limit).perform world = (.error error, world) := by
  cases refuses with
  | limit low =>
    have refused : checkHistoryLimit limit = .error .historyLimitTooLow := if_pos low
    rw [promote, refused]
    rfl
  | target enough unknown =>
    rw [promote, checkHistoryLimit_of_le enough, Action.ofExcept_ok_bind,
      Environment.checkPromotion_of_ne unknown]
    rfl
  | copy enough named none =>
    rw [promote, checkHistoryLimit_of_le enough, Action.ofExcept_ok_bind, named,
      Environment.checkPromotion_name, Action.ofExcept_ok_bind, Action.perform_bind_of_error]
    rw [Action.perform_mapError, Store.perform_load_of_none settled sound.present none]
    rfl
  | pages enough named found empty =>
    rw [promote, checkHistoryLimit_of_le enough, Action.ofExcept_ok_bind, named,
      Environment.checkPromotion_name, Action.ofExcept_ok_bind,
      Action.perform_bind_of_ok (perform_loadBuilder settled sound found _),
      Project.checkWithPages, empty]
    rfl

theorem perform_promote_of_promotable (copyable : world.store.tables.Copyable)
    (working : world.store.Working)
    (promotable : Promotable world.store.tables projectId target limit goal builder)
    {message actor : Json} (storable : Storable actor) (plain : actor.nesting = 1)
    (plain' : message.nesting = 1) {at? : Option DateTime} {deployedAt : String}
    (stamped : stampOf (at?.getD world.now) = .ok deployedAt) :
    ∃ id after, (promote projectId target message actor at? limit).perform world =
      (.ok { projectId, record := recordOf id goal deployedAt message actor }, after) := by
  obtain ⟨enough, rfl, found, pages⟩ := promotable
  obtain ⟨document, stored⟩ := Tables.of_project?_eq_some sound.tables found
  obtain ⟨warnings, valid⟩ : ∃ warnings, builder.checkWithPages = .ok warnings := by
    rw [Project.checkWithPages, if_neg (mt List.isEmpty_iff.mp pages)]
    exact stored.valid
  rw [promote, checkHistoryLimit_of_le enough, Action.ofExcept_ok_bind,
    Environment.checkPromotion_name, Action.ofExcept_ok_bind,
    Action.perform_bind_of_ok (perform_loadBuilder settled sound found _), valid,
    Action.ofExcept_ok_bind, perform_currentTime_bind, stamped, Action.ofExcept_ok_bind,
    Action.perform_get_bind, Action.perform_draw_bind]
  generalize Identifier.freshDeployment world.millis world.random = drawn
  refine ⟨drawn.1, ?_⟩
  have copyable : builder.Copyable := copyable projectId _ builder stored.readable document
  have shallow := shallow_recorded_recordOf copyable.shallow drawn.1 goal deployedAt plain plain'
    limit.toNat
  have storable : Storable (recordOf drawn.1 goal deployedAt message actor).deployedBy := storable
  have target : (recordOf drawn.1 goal deployedAt message actor).target = goal := rfl
  dsimp only
  generalize recordOf drawn.1 goal deployedAt message actor = record at shallow storable target
  obtain rfl := target
  rw [copiesOf_eq_ok.mpr ⟨⟨copyable, copyable.withMetadata shallow⟩, rfl⟩,
    Action.ofExcept_ok_bind]
  generalize recorded builder.metadata record limit.toNat = metadata
  obtain rfl := stored.id
  obtain ⟨after, written⟩ := @perform_writeDeployment { world with random := drawn.2 } working
    record.target (asCopy builder metadata record.target.environment)
    (asCopy builder metadata .builder) rfl (promoteNote builder.id record) storable
  exact ⟨after, Action.perform_bind_of_ok written⟩

end

/-! What a promotion leaves behind -/

theorem getLast?_newest_concat {α : Type} {limit : Nat} (positive : 1 ≤ limit) (records : List α)
    (record : α) : (newest limit (records ++ [record])).getLast? = some record := by
  rw [newest, List.drop_append_of_le_length, List.getLast?_concat]
  rw [List.length_append, List.length_singleton]
  omega

structure HasRecorded (builder : Project) (record : DeploymentRecord) (limit : Int)
    (copy : Project) : Prop where
  id : copy.id = builder.id
  name : copy.name = builder.name
  pages : copy.pages = builder.pages
  createdAt : copy.metadata.createdAt = builder.metadata.createdAt
  extra : copy.metadata.extra = builder.metadata.extra
  updatedAt : copy.metadata.updatedAt = .str record.deployedAt
  history : copy.metadata.history <:+ builder.metadata.history ++ [record]
  length : (copy.metadata.history.length : Int) = min limit (builder.metadata.history.length + 1)
  last : copy.metadata.history.getLast? = some record
  lastDeployment (name : String) : copy.metadata.lastDeployment.get? name =
    if name = record.target.name then some (.str record.deployedAt)
    else builder.metadata.lastDeployment.get? name

theorem hasRecorded_promoted (positive : 1 ≤ limit) (builder : Project) (record : DeploymentRecord)
    (environment : Environment) :
    HasRecorded builder record limit (promoted builder record limit environment) where
  id := rfl
  name := rfl
  pages := rfl
  createdAt := rfl
  extra := rfl
  updatedAt := rfl
  history := List.drop_suffix _ _
  length := by
    rw [history_promoted, length_newest, List.length_append, List.length_singleton]
    omega
  last := getLast?_newest_concat (by omega) _ _
  lastDeployment name := by
    rw [lastDeployment_promoted]
    split
    · next same => rw [same, Fields.get?_put_self]
    · next differ => rw [Fields.get?_put_of_ne _ _ differ]

@[simp] theorem inEnvironment_promoted (builder : Project) (record : DeploymentRecord) (limit : Int)
    (environment : Environment) :
    (promoted builder record limit .builder).inEnvironment environment =
      promoted builder record limit environment := rfl

structure Leaves [Machine] (backing : Store.Backing) (before after : Tables) (projectId : String)
    (goal : Target) (synced deployed : Project) : Prop where
  builder : after.project? projectId Environment.builder.name = some synced
  environment : synced.metadata.environment = .str Environment.builder.name
  target : after.project? projectId goal.name = some deployed
  alike : deployed.toJson.Alike (synced.inEnvironment goal.environment).toJson
  same_iff : deployed = synced.inEnvironment goal.environment ↔
    (backing = .database → ¬Json.Blurred (before.document? projectId goal.name)
      (some (synced.inEnvironment goal.environment).toJson))
  others (id environment : String) :
    ¬(id = projectId ∧ (environment = Environment.builder.name ∨ environment = goal.name)) →
    after.copy? id environment = before.copy? id environment

theorem leaves_of_promote [Machine] {message? actor? : Option String} {at? : Option DateTime}
    {deployment : Deployment} {after : World} (reached : Reachable world)
    (performed : (promote projectId target (.ofText? message?) (.ofText? actor?) at?
      limit).perform world = (.ok deployment, after)) :
    ∃ builder synced deployed,
      world.store.tables.project? projectId Environment.builder.name = some builder ∧
      HasRecorded builder deployment.record limit synced ∧
      Leaves world.store.backing world.store.tables after.store.tables projectId
        deployment.record.target synced deployed := by
  obtain ⟨builder, mid, promotes, ⟨id, deployedAt, made⟩, same, matching⟩ :=
    match_promote (settled_of_reachable reached) (sound_of_reachable reached) performed
  have worded : Worded deployment.record := made ▸ worded_recordOf _ _ _ _ _
  generalize deployment.record = record at promotes worded matching ⊢
  have id : (promoted builder record limit record.target.environment).id = projectId :=
    promotes.builder.id
  have one : (promoted builder record limit .builder).id =
      (promoted builder record limit record.target.environment).id := rfl
  have synced : after.store.tables.document? projectId Environment.builder.name =
      some (promoted builder record limit .builder).toJson := by
    rw [matching.document?_eq, document?_writtenDeployment _ one, if_pos ⟨id, rfl⟩, same,
      promotes.document, promotes.kept_toJson worded]
  have target := matching.document?_eq projectId record.target.name
  rw [document?_writtenDeployment _ one,
    if_neg fun both => record.target.name_ne_builder both.2.symm, if_pos ⟨id, rfl⟩, same] at target
  obtain ⟨copy, there, written⟩ := Option.map_eq_some_iff.mp target
  obtain ⟨deployed, document, found, stored⟩ :=
    Tables.exists_of_copy? (sound_of_reachable (reached.promote performed)).tables there
  have kept := written.symm.trans document
  refine ⟨builder, promoted builder record limit .builder, deployed,
    Tables.project?_of_document? promotes.document promotes.builder.readable,
    hasRecorded_promoted promotes.limit _ _ _, ?_⟩
  exact {
    builder := Tables.project?_of_document? synced (promotes.storedAs .builder).readable
    environment := rfl
    target := found
    alike := kept ▸ Store.alike_kept _ _ _
    same_iff := by
      have readable := (promotes.storedAs record.target.environment).readable
      rw [inEnvironment_promoted, ← Project.toJson_inj stored.readable readable, ← kept,
        Store.kept_eq_iff]
    others := by
      intro other place apart
      rw [matching.copy?_eq, copy?_writtenDeployment_of_ne one, same]
      rwa [id] }

end Operation

end Sitewright
