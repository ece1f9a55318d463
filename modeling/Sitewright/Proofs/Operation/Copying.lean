import Sitewright.Proofs.Document.Copying
import Sitewright.Proofs.Operation.Outcome

/-!
Every copy that is written has been copied itself, so that no part of it is nested deeper than can
be copied again. A deployment of what is stored never fails for that.
-/

namespace Sitewright

open Store (Tables withTables)
open Time (DateTime)

namespace Store

def Tables.Copyable [Machine] (tables : Tables) : Prop :=
  ∀ projectId environment (project : Project), project.Readable →
    tables.document? projectId environment = some project.toJson → project.Copyable

namespace Tables

theorem Match.copyable [Machine] {a b : Tables} (h : a.Match b) (k : b.Copyable) : a.Copyable := by
  intro projectId environment project readable found
  rw [h.document?_eq] at found
  exact k projectId environment project readable found

theorem Copyable.without [Machine] {tables : Tables} (h : tables.Copyable) (projectId : String) :
    (tables.without projectId).Copyable := fun id environment project readable found =>
  h id environment project readable (document?_of_without found)

end Tables

theorem kept_cases (backing : Backing) (old? : Option Json) (new : Json) :
    kept backing old? new = new ∨ old? = some (kept backing old? new) := by
  cases old? with
  | none => exact .inl rfl
  | some old =>
    simp only [kept]
    split
    · exact .inr rfl
    · exact .inl rfl

theorem copyable_of_kept [Machine] {tables : Tables} {projectId environment : String}
    {project found : Project} {backing : Backing} (h : tables.Copyable) (k : project.Copyable)
    (readable : project.Readable) (readable' : found.Readable)
    (there : some (kept backing (tables.document? projectId environment) project.toJson) =
      some found.toJson) : found.Copyable := by
  have there := Option.some.inj there
  rcases kept_cases backing (tables.document? projectId environment) project.toJson with new | old
  · rwa [← (Project.toJson_inj readable readable').mp (new.symm.trans there)]
  · exact h projectId environment found readable' (old.trans (congrArg some there))

end Store

namespace Operation

variable {world after : World}

theorem copyable_writtenCopy [Machine] (h : world.store.tables.Copyable) (environment : Environment)
    {project : Project} (readable : project.Readable) (k : project.Copyable) :
    (writtenCopy world environment project).Copyable := by
  intro projectId place other readable' found
  rw [document?_writtenCopy] at found
  split at found
  · exact Store.copyable_of_kept h k readable readable' found
  · exact h projectId place other readable' found

theorem copyable_writtenDeployment [Machine] (h : world.store.tables.Copyable) (target : Target)
    {deployed synced : Project} (same : synced.id = deployed.id) (readable : deployed.Readable)
    (readable' : synced.Readable) (k : deployed.Copyable) (l : synced.Copyable) :
    (writtenDeployment world target deployed synced).Copyable := by
  intro projectId place other known found
  rw [document?_writtenDeployment target same] at found
  split at found
  · exact Store.copyable_of_kept h l readable' known found
  split at found
  · exact Store.copyable_of_kept h k readable known found
  · exact h projectId place other known found

/-! What is made to be written -/

theorem copyable_str [Machine] (s : String) : 10 + 2 * (Json.str s).nesting ≤ Machine.calls := by
  have := Machine.roomy
  rw [Json.nesting_str]
  omega

theorem shallow_labelled [Machine] {metadata : Metadata} (h : metadata.Shallow)
    (environment : Environment) (stamp : String) : (labelled environment stamp metadata).Shallow :=
  { h with
    environment := copyable_str _
    updatedAt := copyable_str _ }

theorem shallow_relabelled [Machine] {metadata : Metadata} (h : metadata.Shallow)
    (environment : Environment) : (relabelled environment metadata).Shallow :=
  { h with environment := copyable_str _ }

theorem shallow_withCreation [Machine] {metadata : Metadata} (h : metadata.Shallow)
    (stamp : String) :
    (withCreation stamp metadata).Shallow :=
  { h with
    createdAt := by
      have := Json.nesting_orElse_le metadata.createdAt (.str stamp)
      have := h.createdAt
      have := copyable_str stamp
      simp only [withCreation]
      omega }

theorem shallow_recorded [Machine] {metadata : Metadata} {record : DeploymentRecord}
    (h : metadata.Shallow) (k : 12 + record.copyCalls ≤ Machine.calls) (limit : Nat) :
    (recorded metadata record limit).Shallow :=
  { h with
    updatedAt := copyable_str _
    lastDeployment := by
      have put := Json.fieldsNesting_put_le metadata.lastDeployment record.target.name
        (.str record.deployedAt)
      have last := h.lastDeployment
      have := Machine.roomy
      simp only [recorded, Json.nesting] at put last ⊢
      omega
    history := by
      intro other there
      rcases List.mem_append.mp (mem_of_mem_newest there) with old | new
      · exact h.history other old
      · rwa [List.mem_singleton.mp new] }

theorem copyable_of_stamped [Machine] {project found : Project} {time : DateTime}
    {change : String → Metadata → Metadata} (h : stamped project time change = .ok found)
    (changed : ∀ stamp, project.metadata.Shallow → (change stamp project.metadata).Shallow) :
    found.Copyable := by
  obtain ⟨stamp, -, copying⟩ := bind_eq_ok.mp h
  obtain ⟨copy, copied, checking⟩ := bind_eq_ok.mp copying
  obtain ⟨warnings, -, answered⟩ := bind_eq_ok.mp checking
  cases answered
  obtain ⟨copyable, rfl⟩ := Project.eq_of_withMetadata_ok copied
  exact copyable.withMetadata (changed stamp copyable.shallow)

theorem copyable_of_created [Machine] {data : Json} {time : DateTime} {project : Project}
    (h : created data time = .ok project) : project.Copyable := by
  simp only [created] at h
  split at h
  · obtain ⟨read, made, h⟩ := bind_eq_ok.mp h
    exact copyable_of_stamped h fun stamp shallow =>
      shallow_labelled (shallow_withCreation shallow stamp) _ stamp
  · cases h

theorem copyable_of_replacement [Machine] {projectId : String} {environment : Environment}
    {data : Json} {time : DateTime} {project : Project}
    (h : replacement projectId environment data time = .ok project) : project.Copyable := by
  simp only [replacement] at h
  split at h
  · cases h
  split at h
  · cases h
  obtain ⟨read, made, h⟩ := bind_eq_ok.mp h
  exact copyable_of_stamped h fun stamp shallow => shallow_labelled shallow environment stamp

theorem copyable_of_saveCopy [Machine] {projectId : String} {environment data actor : Json}
    {at? known : Option DateTime} {project : Project}
    (h : (saveCopy projectId environment data actor at? known).perform world =
      (.ok project, after)) : project.Copyable := by
  obtain ⟨place, -, saving⟩ := Action.perform_ofExcept_bind_eq_ok.mp h
  rw [perform_currentTime_bind] at saving
  obtain ⟨made, valid, writing⟩ := Action.perform_ofExcept_bind_eq_ok.mp saving
  obtain ⟨_, _, -, answered⟩ := Action.perform_bind_eq_ok.mp writing
  cases answered
  exact copyable_of_replacement valid

theorem copyable_of_promote [Machine] {projectId : String} {target message actor : Json}
    {at? : Option DateTime} {limit : Int} {deployment : Deployment} {builder : Project}
    (settled : world.store.Settled) (sound : world.Sound)
    (promotes : Promotes world projectId limit builder deployment.record)
    (h : (promote projectId target message actor at? limit).perform world =
      (.ok deployment, after)) (environment : Environment) :
    (promoted builder deployment.record limit environment).Copyable := by
  obtain ⟨_, -, h⟩ := Action.perform_ofExcept_bind_eq_ok.mp h
  obtain ⟨goal, -, h⟩ := Action.perform_ofExcept_bind_eq_ok.mp h
  obtain ⟨loaded, mid, loading, promoting⟩ := Action.perform_bind_eq_ok.mp h
  obtain ⟨rfl, document, stored⟩ :=
    Store.perform_load_eq_ok settled sound (Action.perform_mapError_eq_ok.mp loading)
  obtain ⟨_, -, recording⟩ := Action.perform_ofExcept_bind_eq_ok.mp promoting
  rw [perform_currentTime_bind] at recording
  obtain ⟨stamp, -, drawing⟩ := Action.perform_ofExcept_bind_eq_ok.mp recording
  rw [Action.perform_get_bind, Action.perform_draw_bind] at drawing
  obtain ⟨copies, copied, writing⟩ := Action.perform_ofExcept_bind_eq_ok.mp drawing
  obtain ⟨⟨-, copyable⟩, rfl⟩ := copiesOf_eq_ok.mp copied
  obtain ⟨_, _, -, answered⟩ := Action.perform_bind_eq_ok.mp writing
  cases answered
  obtain rfl : loaded = builder :=
    (Project.toJson_inj stored.readable promotes.builder.readable).mp
      (Option.some.inj (document.symm.trans promotes.document))
  exact copyable.withMetadata (shallow_relabelled copyable.shallow environment)

theorem copyable_of_saveRewritten [Machine] {project found : Project} {environment : Environment}
    {instruction : String} {actor : Json} {at? : Option DateTime}
    (h : (saveRewritten project environment instruction actor at?).perform world =
      (.ok found, after)) : found.Copyable := by
  rw [saveRewritten, perform_currentTime_bind] at h
  obtain ⟨stamp, -, h⟩ := Action.perform_ofExcept_bind_eq_ok.mp h
  obtain ⟨copy, copied, writing⟩ := Action.perform_ofExcept_bind_eq_ok.mp h
  obtain ⟨copyable, rfl⟩ := Project.eq_of_withMetadata_ok copied
  obtain ⟨_, _, -, answered⟩ := Action.perform_bind_eq_ok.mp writing
  cases answered
  exact copyable.withMetadata (shallow_labelled copyable.shallow environment stamp)

theorem copyable_of_enhance [Machine] {prior project : Project} {instruction : Json}
    {transform : Transform} {saves : Bool} {environment actor : Json} {at? : Option DateTime}
    (h : (enhance prior instruction transform saves environment actor at?).perform world =
      (.ok project, after)) (saving : saves = true) (named : environment ≠ .null) :
    project.Copyable := by
  obtain ⟨text, made, mid, -, -, ⟨idle, -⟩ | ⟨place, -, -, writing⟩⟩ := perform_enhance_eq_ok h
  · exact absurd ⟨saving, named⟩ idle
  · exact copyable_of_saveRewritten writing

/-! What is stored -/

namespace Call

theorem copyable_perform [Machine] (call : Call) (settled : world.store.Settled)
    (sound : world.Sound) (prior : call.HasReadPrior) (copyable : world.store.tables.Copyable) :
    (call.perform.perform world).2.store.tables.Copyable := by
  have looked {α : Type} {action : Action α} (unchanged : Action.Within Store.Unchanged action) :
      (action.perform world).2.store.tables.Copyable := by
    rw [unchanged world settled]
    exact copyable
  have failed := (call.atomic_perform world settled).2
  rcases performed : call.perform.perform world with ⟨error | answer, after⟩
  · rw [performed] at failed
    rw [failed error rfl]
    exact copyable
  cases call with
  | create data actor at? =>
    obtain ⟨project, created, -⟩ := Action.perform_map_eq_ok.mp performed
    obtain ⟨⟨time, made⟩, matching⟩ := match_createProject settled created
    exact matching.copyable (copyable_writtenCopy copyable _ (storedAs_of_created made).readable
      (copyable_of_created made))
  | save projectId environment data actor at? known =>
    obtain ⟨project, saved, -⟩ := Action.perform_map_eq_ok.mp performed
    obtain ⟨place, -, stored, matching⟩ := match_saveCopy settled saved
    exact matching.copyable (copyable_writtenCopy copyable _ stored.readable
      (copyable_of_saveCopy saved))
  | promote projectId target message actor at? limit =>
    obtain ⟨deployment, _, promoted, answered⟩ := Action.perform_bind_eq_ok.mp performed
    cases answered
    obtain ⟨builder, mid, promotes, -, same, matching⟩ := match_promote settled sound promoted
    have copied := copyable_of_promote settled sound promotes promoted
    exact matching.copyable (copyable_writtenDeployment (same ▸ copyable) _ rfl
      (promotes.storedAs _).readable (promotes.storedAs _).readable (copied _) (copied _))
  | enhance prior' instruction transform saves environment actor at? =>
    obtain ⟨project, enhanced, -⟩ := Action.perform_map_eq_ok.mp performed
    obtain ⟨data, read⟩ := prior
    have readable := Project.readable_of_ofJson read
    obtain ⟨-, same⟩ | ⟨place, mid, saving, label, stored, same, matching⟩ :=
      match_enhance settled readable enhanced
    · rw [same]
      exact copyable
    · have named : environment ≠ .null := by
        rintro rfl
        cases label
      exact matching.copyable (copyable_writtenCopy (same ▸ copyable) _ stored.readable
        (copyable_of_enhance enhanced saving named))
  | delete projectId actor =>
    obtain ⟨_, _, deleted, answered⟩ := Action.perform_bind_eq_ok.mp performed
    cases answered
    obtain ⟨-, matching⟩ := match_deleteProject settled deleted
    exact matching.copyable (copyable.without projectId)
  | get projectId => exact performed ▸ looked ((unchanged_getProject projectId).map _)
  | load projectId environment =>
    exact performed ▸ looked ((unchanged_loadCopy projectId environment).map _)
  | deployments projectId => exact performed ▸ looked ((unchanged_deployments projectId).map _)
  | list =>
    exact performed ▸ looked (Store.unchanged_catalogue.bind fun _ => Action.within_pure _)

end Call

theorem copyable_of_reachable [Machine] (h : Reachable world) : world.store.tables.Copyable := by
  induction h with
  | empty =>
    rintro _ _ _ - ⟨⟩
  | between _ _ _ _ _ ih => exact ih
  | call call prior reached ih =>
    exact call.copyable_perform (settled_of_reachable reached) (sound_of_reachable reached) prior ih

end Operation

end Sitewright
