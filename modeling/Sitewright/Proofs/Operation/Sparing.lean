import Sitewright.Proofs.Operation.LastWrite
import Sitewright.Proofs.Time.HttpDate

namespace Sitewright

open Time (DateTime)

namespace Store

variable {world : World}

/-- Every copy bears a time that can be told in whole seconds. -/
def Tables.Legible (tables : Tables) : Prop := ∀ copy ∈ tables.copies, copy.writtenAt.Legible

theorem legible_writeTime (world : World) : (writeTime world).Legible := by
  have shown : world.now.Legible := DateTime.legible_ofInstant world.clock
  rw [writeTime]
  split
  · exact shown.naive
  · exact shown

theorem legible_saved (h : world.store.tables.Legible) (projectId environment : String)
    (project : Project) : (saved world projectId environment project).Legible := by
  intro copy hCopy
  have copies : (saved world projectId environment project).copies =
      (copied world projectId environment project).copies := by
    simp only [saved]
    split <;> rfl
  rw [copies] at hCopy
  rcases Tables.mem_putCopy hCopy with rfl | old
  · rw [written_eq]
    exact legible_writeTime world
  · exact h copy old

end Store

namespace Operation

open Store (Tables)

variable {world : World} {id : String} {place : Environment}

/-! The times of copies -/

theorem legible_writtenCopy (h : world.store.tables.Legible) (environment : Environment)
    (project : Project) : (writtenCopy world environment project).Legible := by
  have saved := Store.legible_saved h project.id environment.name project
  simp only [writtenCopy]
  split
  · exact saved
  · exact saved

theorem legible_writtenDeployment (h : world.store.tables.Legible) (target : Target)
    (deployed synced : Project) : (writtenDeployment world target deployed synced).Legible :=
  @legible_writtenCopy (Store.withTables _ world)
    (Store.legible_saved h deployed.id target.name deployed) .builder synced

theorem Call.Wrote.legible [Machine] {call : Call} {tables : Tables}
    (wrote : call.Wrote world tables) (h : world.store.tables.Legible) : tables.Legible := by
  cases wrote with
  | nothing => exact h
  | copy same => exact legible_writtenCopy (same ▸ h) _ _
  | deployment same => exact legible_writtenDeployment (same ▸ h) _ _ _
  | deletion => exact fun copy hCopy => h copy (List.mem_filter.mp hCopy).1

end Operation

/-- A store as calls leave it behind. -/
structure World.Standing [Machine] (world : World) : Prop where
  settled : world.store.Settled
  sound : world.Sound
  legible : world.store.tables.Legible

namespace World.Standing

variable {world : World}

theorem of_store [Machine] {after : World} (h : world.Standing) (same : after.store = world.store) :
    after.Standing where
  settled := same ▸ h.settled
  sound := ⟨same ▸ h.sound.tables, same ▸ h.sound.present⟩
  legible := same ▸ h.legible

theorem between [Machine] (h : world.Standing) (clock : Time.Instant) (random : Random)
    (full : Option String) (fault : Option Store.Fault) :
    ({ world with clock, random, store := { world.store with full, fault } } : World).Standing where
  settled := ⟨h.settled.guarded, h.settled.queued⟩
  sound := ⟨h.sound.tables, h.sound.present⟩
  legible := h.legible

end World.Standing

namespace Operation

open Store (Tables)

variable {world : World} {id : String} {place : Environment}

theorem standing_perform [Machine] (h : world.Standing) {call : Call} (prior : call.HasReadPrior) :
    (call.perform.perform world).2.Standing := by
  obtain ⟨tables, wrote, matching⟩ := call.exists_wrote h.settled h.sound prior
  exact {
    settled := (call.atomic_perform world h.settled).1
    sound := (call.keeps_perform prior world h.sound).1
    legible := fun copy hCopy => wrote.legible h.legible copy (matching.copies ▸ hCopy) }

theorem standing_of_reachable [Machine] (reached : Reachable world) : world.Standing := by
  induction reached with
  | empty clock random guarded =>
    exact {
      settled := settled_empty guarded
      sound := sound_of_reachable (.empty clock random guarded)
      legible := fun _ hCopy => (List.not_mem_nil hCopy).elim }
  | between clock random full fault _ ih => exact ih.between clock random full fault
  | call call prior _ ih => exact standing_perform ih prior

/-! Calls that leave a copy alone -/

def Call.Writes [Machine] (world : World) (id : String) (place : Environment) (call : Call) :
    Prop :=
  (call.written? world id place).isSome

theorem Call.Writes.mayWrite [Machine] {call : Call} (settled : world.store.Settled)
    (writes : call.Writes world id place) : call.MayWrite id place := by
  obtain ⟨project, h⟩ := Option.isSome_iff_exists.mp writes
  cases call with
  | create =>
    obtain ⟨answered, there⟩ := Option.filter_eq_some_iff.mp h
    obtain ⟨after, performed⟩ := answer?_eq_some.mp answered
    obtain ⟨⟨time, made⟩, -⟩ := match_createProject settled performed
    obtain ⟨rfl, builder⟩ := of_decide_eq_true there
    exact ⟨id_of_created made, builder⟩
  | save =>
    obtain ⟨-, there⟩ := Option.filter_eq_some_iff.mp h
    obtain ⟨same, label⟩ := of_decide_eq_true there
    exact ⟨same, Environment.ofJson_eq_ok.mpr label⟩
  | enhance =>
    obtain ⟨-, there⟩ := Option.filter_eq_some_iff.mp h
    obtain ⟨same, saves, label⟩ := of_decide_eq_true there
    exact ⟨same, saves, environmentOf_eq_some.mpr label⟩
  | promote =>
    obtain ⟨deployment, -, h⟩ := Option.bind_eq_some_iff.mp h
    obtain ⟨builder, -, h⟩ := Option.bind_eq_some_iff.mp h
    split at h
    · next there => exact there.1
    · cases h
  | _ => cases h

theorem isSome_filter_answer? {α : Type} {action : Action α} {goes : α → Bool} {a : α}
    {after : World} (performed : action.perform world = (.ok a, after)) (there : goes a = true) :
    ((answer? action world).filter goes).isSome := by
  rw [answer?_eq_some.mpr ⟨after, performed⟩, Option.filter_some_pos there]
  rfl

/-- It is enough to look at what an action does when it succeeds. -/
theorem copy?_of_atomic {α : Type} {action : Action α} (settled : world.store.Settled)
    (atomic : Store.Atomic action)
    (spared : ∀ a after, action.perform world = (.ok a, after) →
      after.store.tables.copy? id place.name = world.store.tables.copy? id place.name) :
    (action.perform world).2.store.tables.copy? id place.name =
      world.store.tables.copy? id place.name := by
  have failed := (atomic world settled).2
  rcases performed : action.perform world with ⟨error | a, after⟩
  · rw [performed] at failed
    exact congrArg (·.copy? id place.name) (failed error rfl)
  · exact spared a after performed

theorem copy?_of_match_writtenCopy {after mid : World} {environment : Environment}
    {project : Project} (same : mid.store = world.store)
    (matching : after.store.tables.Match (writtenCopy mid environment project))
    (other : ¬(project.id = id ∧ place = environment)) :
    after.store.tables.copy? id place.name = world.store.tables.copy? id place.name := by
  rw [matching.copy?_eq, copy?_writtenCopy_of_ne, same]
  rintro ⟨rfl, here⟩
  exact other ⟨rfl, (Environment.name_injective here).symm⟩

theorem copy?_promote [Machine] {projectId : String} {target message actor : Json}
    {at? : Option DateTime} {limit : Int} (h : world.Standing)
    (spared : ¬(Call.promote projectId target message actor at? limit).Writes world id place) :
    ((promote projectId target message actor at? limit).perform world).2.store.tables.copy? id
      place.name = world.store.tables.copy? id place.name := by
  refine copy?_of_atomic h.settled (atomic_promote _ _ _ _ _ _) fun deployment after performed => ?_
  obtain ⟨builder, looked, random, -, -, loaded, -, written⟩ := perform_promote_eq_ok performed
  have found := answer?_eq_some.mpr ⟨looked, loaded⟩
  obtain ⟨rfl, -, stored⟩ := Store.perform_load_eq_ok h.settled h.sound loaded
  obtain rfl := stored.id
  have matching := @match_writeDeployment { looked with random } after deployment.record.target
    (promoted builder deployment.record limit deployment.record.target.environment)
    (promoted builder deployment.record limit .builder) _ h.settled rfl written
  have one : (promoted builder deployment.record limit .builder).id =
      (promoted builder deployment.record limit deployment.record.target.environment).id := rfl
  rw [matching.copy?_eq, copy?_writtenDeployment_of_ne one]
  rintro ⟨here, goal⟩
  have goes : builder.id = id ∧
      (place = .builder ∨ place = deployment.record.target.environment) :=
    ⟨here.symm, goal.imp (Environment.name_injective ·) (Environment.name_injective ·)⟩
  refine spared ?_
  simp only [Call.Writes, Call.written?, answer?_eq_some.mpr ⟨after, performed⟩, found,
    Option.bind_eq_bind, Option.bind_some, if_pos goes, Option.isSome_some]

theorem copy?_enhance [Machine] {prior : Project} {instruction : Json} {transform : Transform}
    {saves : Bool} {label actor : Json} {at? : Option DateTime} (h : world.Standing)
    (read : ∃ data, Project.ofJson data = .ok prior)
    (spared : ¬(Call.enhance prior instruction transform saves label actor at?).Writes world id
      place) :
    ((enhance prior instruction transform saves label actor at?).perform
      world).2.store.tables.copy? id place.name = world.store.tables.copy? id place.name := by
  obtain ⟨data, read⟩ := read
  refine copy?_of_atomic h.settled (atomic_enhance _ _ _ _ _ _ _) fun project after performed => ?_
  obtain ⟨-, same⟩ | ⟨there, mid, saving, named, stored, same, matching⟩ :=
    match_enhance h.settled (Project.readable_of_ofJson read) performed
  · rw [same]
  · refine copy?_of_match_writtenCopy same matching fun here => spared ?_
    refine isSome_filter_answer? performed (decide_eq_true ⟨?_, saving, ?_⟩)
    · exact stored.id.symm.trans here.1
    · rw [here.2]
      exact environmentOf_eq_some.mp named

theorem copy?_delete {projectId : String} {actor : Json} (settled : world.store.Settled) :
    ((deleteProject projectId actor).perform world).2.store.tables.copy? id place.name =
      if (Call.delete projectId actor).deletes world id then none
      else world.store.tables.copy? id place.name := by
  have failed := (atomic_deleteProject projectId actor world settled).2
  rw [Call.deletes, answer?]
  rcases performed : (deleteProject projectId actor).perform world with ⟨error | _, after⟩
  · rw [performed] at failed
    simp only [Except.toOption, Option.isSome_none, Bool.and_false, Bool.false_eq_true, if_false]
    rw [failed error rfl]
  · obtain ⟨-, matching⟩ := match_deleteProject settled performed
    simp only [Except.toOption, Option.isSome_some, Bool.and_true, decide_eq_true_eq]
    rw [matching.copy?_eq, Tables.copy?_without]
    simp only [eq_comm]

/-- One call that does not write a copy leaves it as it is, with the time at which it was written,
unless it deletes the project. -/
theorem copy?_perform [Machine] {call : Call} (h : world.Standing) (prior : call.HasReadPrior)
    (spared : ¬call.Writes world id place) :
    (call.perform.perform world).2.store.tables.copy? id place.name =
      if call.deletes world id then none else world.store.tables.copy? id place.name := by
  have looked {α : Type} {action : Action α} (unchanged : Action.Within Store.Unchanged action) :
      (action.perform world).2.store.tables.copy? id place.name =
        world.store.tables.copy? id place.name := by
    rw [unchanged world h.settled]
  cases call with
  | create data actor at? =>
    rw [Call.perform, Action.perform_map]
    refine copy?_of_atomic h.settled (atomic_createProject _ _ _) fun project after performed => ?_
    obtain ⟨-, matching⟩ := match_createProject h.settled performed
    exact copy?_of_match_writtenCopy rfl matching fun here =>
      spared (isSome_filter_answer? performed (decide_eq_true here))
  | save projectId label data actor at? known =>
    rw [Call.perform, Action.perform_map]
    refine copy?_of_atomic h.settled (atomic_saveCopy _ _ _ _ _ _) fun project after performed => ?_
    obtain ⟨there, named, stored, matching⟩ := match_saveCopy h.settled performed
    refine copy?_of_match_writtenCopy rfl matching fun here => spared ?_
    refine isSome_filter_answer? performed (decide_eq_true ⟨stored.id.symm.trans here.1, ?_⟩)
    rw [here.2]
    exact Environment.ofJson_eq_ok.mp named
  | enhance =>
    rw [Call.perform, Action.perform_map]
    exact copy?_enhance h prior spared
  | promote =>
    rw [Call.perform, bind_pure_comp, Action.perform_map]
    exact copy?_promote h spared
  | delete =>
    rw [Call.perform, bind_pure_comp, Action.perform_map]
    exact copy?_delete h.settled
  | get => exact looked ((unchanged_getProject _).map _)
  | load => exact looked ((unchanged_loadCopy _ _).map _)
  | deployments => exact looked ((unchanged_deployments _).map _)
  | list => exact looked (Store.unchanged_catalogue.bind fun _ => Action.within_pure _)

end Operation

end Sitewright
