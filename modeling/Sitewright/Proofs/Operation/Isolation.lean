import Sitewright.Proofs.Operation.Outcome
import Sitewright.Proofs.Store.Isolation

namespace Sitewright.Operation

open Sitewright.Action (Coupled Keeps)
open Store (Tables withTables)
open Time (DateTime)
open World (AgreeOn InStep)

variable {kind : Store.Backing} {projectId : String} {α : Type}

theorem coupled_currentTime (given : Option DateTime) :
    Coupled (InStep kind projectId) (InStep kind projectId) Eq
      (currentTime given) (currentTime given) :=
  Action.coupled_get.bind fun _ _ related =>
    Action.coupled_pure (by simp only [World.now, related.clock])

theorem coupled_draw (next : Random → α × Random) :
    Coupled (InStep kind projectId) (InStep kind projectId) Eq
      (Action.draw next) (Action.draw next) := by
  intro a b related
  rw [Action.perform_draw, Action.perform_draw, related.random]
  exact ⟨.ok rfl, { related with random := rfl }⟩

theorem coupled_checkUnmodified (environment : Environment) (known : Option DateTime) :
    Coupled (InStep kind projectId) (InStep kind projectId) Eq
      (checkUnmodified projectId environment.name known)
      (checkUnmodified projectId environment.name known) := by
  cases known with
  | none => exact Action.coupled_pure rfl
  | some known =>
    refine (Store.coupled_writtenAt environment).bind_eq fun written? => ?_
    cases written? with
    | none => exact Action.coupled_pure rfl
    | some written =>
      exact (Action.coupled_ofExcept (.refl _)).bind_eq fun _ =>
        Action.coupled_refuseIf Iff.rfl _

theorem coupled_writeNoted (project : Project) (environment : Environment)
    (known : Option DateTime) (note : Store.AuditNote) :
    Coupled (InStep kind project.id) (InStep kind project.id) Eq
      (writeNoted project.id environment known project note)
      (writeNoted project.id environment known project note) := by
  have written : Coupled (InStep kind project.id) (InStep kind project.id) Eq
      (writeCopy project.id environment project) (writeCopy project.id environment project) :=
    (Store.coupled_save environment project).bind_eq fun _ =>
      Action.coupled_ite Iff.rfl (fun _ => Store.coupled_putEntry project) fun _ =>
        Action.coupled_pure rfl
  exact Store.coupled_transaction <| (coupled_checkUnmodified environment known).bind_eq fun _ =>
    written.bind_eq fun _ => Store.coupled_note note

theorem coupled_writeDeployment (target : Target) {deployed synced : Project}
    (deployedOf : deployed.id = projectId) (syncedOf : synced.id = projectId)
    (note : Store.AuditNote) :
    Coupled (InStep kind projectId) (InStep kind projectId) Eq
      (writeDeployment projectId target deployed synced note)
      (writeDeployment projectId target deployed synced note) := by
  have copy := @Store.coupled_save kind target.environment deployed
  have builder := @Store.coupled_save kind .builder synced
  have entry := @Store.coupled_putEntry kind synced
  rw [deployedOf] at copy
  rw [syncedOf] at builder entry
  exact Store.coupled_transaction <| copy.bind_eq fun _ => builder.bind_eq fun _ =>
    entry.bind_eq fun _ => Store.coupled_note note

theorem coupled_deleteProject (projectId : String) (actor : Json) :
    Coupled (InStep kind projectId) (InStep kind projectId) Eq
      (deleteProject projectId actor) (deleteProject projectId actor) :=
  Store.coupled_transaction <| (Store.coupled_delete projectId).bind_eq fun _ =>
    Store.coupled_note _

theorem coupled_createProject [Machine] {data : Json} (actor : Json) (at? : Option DateTime)
    (on : Fields.value (data.asObject?.getD []) "id" = .str projectId) :
    Coupled (InStep kind projectId) (InStep kind projectId) Eq
      (createProject data actor at?) (createProject data actor at?) := by
  refine (coupled_currentTime at?).bind_eq fun time => ?_
  have made : Agree (fun p q => p = q ∧ p.id = projectId) (created data time)
      (created data time) :=
    .of_eq _ fun project made => ⟨rfl, Json.str.inj ((id_of_created made).symm.trans on)⟩
  refine (Action.coupled_ofExcept made).bind fun project _ same => ?_
  obtain ⟨rfl, rfl⟩ := same
  exact (coupled_writeNoted project .builder none _).bind_eq fun _ => Action.coupled_pure rfl

theorem coupled_saveCopy [Machine] (projectId : String) (environment data actor : Json)
    (at? known : Option DateTime) :
    Coupled (InStep kind projectId) (InStep kind projectId) Eq
      (saveCopy projectId environment data actor at? known)
      (saveCopy projectId environment data actor at? known) := by
  refine (Action.coupled_ofExcept (.refl _)).bind_eq fun environment =>
    (coupled_currentTime at?).bind_eq fun time => ?_
  have made : Agree (fun p q => p = q ∧ p.id = projectId)
      (replacement projectId environment data time)
      (replacement projectId environment data time) :=
    .of_eq _ fun project made => ⟨rfl, (storedAs_of_replacement made).id⟩
  refine (Action.coupled_ofExcept made).bind fun project _ same => ?_
  obtain ⟨rfl, rfl⟩ := same
  exact (coupled_writeNoted project environment known _).bind_eq fun _ => Action.coupled_pure rfl

/-- In a sound store the builder copy is read as a project of the identifier that it is stored
under, so that a promotion writes nothing under another one. -/
theorem coupled_promote [Machine] (projectId : String) (target message actor : Json)
    (at? : Option DateTime) (limit : Int) :
    Coupled (Action.Keeping (InStep kind projectId) World.Sound) (InStep kind projectId) Eq
      (promote projectId target message actor at? limit)
      (promote projectId target message actor at? limit) := by
  have le (a b : World) : Action.Keeping (InStep kind projectId) World.Sound a b →
      InStep kind projectId a b := And.left
  have loaded := ((@Store.coupled_load kind projectId _ .builder).mapError
    (insteadOfNotFound .builderCopyMissing)).keeping
      (Action.keeps_mapError (Store.keeps_load projectId _) _)
  refine (Action.coupled_ofExcept (.refl _)).bind_of_le le fun _ _ _ => ?_
  refine (Action.coupled_ofExcept (.refl _)).bind_of_le le fun target _ same => ?_
  obtain rfl := same
  refine loaded.bind_of_le le fun builder _ both => ?_
  obtain ⟨rfl, stored⟩ := both
  refine Coupled.of_le le ?_
  refine (Action.coupled_ofExcept (.refl _)).bind_eq fun _ => ?_
  refine (coupled_currentTime at?).bind_eq fun time =>
    (Action.coupled_ofExcept (.refl _)).bind_eq fun stamp => ?_
  refine Action.coupled_get.bind fun a b related => ?_
  have millis : b.millis = a.millis := by simp only [World.millis, related.clock]
  rw [millis]
  refine (coupled_draw _).bind_eq fun id => ?_
  have copies (record : DeploymentRecord) :
      Agree (fun made other => made = other ∧ made.1.id = projectId ∧ made.2.id = projectId)
        (copiesOf builder record limit.toNat) (copiesOf builder record limit.toNat) :=
    .of_eq _ fun made copied => by
      obtain ⟨-, rfl⟩ := copiesOf_eq_ok.mp copied
      exact ⟨rfl, stored.id, stored.id⟩
  refine (Action.coupled_ofExcept (copies _)).bind fun made _ both => ?_
  obtain ⟨rfl, deployed, synced⟩ := both
  exact (coupled_writeDeployment target deployed synced _).bind_eq fun _ => Action.coupled_pure rfl

theorem coupled_rewritten [Machine] (prior : Project) (instruction : String)
    (transform : Transform) :
    Coupled (InStep kind projectId) (InStep kind projectId) (fun p q => p = q ∧ p.id = prior.id)
      (rewritten prior instruction transform) (rewritten prior instruction transform) := by
  refine Coupled.answering ?_ fun a _ _ project answered => id_of_rewritten (Prod.ext answered rfl)
  have asked : Coupled (InStep kind projectId) (InStep kind projectId) Eq
      (ask transform prior instruction) (ask transform prior instruction) :=
    (Action.coupled_modify fun _ _ related => { related with }).bind_eq fun _ =>
      Action.coupled_ofExcept (.refl _)
  refine asked.bind_eq fun reply => Action.coupled_get.bind fun a b related => ?_
  have millis : b.millis = a.millis := by simp only [World.millis, related.clock]
  rw [millis]
  exact (Action.coupled_ofExcept (.refl _)).bind_eq fun next =>
    (coupled_draw next).bind_eq fun _ => Action.coupled_ofExcept (.refl _)

theorem coupled_saveRewritten [Machine] (project : Project) (environment : Environment)
    (instruction : String) (actor : Json) (at? : Option DateTime) :
    Coupled (InStep kind project.id) (InStep kind project.id) Eq
      (saveRewritten project environment instruction actor at?)
      (saveRewritten project environment instruction actor at?) := by
  refine (coupled_currentTime at?).bind_eq fun time =>
    (Action.coupled_ofExcept (.refl _)).bind_eq fun stamp => ?_
  have copied : Agree (fun copy other => copy = other ∧ copy.id = project.id)
      (project.withMetadata fun metadata => .ok (labelled environment stamp metadata))
      (project.withMetadata fun metadata => .ok (labelled environment stamp metadata)) :=
    .of_eq _ fun _ made => by
      obtain ⟨-, rfl⟩ := Project.eq_of_withMetadata_ok made
      exact ⟨rfl, rfl⟩
  refine (Action.coupled_ofExcept copied).bind fun copy _ both => ?_
  obtain ⟨rfl, same⟩ := both
  rw [← same]
  exact (coupled_writeNoted copy environment none _).bind_eq fun _ => Action.coupled_pure rfl

theorem coupled_enhance [Machine] (prior : Project) (instruction : Json) (transform : Transform)
    (saves : Bool) (environment actor : Json) (at? : Option DateTime) :
    Coupled (InStep kind prior.id) (InStep kind prior.id) Eq
      (enhance prior instruction transform saves environment actor at?)
      (enhance prior instruction transform saves environment actor at?) := by
  refine (Action.coupled_ofExcept (.refl _)).bind_eq fun instruction =>
    (Action.coupled_ofExcept (.refl _)).bind_eq fun environment =>
      (coupled_rewritten prior instruction transform).bind fun project _ both => ?_
  obtain ⟨rfl, same⟩ := both
  rw [← same]
  split
  · exact coupled_saveRewritten _ _ _ _ _
  · exact Action.coupled_pure rfl

theorem coupled_getProject [Machine] (projectId : String) :
    Coupled (InStep kind projectId) (InStep kind projectId) Eq (getProject projectId)
      (getProject projectId) :=
  (Store.coupled_load .builder).mapError _

theorem coupled_loadCopy [Machine] (projectId : String) (environment : Json) :
    Coupled (InStep kind projectId) (InStep kind projectId) Eq (loadCopy projectId environment)
      (loadCopy projectId environment) :=
  (Action.coupled_ofExcept (.refl _)).bind_eq fun environment => Store.coupled_load environment

theorem Call.coupled_perform [Machine] {call : Call} (on : call.IsOn projectId) :
    Coupled (Action.Keeping (InStep kind projectId) World.Sound) (InStep kind projectId) Eq
      call.perform call.perform := by
  have answers {α : Type} {action : Action α} (f : α → Json)
      (h : Coupled (InStep kind projectId) (InStep kind projectId) Eq action action) :
      Coupled (Action.Keeping (InStep kind projectId) World.Sound) (InStep kind projectId) Eq
        (f <$> action) (f <$> action) :=
    Coupled.of_le (fun _ _ => And.left) (h.map fun _ _ => congrArg f)
  cases call with
  | create data actor at? => exact answers _ (coupled_createProject actor at? on)
  | save =>
    obtain rfl := on
    exact answers _ (coupled_saveCopy _ _ _ _ _ _)
  | promote =>
    obtain rfl := on
    rw [Call.perform, bind_pure_comp]
    exact (coupled_promote _ _ _ _ _ _).map fun _ _ same => by rw [same]
  | enhance =>
    obtain rfl := on
    exact answers _ (coupled_enhance _ _ _ _ _ _ _)
  | delete =>
    obtain rfl := on
    rw [Call.perform, bind_pure_comp]
    exact answers _ (coupled_deleteProject _ _)
  | get =>
    obtain rfl := on
    exact answers _ (coupled_getProject _)
  | load =>
    obtain rfl := on
    exact answers _ (coupled_loadCopy _ _)
  | deployments id =>
    obtain rfl := on
    rw [Call.perform, Operation.deployments, bind_pure_comp]
    exact answers _ ((coupled_getProject _).map fun _ _ same => by rw [same])
  | list => exact on.elim

/-! What is left of other projects -/

section

variable {world : World} {project : Project}

theorem spares_writtenCopy (other : projectId ≠ project.id) (environment : Environment) :
    world.store.tables.Spares projectId (writtenCopy world environment project) := by
  have saved := @Store.spares_saved _ world _ other environment.name
  simp only [writtenCopy]
  split
  · exact saved.trans (@Store.spares_entered _ (withTables _ world) _ other)
  · exact saved

theorem spares_writtenDeployment {deployed synced : Project} (target : Target)
    (other : projectId ≠ deployed.id) (other' : projectId ≠ synced.id) :
    world.store.tables.Spares projectId (writtenDeployment world target deployed synced) :=
  (@Store.spares_saved _ world _ other target.name).trans
    (@spares_writtenCopy _ (withTables _ world) _ other' .builder)

end

theorem Call.Wrote.spares [Machine] {world : World} {call : Call} {tables : Tables} {id : String}
    (wrote : call.Wrote world tables) (on : call.IsOn projectId) (other : id ≠ projectId) :
    world.store.tables.Spares id tables := by
  cases wrote with
  | nothing => exact .refl _ _
  | @copy _ mid environment project same stored may =>
    have here : project.id = projectId := by
      cases call with
      | create => exact Json.str.inj (may.1.symm.trans on)
      | save | enhance => exact may.1.symm.trans on
      | promote | delete => exact Eq.trans (Eq.symm may) on
      | get | load | deployments | list => exact may.elim
    rw [← same]
    exact spares_writtenCopy (here ▸ other) environment
  | @deployment _ _ _ _ _ _ mid goal deployed synced same stored builder =>
    obtain rfl := on
    rw [← same]
    exact spares_writtenDeployment goal (stored.id ▸ other) (builder.id ▸ other)
  | deletion =>
    obtain rfl := on
    exact Store.spares_without other

theorem spares_perform [Machine] {world : World} {call : Call} {id : String}
    (reached : Reachable world)
    (prior : call.HasReadPrior) (on : call.IsOn projectId) (other : id ≠ projectId) :
    world.store.tables.Spares id (call.perform.perform world).2.store.tables := by
  obtain ⟨tables, wrote, matching⟩ := call.exists_wrote (settled_of_reachable reached)
    (sound_of_reachable reached) prior
  exact .of_match matching (wrote.spares on other)

/-! Both -/

theorem inStep_of_reachable [Machine] {a b : World} (h : a.AgreeOn projectId b)
    (reached : Reachable a) (reached' : Reachable b) : a.InStep a.store.backing projectId b := by
  have settled := settled_of_reachable reached
  have settled' := settled_of_reachable reached'
  exact { h with
    ofKind := rfl
    lost := (sound_of_reachable reached').present.trans (sound_of_reachable reached).present.symm
    depth := fun database =>
      (settled'.depth (h.backing.trans database)).trans (settled.depth database).symm
    queued := fun database =>
      (settled'.queued (h.backing.trans database)).trans (settled.queued database).symm }

def storing [Machine] (ids : List String) : World :=
  (ids.map fun id => Call.create (.obj [("id", .str id), ("name", .str "Home")]) .null none).foldl
    (fun world call => (call.perform.perform world).2)
    { store := { backing := .memory }, clock := 0, random := default }

theorem reachable_storing [Machine] (ids : List String) : Reachable (storing ids) := by
  refine Reachable.calls (.empty 0 default (by decide)) ?_
  simp only [List.forall_mem_map]
  exact fun _ _ => trivial

end Sitewright.Operation
