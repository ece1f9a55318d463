import Mathlib.Data.List.Induction
import Sitewright.Proofs.Document.Likeness
import Sitewright.Proofs.Operation.Outcome

/-!
How many records of deployments a stored document holds. A promotion keeps the newest ones up to its
limit, and every other write keeps all the records that it is handed.
-/

namespace Sitewright

open Store (Backing Tables)
open Time (DateTime Instant)

/-! Counting the records of a document -/

theorem length_eq_of_mapM_eq_ok {ε α β : Type} {f : α → Except ε β} {xs : List α} {ys : List β}
    (h : xs.mapM f = .ok ys) : ys.length = xs.length := by
  induction xs generalizing ys with
  | nil =>
    cases h
    rfl
  | cons x xs ih =>
    rw [List.mapM_cons] at h
    obtain ⟨y, -, h⟩ := bind_eq_ok.mp h
    obtain ⟨rest, others, h⟩ := bind_eq_ok.mp h
    cases h
    rw [List.length_cons, List.length_cons, ih others]

theorem Metadata.length_recordsOf [Machine] {outer : Nat} {place : Place} {data : Json}
    {metadata : Metadata} (h : ofJson outer place data = .ok metadata) :
    (recordsOf data).length = metadata.history.length := by
  unfold ofJson at h
  split at h
  · cases h
    rfl
  · next fields =>
    obtain ⟨_, -, h⟩ := bind_eq_ok.mp h
    obtain ⟨_, -, h⟩ := bind_eq_ok.mp h
    obtain ⟨records, found, h⟩ := bind_eq_ok.mp h
    obtain ⟨history, read, h⟩ := bind_eq_ok.mp h
    obtain ⟨_, -, h⟩ := bind_eq_ok.mp h
    cases h
    rw [recordsOf_of_optionalArray found, length_eq_of_mapM_eq_ok read, List.length_zipIdx]
  · cases h

theorem Project.length_recordsIn [Machine] {data : Json} {project : Project}
    (h : Project.ofJson data = .ok project) :
    (recordsIn data).length = project.metadata.history.length := by
  unfold ofJson at h
  obtain ⟨fields, object, h⟩ := bind_eq_ok.mp h
  obtain ⟨_, -, h⟩ := bind_eq_ok.mp h
  obtain ⟨_, -, h⟩ := bind_eq_ok.mp h
  obtain ⟨_, -, h⟩ := bind_eq_ok.mp h
  obtain ⟨_, -, h⟩ := bind_eq_ok.mp h
  obtain ⟨metadata, read, h⟩ := bind_eq_ok.mp h
  cases h
  cases data with
  | obj =>
    cases object
    exact Metadata.length_recordsOf read
  | _ => cases object

theorem Project.length_recordsIn_toJson [Machine] {project : Project} (h : project.Readable) :
    (recordsIn project.toJson).length = project.metadata.history.length :=
  length_recordsIn (ofJson_toJson h)

theorem Project.length_recordsIn_of_alike [Machine] {p q : Project} (h : p.Readable)
    (k : q.Readable) (alike : p.toJson.Alike q.toJson) :
    (recordsIn p.toJson).length = q.metadata.history.length := by
  have metadata := (alike_toJson_iff.mp alike).2.2.2
  have like := (Metadata.alike_toJson_iff h.metadata.unknown k.metadata.unknown).mp metadata
  have same := Json.length_eq_of_alike_arr like.history
  rw [List.length_map, List.length_map] at same
  rw [length_recordsIn_toJson h, same]

/-! What is written holds -/

namespace Store

def Tables.Bounded (limit : Nat) (tables : Tables) : Prop :=
  ∀ projectId environment document, tables.document? projectId environment = some document →
    (recordsIn document).length ≤ limit

theorem Tables.Match.bounded_iff {a b : Tables} (h : a.Match b) {limit : Nat} :
    a.Bounded limit ↔ b.Bounded limit := by
  simp only [Tables.Bounded, h.document?_eq]

theorem Tables.Bounded.without {limit : Nat} {tables : Tables} (h : tables.Bounded limit)
    (projectId : String) : (tables.without projectId).Bounded limit :=
  fun id environment document found => h id environment document (document?_of_without found)

theorem Tables.Sound.exists_project [Machine] {tables : Tables} (h : tables.Sound)
    {projectId environment : String} {document : Json}
    (found : tables.document? projectId environment = some document) :
    ∃ project : Project, document = project.toJson ∧ project.Readable := by
  obtain ⟨copy, there, rfl⟩ := Option.map_eq_some_iff.mp found
  obtain ⟨project, written, stored⟩ := h copy (Tables.mem_of_copy? there)
  exact ⟨project, written, stored.readable⟩

theorem length_recordsIn_kept [Machine] {tables : Tables} (sound : tables.Sound) (backing : Backing)
    {project : Project} (readable : project.Readable) (projectId environment : String) :
    (recordsIn (kept backing (tables.document? projectId environment) project.toJson)).length =
      project.metadata.history.length := by
  rcases found : tables.document? projectId environment with _ | old
  · exact Project.length_recordsIn_toJson readable
  · obtain ⟨prior, rfl, readable'⟩ := sound.exists_project found
    simp only [kept]
    split
    · next same => exact Project.length_recordsIn_of_alike readable' readable same.2
    · exact Project.length_recordsIn_toJson readable

end Store

namespace Operation

section

variable {world after : World}

theorem bounded_writtenCopy_iff [Machine] {limit : Nat} (sound : world.store.tables.Sound)
    (h : world.store.tables.Bounded limit) {environment : Environment} {project : Project}
    (readable : project.Readable) :
    (writtenCopy world environment project).Bounded limit ↔
      project.metadata.history.length ≤ limit := by
  have written := Store.length_recordsIn_kept sound world.store.backing readable
  constructor
  · intro bounded
    rw [← written project.id environment.name]
    refine bounded project.id environment.name _ ?_
    rw [document?_writtenCopy, if_pos ⟨rfl, rfl⟩]
  · intro few id place document found
    rw [document?_writtenCopy] at found
    split at found
    · cases found
      rwa [written]
    · exact h id place document found

theorem bounded_writtenDeployment [Machine] {limit : Nat} (sound : world.store.tables.Sound)
    (h : world.store.tables.Bounded limit) {goal : Target} {deployed synced : Project}
    (same : synced.id = deployed.id) (readable : deployed.Readable) (readable' : synced.Readable)
    (few : deployed.metadata.history.length ≤ limit)
    (few' : synced.metadata.history.length ≤ limit) :
    (writtenDeployment world goal deployed synced).Bounded limit := by
  have written := fun {project : Project} (readable : project.Readable) =>
    Store.length_recordsIn_kept sound world.store.backing readable
  intro id place document found
  rw [document?_writtenDeployment goal same] at found
  split at found
  · cases found
    rwa [written readable']
  · split at found
    · cases found
      rwa [written readable]
    · exact h id place document found

/-! The histories that accepted calls hand in -/

theorem history_of_stamped [Machine] {project found : Project} {time : DateTime}
    {change : String → Metadata → Metadata} (h : stamped project time change = .ok found)
    (kept : ∀ stamp metadata, (change stamp metadata).history = metadata.history) :
    found.metadata.history = project.metadata.history := by
  obtain ⟨stamp, -, rfl, -⟩ := stamped_eq_ok h
  exact kept stamp _

theorem length_history_of_created [Machine] {data : Json} {time : DateTime} {project : Project}
    (h : created data time = .ok project) :
    project.metadata.history.length = (recordsIn data).length := by
  simp only [created] at h
  split at h
  · obtain ⟨read, found, stamping⟩ := bind_eq_ok.mp h
    rw [history_of_stamped stamping fun _ _ => rfl, Project.length_recordsIn found]
  · cases h

theorem length_history_of_replacement [Machine] {projectId : String} {environment : Environment}
    {data : Json} {time : DateTime} {project : Project}
    (h : replacement projectId environment data time = .ok project) :
    project.metadata.history.length = (recordsIn data).length := by
  simp only [replacement] at h
  split at h
  · cases h
  · split at h
    · cases h
    · obtain ⟨read, found, stamping⟩ := bind_eq_ok.mp h
      rw [history_of_stamped stamping fun _ _ => rfl, Project.length_recordsIn found]

theorem length_history_of_saveCopy [Machine] {projectId : String} {environment data actor : Json}
    {at? known : Option DateTime} {project : Project}
    (h : (saveCopy projectId environment data actor at? known).perform world =
      (.ok project, after)) :
    project.metadata.history.length = (recordsIn data).length := by
  obtain ⟨_, -, saving⟩ := Action.perform_ofExcept_bind_eq_ok.mp h
  rw [perform_currentTime_bind] at saving
  obtain ⟨made, valid, writing⟩ := Action.perform_ofExcept_bind_eq_ok.mp saving
  obtain ⟨_, _, -, answered⟩ := Action.perform_bind_eq_ok.mp writing
  cases answered
  exact length_history_of_replacement valid

theorem history_of_enhance [Machine] {prior project : Project} {instruction : Json}
    {transform : Transform} {saves : Bool} {environment actor : Json} {at? : Option DateTime}
    (h : (enhance prior instruction transform saves environment actor at?).perform world =
      (.ok project, after)) :
    project.metadata.history = prior.metadata.history := by
  obtain ⟨instruction, -, labelling⟩ := Action.perform_ofExcept_bind_eq_ok.mp h
  obtain ⟨place?, -, making⟩ := Action.perform_ofExcept_bind_eq_ok.mp labelling
  obtain ⟨made, mid, rewriting, writing⟩ := Action.perform_bind_eq_ok.mp making
  have kept : made.metadata.history = prior.metadata.history := by
    obtain ⟨_, _, -, -, rfl, -⟩ := perform_rewritten_eq_ok rewriting
    rfl
  split at writing
  · obtain ⟨_, _, -, rfl, -⟩ := perform_saveRewritten_eq_ok writing
    exact kept
  · cases writing
    exact kept

namespace Call

/-- How many records a call hands in for the document that it is to write. -/
def handedIn : Call → Nat
  | .create data _ _ => (recordsIn data).length
  | .save _ _ data _ _ _ => (recordsIn data).length
  | .enhance prior _ _ saves environment _ _ =>
    if saves ∧ environment ≠ .null then prior.metadata.history.length else 0
  | _ => 0

def PromotesWithin (limit : Nat) : Call → Prop
  | .promote _ _ _ _ _ historyLimit => historyLimit.toNat ≤ limit
  | _ => True

theorem bounded_perform_iff [Machine] {call : Call} {answer : Json} {limit : Nat}
    (settled : world.store.Settled) (sound : world.Sound) (prior : call.HasReadPrior)
    (promotes : call.PromotesWithin limit) (bounded : world.store.tables.Bounded limit)
    (h : call.perform.perform world = (.ok answer, after)) :
    after.store.tables.Bounded limit ↔ call.handedIn ≤ limit := by
  have looked {α : Type} {action : Action α} {a : α}
      (unchanged : Action.Within Store.Unchanged action)
      (performed : action.perform world = (.ok a, after)) :
      after.store.tables.Bounded limit ↔ 0 ≤ limit := by
    have same := unchanged world settled
    rw [performed] at same
    have same : after.store = world.store := same
    rw [same]
    exact iff_of_true bounded (Nat.zero_le _)
  cases call with
  | create data actor at? =>
    obtain ⟨project, performed, -⟩ := Action.perform_map_eq_ok.mp h
    obtain ⟨⟨time, made⟩, matching⟩ := match_createProject settled performed
    rw [matching.bounded_iff, bounded_writtenCopy_iff sound.tables bounded
      (storedAs_of_created made).readable, length_history_of_created made, handedIn]
  | save projectId environment data actor at? known =>
    obtain ⟨project, performed, -⟩ := Action.perform_map_eq_ok.mp h
    obtain ⟨place, -, stored, matching⟩ := match_saveCopy settled performed
    rw [matching.bounded_iff, bounded_writtenCopy_iff sound.tables bounded stored.readable,
      length_history_of_saveCopy performed, handedIn]
  | promote projectId target message actor at? historyLimit =>
    obtain ⟨deployment, _, performed, answered⟩ := Action.perform_bind_eq_ok.mp h
    cases answered
    obtain ⟨builder, mid, started, -, same, matching⟩ := match_promote settled sound performed
    have few : (newest historyLimit.toNat
        (builder.metadata.history ++ [deployment.record])).length ≤ limit := by
      rw [length_newest]
      exact Nat.le_trans (Nat.min_le_left _ _) promotes
    refine iff_of_true (matching.bounded_iff.mpr ?_) (Nat.zero_le _)
    exact bounded_writtenDeployment (same ▸ sound.tables) (same ▸ bounded) rfl
      (started.storedAs _).readable (started.storedAs _).readable few few
  | enhance prior' instruction transform saves environment actor at? =>
    obtain ⟨project, performed, -⟩ := Action.perform_map_eq_ok.mp h
    obtain ⟨data, read⟩ := prior
    obtain ⟨unsaved, same⟩ | ⟨place, mid, saving, label, stored, same, matching⟩ :=
      match_enhance settled (Project.readable_of_ofJson read) performed
    · rw [same, handedIn, if_neg unsaved]
      exact iff_of_true bounded (Nat.zero_le _)
    · have named : environment ≠ .null := by
        rintro rfl
        cases label
      rw [matching.bounded_iff, bounded_writtenCopy_iff (same ▸ sound.tables) (same ▸ bounded)
        stored.readable, history_of_enhance performed, handedIn, if_pos ⟨saving, named⟩]
  | delete projectId actor =>
    obtain ⟨_, _, performed, answered⟩ := Action.perform_bind_eq_ok.mp h
    cases answered
    obtain ⟨-, matching⟩ := match_deleteProject settled performed
    exact iff_of_true (matching.bounded_iff.mpr (bounded.without projectId)) (Nat.zero_le _)
  | get projectId => exact looked ((unchanged_getProject projectId).map _) h
  | load projectId environment => exact looked ((unchanged_loadCopy projectId environment).map _) h
  | deployments projectId => exact looked ((unchanged_deployments projectId).map _) h
  | list => exact looked (Store.unchanged_catalogue.bind fun _ => Action.within_pure _) h

end Call

end

/-! Runs -/

/-- A call, made at a time and with a source of random characters, when there is no room for some
environment and some write is going to fail, or neither. -/
structure Turn where
  clock : Instant
  random : Random
  full : Option String := none
  fault : Option Store.Fault := none
  call : Call

namespace Turn

def started (turn : Turn) (world : World) : World :=
  { world with
    clock := turn.clock
    random := turn.random
    store := { world.store with full := turn.full, fault := turn.fault } }

def perform [Machine] (turn : Turn) (world : World) : Except Error Json × World :=
  turn.call.perform.perform (turn.started world)

def after [Machine] (backing : Backing) (turns : List Turn) : World :=
  turns.foldl (fun world turn => (turn.perform world).2)
    { store := { backing }, clock := 0, random := default }

theorem after_concat [Machine] (backing : Backing) (turns : List Turn) (turn : Turn) :
    after backing (turns ++ [turn]) = (turn.perform (after backing turns)).2 := by
  simp only [after, List.foldl_append, List.foldl_cons, List.foldl_nil]

theorem reachable_after [Machine] {backing : Backing} (guarded : backing ≠ .unguarded)
    {turns : List Turn}
    (read : ∀ turn ∈ turns, turn.call.HasReadPrior) : Reachable (after backing turns) := by
  induction turns using List.reverseRecOn with
  | nil => exact .empty _ _ guarded
  | append_singleton turns turn ih =>
    rw [List.forall_mem_append, List.forall_mem_singleton] at read
    rw [after_concat]
    exact .call turn.call read.2 (.between _ _ _ _ (ih read.1))

/-- One turn more: it is accepted only with few enough records, or it changes no document. -/
theorem bounded_perform_iff [Machine] {turn : Turn} {limit : Nat} {world : World}
    (reached : Reachable world)
    (read : turn.call.HasReadPrior) (promotes : turn.call.PromotesWithin limit)
    (bounded : world.store.tables.Bounded limit) :
    (turn.perform world).2.store.tables.Bounded limit ↔
      ((turn.perform world).1.isOk → turn.call.handedIn ≤ limit) := by
  have reached : Reachable (turn.started world) := .between _ _ _ _ reached
  have settled := settled_of_reachable reached
  have failed := (turn.call.atomic_perform _ settled).2
  simp only [perform]
  rcases performed : turn.call.perform.perform (turn.started world) with ⟨error | answer, last⟩
  · rw [performed] at failed
    have same : last.store.tables = (turn.started world).store.tables := failed error rfl
    simp only [same]
    exact iff_of_true bounded fun accepted => by cases accepted
  · rw [Call.bounded_perform_iff settled (sound_of_reachable reached) read promotes bounded
      performed]
    exact ⟨fun few _ => few, fun few => few rfl⟩

/-- Along a run from an empty store whose promotions keep no more records than the limit, no stored
document ever has more just when no accepted call hands in a document, or a project to be enhanced
and saved, that has more. -/
theorem bounded_iff_handedIn [Machine] {backing : Backing} (guarded : backing ≠ .unguarded)
    {limit : Nat} {turns : List Turn} (read : ∀ turn ∈ turns, turn.call.HasReadPrior)
    (promotes : ∀ turn ∈ turns, turn.call.PromotesWithin limit) :
    (∀ past, past <+: turns → (after backing past).store.tables.Bounded limit) ↔
      ∀ past turn, past ++ [turn] <+: turns → (turn.perform (after backing past)).1.isOk →
        turn.call.handedIn ≤ limit := by
  have reached {past : List Turn} (earlier : past <+: turns) : Reachable (after backing past) :=
    reachable_after guarded fun turn there => read turn (earlier.subset there)
  have step {past : List Turn} {turn : Turn} (within : past ++ [turn] <+: turns)
      (bounded : (after backing past).store.tables.Bounded limit) :
      (after backing (past ++ [turn])).store.tables.Bounded limit ↔
        ((turn.perform (after backing past)).1.isOk → turn.call.handedIn ≤ limit) := by
    have there : turn ∈ turns := within.subset (by simp)
    rw [after_concat]
    exact bounded_perform_iff (reached ((List.prefix_append _ _).trans within)) (read turn there)
      (promotes turn there) bounded
  constructor
  · intro bounded past turn within
    exact (step within (bounded past ((List.prefix_append _ _).trans within))).mp
      (bounded _ within)
  · intro few past within
    induction past using List.reverseRecOn with
    | nil =>
      intro projectId environment document found
      cases found
    | append_singleton past turn ih =>
      exact (step within (ih ((List.prefix_append _ _).trans within))).mpr (few past turn within)

/-- A project is made of data whose history has one record more than a promotion would keep. -/
def burdened : List Turn :=
  let record := Json.obj [("id", .str "d1"), ("environment", .str "staging"),
    ("deployedAt", .str "2024-01-01T00:00:00.000Z")]
  [{ clock := 0
     random := default
     call := .create (.obj [("id", .str "p1"), ("name", .str "Home"), ("metadata", .obj [
       ("deploymentHistory", .arr (List.replicate 51 record))])]) .null none }]

theorem bounded_iff_handedIn_burdened :
    let limit := defaultHistoryLimit.toNat
    (∀ turn ∈ burdened, turn.call.HasReadPrior ∧ turn.call.PromotesWithin limit) ∧
      ¬∀ past, past <+: burdened → (after .database past).store.tables.Bounded limit := by
  have read : ∀ turn ∈ burdened, turn.call.HasReadPrior := by
    intro turn there
    obtain rfl := List.mem_singleton.mp there
    trivial
  have promotes : ∀ turn ∈ burdened, turn.call.PromotesWithin defaultHistoryLimit.toNat := by
    intro turn there
    obtain rfl := List.mem_singleton.mp there
    trivial
  refine ⟨fun turn there => ⟨read turn there, promotes turn there⟩, fun bounded => ?_⟩
  have few := (bounded_iff_handedIn (by decide) read promotes).mp bounded [] _
    (List.prefix_refl burdened) (by decide +kernel)
  revert few
  decide +kernel

end Turn

end Operation

end Sitewright
