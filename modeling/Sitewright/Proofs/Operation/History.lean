import Mathlib.Data.List.Induction
import Sitewright.Proofs.Operation.Outcome

/-!
The deployments of a project over a run of calls. Cutting off old records after every deployment
comes to the same as cutting them off at the end, and nothing but a deployment of the project
touches its records as long as its builder copy is left alone.
-/

namespace Sitewright.Operation

open Store (Tables kept)
open Time (Instant)

/-! Records that are kept -/

@[simp] theorem newest_append_newest {α : Type} (limit : Nat) (xs ys : List α) :
    newest limit (newest limit xs ++ ys) = newest limit (xs ++ ys) := by
  rcases Nat.le_total xs.length limit with few | many
  · have all : newest limit xs = xs := by
      rw [newest, Nat.sub_eq_zero_of_le few, List.drop_zero]
    rw [all]
  · have cut : xs.length - limit ≤ xs.length := Nat.sub_le _ _
    have first : newest limit xs ++ ys = (xs ++ ys).drop (xs.length - limit) := by
      rw [newest, List.drop_append_of_le_length cut]
    have whole : newest limit (newest limit xs ++ ys) =
        (newest limit xs ++ ys).drop ((newest limit xs ++ ys).length - limit) := rfl
    rw [whole, first, List.drop_drop, List.length_drop, List.length_append, newest,
      List.length_append]
    congr 1
    omega

def remembered (limit : Nat) (history records : List DeploymentRecord) : List DeploymentRecord :=
  if records = [] then history else newest limit (history ++ records)

theorem remembered_concat (limit : Nat) (history records : List DeploymentRecord)
    (record : DeploymentRecord) :
    remembered limit history (records ++ [record]) =
      newest limit (remembered limit history records ++ [record]) := by
  rw [remembered, if_neg (List.append_ne_nil_of_right_ne_nil _ (List.cons_ne_nil _ _))]
  simp only [remembered]
  split
  · next none => rw [none, List.nil_append]
  · rw [newest_append_newest, List.append_assoc]

def lastDeployments (last : Fields Json) (records : List DeploymentRecord) : Fields Json :=
  records.foldl (fun last record => last.put record.target.name (.str record.deployedAt)) last

theorem lastDeployments_concat (last : Fields Json) (records : List DeploymentRecord)
    (record : DeploymentRecord) :
    lastDeployments last (records ++ [record]) =
      (lastDeployments last records).put record.target.name (.str record.deployedAt) := by
  rw [lastDeployments, List.foldl_concat, lastDeployments]

def latest? (records : List DeploymentRecord) (name : String) : Option DeploymentRecord :=
  (records.filter (·.target.name == name)).getLast?

theorem get?_lastDeployments (last : Fields Json) (records : List DeploymentRecord)
    (name : String) :
    (lastDeployments last records).get? name =
      match latest? records name with
      | some record => some (.str record.deployedAt)
      | none => last.get? name := by
  induction records using List.reverseRecOn with
  | nil => rfl
  | append_singleton records record ih =>
    rw [lastDeployments_concat, latest?, List.filter_append]
    by_cases here : record.target.name = name
    · subst here
      rw [Fields.get?_put_self]
      simp
    · rw [Fields.get?_put_of_ne _ _ (Ne.symm here), ih, latest?]
      simp [here]

/-! Deployments that leave metadata as they are -/

variable {history records : List DeploymentRecord} {last : Fields Json} {metadata : Metadata}
  {record : DeploymentRecord}

theorem forall₂_of_alike {as bs : List Json} (h : (Json.arr as).Alike (.arr bs)) :
    List.Forall₂ Json.Alike as bs := by
  have same := Json.alike_arr.mp h
  rw [← List.forall₂_eq_eq_eq, List.forall₂_map_left_iff, List.forall₂_map_right_iff] at same
  exact same

/-- A record whose message and actor are texts, or that names no actor. -/
structure Worded (record : DeploymentRecord) : Prop where
  message : ∃ s, record.message = .str s
  deployedBy : record.deployedBy = .null ∨ ∃ s, record.deployedBy = .str s

theorem exists_orElse_str (s t : String) : ∃ u, (Json.str s).orElse (.str t) = .str u := by
  rw [Json.orElse]
  split
  · exact ⟨s, rfl⟩
  · exact ⟨t, rfl⟩

theorem worded_recordOf (id : String) (target : Target) (deployedAt : String)
    (message? actor? : Option String) :
    Worded (recordOf id target deployedAt (.ofText? message?) (.ofText? actor?)) where
  message := by
    cases message? with
    | none => exact ⟨_, rfl⟩
    | some message => exact exists_orElse_str message _
  deployedBy := by
    cases actor? with
    | none => exact .inl rfl
    | some actor => exact .inr ⟨actor, rfl⟩

theorem Worded.eq_of_like {old : DeploymentRecord} (h : Worded record) (like : old.Like record) :
    old = record := by
  obtain ⟨message, said⟩ := h.message
  have message : old.message = record.message := by
    rw [said]
    exact Json.alike_str_right.mp (said ▸ like.message)
  have deployedBy : old.deployedBy = record.deployedBy := by
    obtain none | ⟨actor, named⟩ := h.deployedBy
    · rw [none]
      exact Json.alike_null.mp (none ▸ like.deployedBy)
    · rw [named]
      exact Json.alike_str_right.mp (named ▸ like.deployedBy)
  obtain ⟨id, target, deployedAt, status, -, -⟩ := like
  cases old
  cases record
  simp_all

/-- Values each of which is related to the next one, and the last one to a value that nothing else is
related to. -/
theorem eq_of_forall₂_tail {α : Type} {R : α → α → Prop} {x : α} (only : ∀ a, R a x → a = x) :
    ∀ {xs : List α}, List.Forall₂ R xs (xs.tail ++ [x]) → ∀ a ∈ xs, a = x
  | [], _ => List.forall_mem_nil _
  | [a], .cons first _ => List.forall_mem_singleton.mpr (only a first)
  | a :: b :: rest, .cons first others => by
    have later := eq_of_forall₂_tail only others
    rw [List.forall_mem_cons]
    exact ⟨only a (later b List.mem_cons_self ▸ first), later⟩

theorem put_eq_self {fields : Fields Json} {key : String} {v : Json}
    (h : fields.get? key = some v) : fields.put key v = fields := by
  induction fields with
  | nil => cases h
  | cons field rest ih =>
    obtain ⟨name, w⟩ := field
    simp only [Fields.get?] at h
    simp only [Fields.put]
    split at h
    · next same =>
      rw [if_pos same, Option.some.inj h]
    · next differ =>
      rw [if_neg differ, ih h]

/-- Metadata that are alike to what a deployment makes of them are what it makes of them, as far as
they recall deployments. -/
theorem Worded.recorded_eq_of_like {limit : Nat} (h : Worded record) (positive : 1 ≤ limit)
    (like : metadata.Like (recorded metadata record limit)) :
    newest limit (metadata.history ++ [record]) = metadata.history ∧
      metadata.lastDeployment.put record.target.name (.str record.deployedAt) =
        metadata.lastDeployment := by
  have length : metadata.history.length = (newest limit (metadata.history ++ [record])).length := by
    have same := Json.length_eq_of_alike_arr like.history
    rw [List.length_map, List.length_map] at same
    exact same
  have shifted : newest limit (metadata.history ++ [record]) = metadata.history.tail ++ [record] := by
    rw [newest, List.length_drop, List.length_append, List.length_singleton] at length
    have one : metadata.history.length + 1 - limit = 1 := by omega
    rw [newest, List.length_append, List.length_singleton, one,
      List.drop_append_of_le_length (by omega), List.drop_one]
  have related : List.Forall₂ (fun a b : DeploymentRecord => a.toJson.Alike b.toJson)
      metadata.history (newest limit (metadata.history ++ [record])) := by
    have alike := forall₂_of_alike like.history
    rw [List.forall₂_map_left_iff, List.forall₂_map_right_iff] at alike
    exact alike
  rw [shifted] at related
  have all : ∀ old ∈ metadata.history, old = record :=
    eq_of_forall₂_tail (fun _ alike => h.eq_of_like (DeploymentRecord.like_of_alike alike)) related
  constructor
  · have all' : ∀ other ∈ newest limit (metadata.history ++ [record]), other = record := by
      intro other there
      obtain old | new := List.mem_append.mp (mem_of_mem_newest there)
      · exact all other old
      · exact List.mem_singleton.mp new
    rw [List.eq_replicate_iff.mpr ⟨length.symm, all'⟩]
    exact (List.eq_replicate_iff.mpr ⟨rfl, all⟩).symm
  · have times := Json.rel_get?_of_alike like.lastDeployment record.target.name
    obtain ⟨-, none⟩ | ⟨old, new, found, found', alike⟩ := Store.rel_cases times
    · rw [recorded, Fields.get?_put_self] at none
      cases none
    · rw [recorded, Fields.get?_put_self] at found'
      rw [← Option.some.inj found', Json.alike_str_right] at alike
      exact put_eq_self (alike ▸ found)

/-! Runs -/

/-- A run of calls in which the deployments of a project succeed with one limit and are recorded,
and every other call fails or leaves the builder copy of the project alone. A deployment is given
texts for its message and its actor, or none. -/
inductive Run [Machine] (projectId : String) (limit : Int) (start : World) :
    World → List DeploymentRecord → Prop
  | start : Run projectId limit start start []
  | between {world : World} {records : List DeploymentRecord} (clock : Instant) (random : Random)
    (full : Option String) (fault : Option Store.Fault) : Run projectId limit start world records →
      Run projectId limit start
        { world with clock, random, store := { world.store with full, fault } } records
  | deployed {world after : World} {records : List DeploymentRecord}
    {target : Json} {message? actor? : Option String} {at? : Option Time.DateTime}
    {deployment : Deployment} : Run projectId limit start world records →
    (promote projectId target (.ofText? message?) (.ofText? actor?) at? limit).perform world =
      (.ok deployment, after) →
    Run projectId limit start after (records ++ [deployment.record])
  | other {world : World} {records : List DeploymentRecord} (call : Call) : call.HasReadPrior →
    (¬call.MayWrite projectId .builder ∨
      ∃ error, (call.perform.perform world).1 = .error error) →
    Run projectId limit start world records →
    Run projectId limit start (call.perform.perform world).2 records

variable {projectId : String} {limit : Int} {start world : World}

theorem Reachable.promote [Machine] {after : World} {target message actor : Json}
    {at? : Option Time.DateTime} {deployment : Deployment} (reached : Reachable world)
    (performed : (promote projectId target message actor at? limit).perform world =
      (.ok deployment, after)) : Reachable after := by
  have step := Reachable.call (.promote projectId target message actor at? limit) trivial reached
  rwa [Call.perform, Action.perform_bind_of_ok performed] at step

theorem reachable_of_run [Machine] (reached : Reachable start)
    (run : Run projectId limit start world records) :
    Reachable world := by
  induction run with
  | start => exact reached
  | between clock random full fault _ ih => exact .between clock random full fault ih
  | deployed _ performed ih => exact ih.promote performed
  | other call prior _ _ ih => exact .call call prior ih

theorem document?_of_not_mayWrite [Machine] {call : Call} {tables : Tables}
    {environment : Environment}
    (spared : ¬call.MayWrite projectId environment) (wrote : call.Wrote world tables) :
    tables.document? projectId environment.name =
      world.store.tables.document? projectId environment.name := by
  cases wrote with
  | nothing => rfl
  | copy same stored may =>
    rw [document?_writtenCopy, same, if_neg]
    rintro ⟨rfl, place⟩
    exact spared (Environment.name_injective place ▸ may)
  | deployment same stored builder =>
    rw [← stored.id] at spared
    rw [document?_writtenDeployment _ (builder.id.trans stored.id.symm), same,
      if_neg fun both => spared both.1, if_neg fun both => spared both.1]
  | deletion =>
    rw [Tables.document?, Tables.copy?_without, if_neg fun same => spared same.symm]
    rfl

def Recalls [Machine] (projectId : String) (history : List DeploymentRecord) (last : Fields Json)
    (tables : Tables) : Prop :=
  ∃ project : Project,
    tables.document? projectId Environment.builder.name = some project.toJson ∧
      project.Readable ∧ project.metadata.history = history ∧
      project.metadata.lastDeployment = last

/-- Even a database that keeps its document, because the new one is alike, has the new one. -/
theorem Promotes.kept_toJson [Machine] {builder : Project}
    (promotes : Promotes world projectId limit builder record) (worded : Worded record)
    (backing : Store.Backing) :
    kept backing (some builder.toJson) (promoted builder record limit .builder).toJson =
      (promoted builder record limit .builder).toJson := by
  by_cases keeps : backing = .database ∧
      builder.toJson.Alike (promoted builder record limit .builder).toJson
  · have like : builder.metadata.Like (promoted builder record limit .builder).metadata :=
      (Metadata.alike_toJson_iff promotes.builder.readable.metadata.unknown
        (promotes.storedAs .builder).readable.metadata.unknown).mp
          (Project.alike_toJson_iff.mp keeps.2).2.2.2
    have positive : 1 ≤ limit.toNat := Int.lt_toNat.mpr promotes.limit
    obtain ⟨history, last⟩ :=
      worded.recorded_eq_of_like positive { like with environment := .refl _ }
    have updatedAt : builder.metadata.updatedAt = .str record.deployedAt :=
      Json.alike_str_right.mp like.updatedAt
    have same : promoted builder record limit .builder = builder := by
      rw [promoted, asCopy, relabelled, recorded, history, last, ← updatedAt,
        ← promotes.builder.environment]
    rw [kept, if_pos keeps, same]
  · rw [kept, if_neg keeps]

theorem recalls_writtenDeployment [Machine] {builder : Project} {mid : World}
    {environment : Environment}
    (promotes : Promotes world projectId limit builder record) (worded : Worded record)
    (same : mid.store = world.store) :
    Recalls projectId (newest limit.toNat (builder.metadata.history ++ [record]))
      (builder.metadata.lastDeployment.put record.target.name (.str record.deployedAt))
      (writtenDeployment mid record.target (promoted builder record limit environment)
        (promoted builder record limit .builder)) := by
  have id : (promoted builder record limit environment).id = projectId := promotes.builder.id
  have one : (promoted builder record limit .builder).id =
      (promoted builder record limit environment).id := rfl
  rw [Recalls, document?_writtenDeployment _ one, if_pos ⟨id, rfl⟩, same, promotes.document,
    promotes.kept_toJson worded]
  exact ⟨_, rfl, (promotes.storedAs .builder).readable, rfl, rfl⟩

theorem Recalls.of_match [Machine] {a b : Tables} (h : a.Match b)
    (k : Recalls projectId history last b) :
    Recalls projectId history last a := by
  obtain ⟨project, found, rest⟩ := k
  refine ⟨project, ?_, rest⟩
  rw [← found, h.document?_eq]

theorem recalls_of_run [Machine] {before : Project} (reached : Reachable start)
    (found : start.store.tables.document? projectId Environment.builder.name = some before.toJson)
    (readable : before.Readable) (run : Run projectId limit start world records) :
    Recalls projectId (remembered limit.toNat before.metadata.history records)
      (lastDeployments before.metadata.lastDeployment records) world.store.tables := by
  induction run with
  | start => exact ⟨before, found, readable, rfl, rfl⟩
  | between _ _ _ _ _ ih => exact ih
  | @deployed world after records target message? actor? at? deployment run performed ih =>
    have reached' := reachable_of_run reached run
    obtain ⟨builder, mid, promotes, ⟨id, deployedAt, made⟩, same, matching⟩ :=
      match_promote (settled_of_reachable reached') (sound_of_reachable reached') performed
    have worded : Worded deployment.record := made ▸ worded_recordOf _ _ _ _ _
    obtain ⟨project, there, readable, history, last⟩ := ih
    obtain rfl : builder = project :=
      (Project.toJson_inj promotes.builder.readable readable).mp
        (Option.some.inj (promotes.document.symm.trans there))
    rw [remembered_concat, lastDeployments_concat, ← history, ← last]
    exact .of_match matching (recalls_writtenDeployment promotes worded same)
  | @other world records call prior spared run ih =>
    have reached' := reachable_of_run reached run
    have settled := settled_of_reachable reached'
    obtain spared | ⟨error, failed⟩ := spared
    · obtain ⟨tables, wrote, matching⟩ :=
        call.exists_wrote settled (sound_of_reachable reached') prior
      refine .of_match matching ?_
      rw [Recalls, document?_of_not_mayWrite spared wrote]
      exact ih
    · rw [(call.atomic_perform world settled).2 error failed]
      exact ih

/-- After any run with at least one deployment of a project, its history is what is newest of the
records before followed by those of the run in their order, and for each target that of the run the
time of the latest deployment to it stands. -/
theorem deployments_of_run [Machine] {before : Project} {copy : Store.Copy}
    (reached : Reachable start)
    (stored : start.store.tables.copy? projectId Environment.builder.name = some copy)
    (read : Project.ofJson copy.document = .ok before)
    (run : Run projectId limit start world records) (deployed : records ≠ []) :
    ∃ last : Fields Json,
      (deployments projectId).perform world =
        (.ok [("projectId", .str projectId),
          ("deploymentHistory", .arr
            ((newest limit.toNat (before.metadata.history ++ records)).map
              DeploymentRecord.toJson)),
          ("lastDeployment", .obj last)], world) ∧
      ∀ name, last.get? name =
        match latest? records name with
        | some record => some (.str record.deployedAt)
        | none => before.metadata.lastDeployment.get? name := by
  obtain ⟨project, written, valid⟩ :=
    (sound_of_reachable reached).tables copy (Tables.mem_of_copy? stored)
  have same := written ▸ Project.ofJson_toJson valid.readable
  obtain rfl : before = project := Except.ok.inj (read.symm.trans same)
  obtain ⟨project, found, readable, history, last⟩ := recalls_of_run reached
    (by rw [Tables.document?, stored, Option.map_some, written]) valid.readable run
  have reached' := reachable_of_run reached run
  obtain ⟨copy', stored', document⟩ := Option.map_eq_some_iff.mp found
  have loaded := Store.perform_load (settled_of_reachable reached')
    (sound_of_reachable reached').present stored' (document ▸ Project.ofJson_toJson readable)
  have got : (getProject projectId).perform world = (.ok project, world) := by
    rw [getProject, Action.perform_mapError, loaded]
    rfl
  rw [remembered, if_neg deployed] at history
  refine ⟨project.metadata.lastDeployment, ?_, fun name => ?_⟩
  · rw [deployments, Action.perform_bind_of_ok got, history]
    rfl
  · rw [last, get?_lastDeployments]

def pagedWorld : World :=
  ((Call.create (.obj [("id", .str "p1"), ("name", .str "Home"), ("pages", .arr [.obj [
      ("id", .str "home"), ("name", .str "Home"), ("slug", .str "/"),
      ("tree", .arr [.obj [("id", .str "body"), ("type", .str "Body")]])]])]) .null none).perform.perform
    { store := { backing := .memory }, clock := 0, random := default }).2

def deploying [Machine] (target : String) (world : World) : Except Error Deployment × World :=
  (promote "p1" (.str target) (.ofText? none) (.ofText? none) none 1).perform world

theorem deployments_of_run_twice :
    ∃ world records, Run "p1" 1 pagedWorld world records ∧ records.length = 2 ∧
      ∃ (history : List Json) (last : Fields Json), (deployments "p1").perform world =
        (.ok [("projectId", .str "p1"), ("deploymentHistory", .arr history),
          ("lastDeployment", .obj last)], world) ∧ history.length = 1 := by
  have reached : Reachable pagedWorld := .call _ trivial (.empty 0 default (by decide))
  obtain ⟨copy, stored⟩ := Option.isSome_iff_exists.mp
    (by decide +kernel : (pagedWorld.store.tables.copy? "p1" Environment.builder.name).isSome)
  obtain ⟨before, written, valid⟩ :=
    (sound_of_reachable reached).tables copy (Tables.mem_of_copy? stored)
  obtain ⟨first, performed⟩ := Action.exists_of_isOk
    (by decide +kernel : (deploying "staging" pagedWorld).1.isOk = true)
  obtain ⟨second, performed'⟩ := Action.exists_of_isOk (by decide +kernel :
    (deploying "production" (deploying "staging" pagedWorld).2).1.isOk = true)
  have run : Run "p1" 1 pagedWorld _ [first.record, second.record] :=
    .deployed (.deployed .start performed) performed'
  obtain ⟨last, answered, -⟩ :=
    deployments_of_run reached stored (written ▸ Project.ofJson_toJson valid.readable) run
      (List.cons_ne_nil _ _)
  refine ⟨_, _, run, rfl, _, last, answered, ?_⟩
  rw [List.length_map, newest, List.length_drop, List.length_append]
  exact Nat.sub_sub_self (Nat.le_add_left 1 _)

end Sitewright.Operation
