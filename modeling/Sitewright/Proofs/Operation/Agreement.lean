import Sitewright.Proofs.Operation.Writing

namespace Sitewright.Operation

open Sitewright.Action (Reads Agrees)
open Time (DateTime)

variable {exact : Prop}

theorem agrees_createProject [Machine] (data : Json) {actor : Json} (at? : Option DateTime)
    (storable : Storable actor) :
    Agrees exact Eq (createProject data actor at?) (createProject data actor at?) := by
  refine .after_eq (Action.reads_currentTime at?) fun time => ?_
  have read : Reads exact (fun p q : Project => p = q ∧ p.StoredAs p.id Environment.builder.name)
      (Action.ofExcept (created data time)) (Action.ofExcept (created data time)) :=
    Action.reads_ofExcept (.of_eq _ fun _ made => ⟨rfl, storedAs_of_created made⟩)
  refine .after read ?_
  rintro project _ ⟨rfl, stored⟩
  exact (agrees_writeNoted stored none storable).andThen_pure fun _ _ _ => rfl

theorem agrees_saveCopy [Machine] (projectId : String) (environment data : Json) {actor : Json}
    (at? known : Option DateTime) (storable : Storable actor) :
    Agrees exact Eq (saveCopy projectId environment data actor at? known)
      (saveCopy projectId environment data actor at? known) := by
  refine .after_eq (Action.reads_ofExcept (.refl _)) fun environment =>
    .after_eq (Action.reads_currentTime at?) fun time => ?_
  have read : Reads exact (fun p q : Project => p = q ∧ p.StoredAs projectId environment.name)
      (Action.ofExcept (replacement projectId environment data time))
      (Action.ofExcept (replacement projectId environment data time)) :=
    Action.reads_ofExcept (.of_eq _ fun _ made => ⟨rfl, storedAs_of_replacement made⟩)
  refine .after read ?_
  rintro project _ ⟨rfl, stored⟩
  obtain rfl := stored.id
  exact (agrees_writeNoted stored known storable).andThen_pure fun _ _ _ => rfl

theorem reads_rewritten [Machine] (prior : Project) (instruction : String) (transform : Transform) :
    Reads exact Eq (rewritten prior instruction transform)
      (rewritten prior instruction transform) := by
  have asked : Reads exact Eq (ask transform prior instruction)
      (ask transform prior instruction) := by
    intro m d twin
    exact ⟨.refl _, { twin with }, rfl, rfl⟩
  refine asked.bind_eq fun reply => Action.reads_get.bind fun m d twin => ?_
  rw [twin.millis_eq]
  exact (Action.reads_ofExcept (.refl _)).bind_eq fun next =>
    (Action.reads_draw next).bind_eq fun _ => Action.reads_ofExcept (.refl _)

theorem agrees_saveRewritten [Machine] {project : Project} (environment : Environment)
    (instruction : String) {actor : Json} (at? : Option DateTime) (readable : project.Readable)
    (valid : ∃ warnings, project.check = .ok warnings) (storable : Storable actor) :
    Agrees exact Eq (saveRewritten project environment instruction actor at?)
      (saveRewritten project environment instruction actor at?) := by
  refine .after_eq (Action.reads_currentTime at?) fun time =>
    .after_eq (Action.reads_ofExcept (.refl _)) fun stamp => ?_
  have stored : Project.StoredAs project.id environment.name
      { project with metadata := labelled environment stamp project.metadata } := {
    readable := { readable with metadata := readable_labelled environment stamp readable.metadata }
    id := rfl
    environment := rfl
    valid }
  have copied : Agree (fun copy other => copy = other ∧ copy.StoredAs copy.id environment.name)
      (project.withMetadata fun metadata => .ok (labelled environment stamp metadata))
      (project.withMetadata fun metadata => .ok (labelled environment stamp metadata)) :=
    .of_eq _ fun _ made => by
      obtain ⟨-, rfl⟩ := Project.eq_of_withMetadata_ok made
      exact ⟨rfl, stored⟩
  refine .after (Action.reads_ofExcept copied) ?_
  rintro copy _ ⟨rfl, stored⟩
  exact (agrees_writeNoted stored none storable).andThen_pure fun _ _ _ => rfl

theorem agrees_enhance [Machine] {prior : Project} (instruction : Json) (transform : Transform)
    (saves : Bool)
    (environment : Json) {actor : Json} (at? : Option DateTime) (readable : prior.Readable)
    (storable : Storable actor) :
    Agrees exact Eq (enhance prior instruction transform saves environment actor at?)
      (enhance prior instruction transform saves environment actor at?) := by
  refine .after_eq (Action.reads_ofExcept (.refl _)) fun instruction =>
    .after_eq (Action.reads_ofExcept (.refl _)) fun environment? => ?_
  refine .after ((reads_rewritten prior instruction transform).keeping
    (keeps_rewritten instruction transform readable)) ?_
  rintro project _ ⟨rfl, readable, valid⟩
  split
  · exact agrees_saveRewritten _ instruction at? readable valid storable
  · exact (Action.reads_pure rfl).agrees

/-! Promoting twin projects -/

theorem like_recorded {m n : Metadata} (h : m.Like n) (record : DeploymentRecord) (limit : Nat) :
    (recorded m record limit).Like (recorded n record limit) where
  environment := h.environment
  createdAt := h.createdAt
  updatedAt := .refl _
  lastDeployment := Json.alike_obj_put h.lastDeployment _ _
  history := by
    have length : m.history.length = n.history.length := by
      simpa using Json.length_eq_of_alike_arr h.history
    have same := Json.alike_arr.mp h.history
    rw [Json.alike_arr]
    simp only [recorded, newest, List.length_append, length, List.map_drop, List.map_append, same]
  extra := h.extra

variable {projectId : String} {p q : Project}

theorem twin_asCopy [Machine] (h : Store.Loaded exact projectId Environment.builder.name p q)
    {record : DeploymentRecord} (k : record.Readable) (limit : Nat) (environment : Environment) :
    (asCopy p (recorded p.metadata record limit) environment).Twin exact
      (asCopy q (recorded q.metadata record limit) environment) := by
  have readable := readable_recorded limit h.stored.readable.metadata k
  have readable' := readable_recorded limit h.stored'.readable.metadata k
  have stored := storedAs_asCopy h.stored readable environment
  have stored' := storedAs_asCopy h.stored' readable' environment
  obtain ⟨id, name, pages, metadata⟩ := Project.alike_toJson_iff.mp h.twin.alike
  have like := like_recorded ((Metadata.alike_toJson_iff h.stored.readable.metadata.unknown
    h.stored'.readable.metadata.unknown).mp metadata) record limit
  refine ⟨stored.readable, stored'.readable, ?_, fun holds => by rw [h.twin.same holds]⟩
  rw [Project.alike_toJson_iff]
  refine ⟨id, name, pages, ?_⟩
  rw [Metadata.alike_toJson_iff stored.readable.metadata.unknown
    stored'.readable.metadata.unknown]
  exact { like with environment := .refl _ }

theorem agree_checkWithPages [Machine]
    (h : Store.Loaded exact projectId Environment.builder.name p q) :
    Agree (fun _ _ => True) p.checkWithPages q.checkWithPages := by
  obtain ⟨warnings, valid⟩ := h.stored.valid
  obtain ⟨warnings', valid'⟩ := h.stored'.valid
  obtain ⟨-, -, pages, -⟩ := Project.alike_toJson_iff.mp h.twin.alike
  have length : p.pages.length = q.pages.length := by
    simpa using Json.length_eq_of_alike_arr pages
  have none : p.pages.isEmpty = q.pages.isEmpty := by
    rw [Bool.eq_iff_iff, List.isEmpty_iff_length_eq_zero, List.isEmpty_iff_length_eq_zero, length]
  rw [Project.checkWithPages, Project.checkWithPages, none, valid, valid']
  split
  · exact .error _
  · exact .ok trivial

theorem deployed_asCopy [Machine] (h : Store.Loaded exact projectId Environment.builder.name p q)
    (target : Target) {record : DeploymentRecord} (k : record.Readable) (limit : Nat) :
    Deployed exact target
      (asCopy p (recorded p.metadata record limit) target.environment)
      (asCopy q (recorded q.metadata record limit) target.environment)
      (asCopy p (recorded p.metadata record limit) .builder)
      (asCopy q (recorded q.metadata record limit) .builder) := by
  have readable := readable_recorded limit h.stored.readable.metadata k
  have readable' := readable_recorded limit h.stored'.readable.metadata k
  obtain rfl := h.stored.id
  exact {
    copies := twin_asCopy h k limit target.environment
    builders := twin_asCopy h k limit .builder
    stored := storedAs_asCopy h.stored readable target.environment
    stored' := storedAs_asCopy h.stored' readable' target.environment
    builder := storedAs_asCopy h.stored readable .builder
    builder' := storedAs_asCopy h.stored' readable' .builder }

theorem copyable_recorded_iff [Machine]
    (h : Store.Loaded exact projectId Environment.builder.name p q)
    {record : DeploymentRecord} (k : record.Readable) (limit : Nat) :
    Project.Copyable { p with metadata := recorded p.metadata record limit } ↔
      Project.Copyable { q with metadata := recorded q.metadata record limit } := by
  obtain ⟨id, name, pages, metadata⟩ := Project.alike_toJson_iff.mp h.twin.alike
  have like := like_recorded ((Metadata.alike_toJson_iff h.stored.readable.metadata.unknown
    h.stored'.readable.metadata.unknown).mp metadata) record limit
  have unknown := (readable_recorded limit h.stored.readable.metadata k).unknown
  have unknown' := (readable_recorded limit h.stored'.readable.metadata k).unknown
  exact Project.copyable_iff_of_alike unknown unknown' (Project.alike_toJson_iff.mpr
    ⟨id, name, pages, (Metadata.alike_toJson_iff unknown unknown').mpr like⟩)

theorem agree_copiesOf [Machine] (h : Store.Loaded exact projectId Environment.builder.name p q)
    {record : DeploymentRecord} (k : record.Readable) (limit : Nat) :
    Agree (fun copies copies' => Deployed exact record.target copies.1 copies'.1 copies.2 copies'.2 ∧
        copies.1.id = projectId)
      (copiesOf p record limit) (copiesOf q record limit) := by
  have loaded : p.Copyable ↔ q.Copyable :=
    Project.copyable_iff_of_alike h.stored.readable.metadata.unknown
      h.stored'.readable.metadata.unknown h.twin.alike
  by_cases copyable : p.Copyable ∧
      Project.Copyable { p with metadata := recorded p.metadata record limit }
  · have copyable' := copyable
    rw [loaded, copyable_recorded_iff h k limit] at copyable'
    rw [copiesOf_eq_ok.mpr ⟨copyable, rfl⟩, copiesOf_eq_ok.mpr ⟨copyable', rfl⟩]
    exact .ok ⟨deployed_asCopy h record.target k limit, h.stored.id⟩
  · have copyable' := copyable
    rw [loaded, copyable_recorded_iff h k limit] at copyable'
    rw [copiesOf_eq_error.mpr ⟨copyable, rfl⟩, copiesOf_eq_error.mpr ⟨copyable', rfl⟩]
    exact .error _

theorem reads_stamp [Machine] (time : DateTime) :
    Reads exact (fun s t => s = t ∧ s ≠ "") (Action.ofExcept (stampOf time))
      (Action.ofExcept (stampOf time)) :=
  Action.reads_ofExcept (.of_eq _ fun _ stamp => ⟨rfl, ne_empty_of_stampOf stamp⟩)

theorem agrees_promote [Machine] (projectId : String) (target message : Json) {actor : Json}
    (at? : Option DateTime) (historyLimit : Int) (storable : Storable actor) :
    Agrees exact Eq (promote projectId target message actor at? historyLimit)
      (promote projectId target message actor at? historyLimit) := by
  refine .after_eq (Action.reads_ofExcept (.refl _)) fun _ =>
    .after_eq (Action.reads_ofExcept (.refl _)) fun target =>
      .after (Action.reads_mapError (Store.reads_load projectId _) _) fun p q loaded =>
        .after (Action.reads_ofExcept (agree_checkWithPages loaded)) fun _ _ _ =>
          .after_eq (Action.reads_currentTime at?) fun time => .after (reads_stamp time) ?_
  rintro deployedAt _ ⟨rfl, timeThere⟩
  refine .after Action.reads_get fun m d twin => ?_
  rw [twin.millis_eq]
  refine .after ((Action.reads_draw _).keeping (keeps_freshDeployment d.millis)) ?_
  rintro id _ ⟨rfl, idThere⟩
  have record := readable_recordOf target message actor idThere timeThere
  refine .after (Action.reads_ofExcept (agree_copiesOf loaded record historyLimit.toNat)) ?_
  rintro copies copies' ⟨deployed, rfl⟩
  exact (agrees_writeDeployment deployed storable).andThen_pure fun _ _ _ => rfl

/-! Reading -/

theorem reads_getProject [Machine] (projectId : String) :
    Reads exact (Store.Loaded exact projectId Environment.builder.name) (getProject projectId)
      (getProject projectId) :=
  Action.reads_mapError (Store.reads_load projectId _) _

theorem reads_loadCopy [Machine] (projectId : String) (environment : Json) :
    Reads exact (Project.Twin exact) (loadCopy projectId environment)
      (loadCopy projectId environment) :=
  (Action.reads_ofExcept (.refl _)).bind_eq fun environment =>
    (Store.reads_load projectId environment.name).imp fun _ _ loaded => loaded.twin

theorem reads_deployments [Machine] (projectId : String) :
    Reads exact (fun a b => Json.Like exact (.obj a) (.obj b)) (deployments projectId)
      (deployments projectId) := by
  refine (reads_getProject projectId).bind fun p q loaded => Action.reads_pure ?_
  obtain ⟨-, -, -, metadata⟩ := Project.alike_toJson_iff.mp loaded.twin.alike
  have like := (Metadata.alike_toJson_iff loaded.stored.readable.metadata.unknown
    loaded.stored'.readable.metadata.unknown).mp metadata
  refine ⟨Json.alike_obj_of_canonicalFields ?_, fun holds => by rw [loaded.twin.same holds]⟩
  have history : Json.canonical _ = Json.canonical _ := like.history
  have lastDeployment : Json.canonical _ = Json.canonical _ := like.lastDeployment
  simp only [Json.canonicalFields, history, lastDeployment]

namespace Call

/-- Answers in a relation. The entries of the catalogue may come in another order. -/
def Answers (R : Json → Json → Prop) : Call → Json → Json → Prop
  | .list, a, b => ∃ as bs cs, a = .arr as ∧ b = .arr bs ∧ cs.Perm bs ∧ List.Forall₂ R as cs
  | _, a, b => R a b

/-- An actor that is to be put on record is a text or nothing, or can be made one. -/
def HasStorableActor : Call → Prop
  | .create _ actor _ | .save _ _ _ actor _ _ | .promote _ _ _ actor _ _
  | .enhance _ _ _ _ _ actor _ | .delete _ actor => Storable actor
  | _ => True

structure Admissible [Machine] (call : Call) : Prop where
  prior : call.HasReadPrior
  actor : call.HasStorableActor

theorem Answers.imp {R S : Json → Json → Prop} {call : Call} {a b : Json} (h : call.Answers R a b)
    (k : ∀ a b, R a b → S a b) : call.Answers S a b := by
  cases call with
  | list =>
    obtain ⟨as, bs, cs, answer, answer', same, related⟩ := h
    exact ⟨as, bs, cs, answer, answer', same, related.imp k⟩
  | _ => exact k a b h

theorem like_toFields {m d : Store.Entry} (h : m.Twin exact d) :
    Json.Like exact (.obj m.toFields) (.obj d.toFields) := by
  have metadata : Json.canonical (.obj m.metadata) = Json.canonical (.obj d.metadata) :=
    h.metadata.1
  refine ⟨Json.alike_obj_of_canonicalFields ?_, fun holds => ?_⟩
  · simp only [Store.Entry.toFields, Json.canonicalFields, h.id, h.name, metadata]
  · have same : Json.obj m.metadata = Json.obj d.metadata := h.metadata.2 holds
    simp only [Store.Entry.toFields, h.id, h.name, same]

theorem like_toJson {p q : Project} (h : p = q) : Json.Like exact p.toJson q.toJson := by
  rw [h]
  exact .refl exact q.toJson

theorem agrees_perform [Machine] (call : Call) (h : call.Admissible) :
    Agrees exact (call.Answers (Json.Like exact)) call.perform call.perform := by
  have ⟨prior, actor⟩ := h
  cases call with
  | create data _ at? => exact (agrees_createProject data at? actor).map fun _ _ => like_toJson
  | save projectId environment data _ at? known =>
    exact (agrees_saveCopy projectId environment data at? known actor).map fun _ _ => like_toJson
  | promote projectId target message _ at? historyLimit =>
    refine (agrees_promote projectId target message at? historyLimit actor).andThen_pure ?_
    rintro deployment _ rfl
    exact .refl exact _
  | enhance project instruction transform saves environment _ at? =>
    obtain ⟨data, read⟩ := prior
    exact (agrees_enhance instruction transform saves environment at?
      (Project.readable_of_ofJson read) actor).map fun _ _ => like_toJson
  | delete projectId =>
    exact (agrees_deleteProject projectId actor).andThen_pure fun _ _ _ => .refl exact .null
  | get projectId =>
    exact ((reads_getProject projectId).map fun _ _ loaded => loaded.twin.document).agrees
  | load projectId environment =>
    exact ((reads_loadCopy projectId environment).map fun _ _ twin => twin.document).agrees
  | deployments projectId => exact ((reads_deployments projectId).map fun _ _ like => like).agrees
  | list =>
    refine Reads.agrees (Store.reads_catalogue.bind fun as bs listed => Action.reads_pure ?_)
    obtain ⟨cs, same, twins⟩ := listed
    refine ⟨_, _, _, rfl, rfl, same.map _, ?_⟩
    rw [List.forall₂_map_left_iff, List.forall₂_map_right_iff]
    exact twins.imp fun _ _ => like_toFields

end Call

end Sitewright.Operation
