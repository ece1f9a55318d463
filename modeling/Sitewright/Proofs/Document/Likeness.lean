import Sitewright.Proofs.Document.Copying
import Sitewright.Proofs.Document.Reading
import Sitewright.Proofs.Json.Alike

namespace Sitewright

namespace DeploymentRecord

structure Like (a b : DeploymentRecord) : Prop where
  id : a.id = b.id
  target : a.target = b.target
  deployedAt : a.deployedAt = b.deployedAt
  status : a.status = b.status
  message : a.message.Alike b.message
  deployedBy : a.deployedBy.Alike b.deployedBy

theorem like_of_alike {a b : DeploymentRecord} (h : a.toJson.Alike b.toJson) : a.Like b := by
  have under (r : DeploymentRecord) (key : String) : Json.under key r.toFields =
      Json.under key [("id", .str r.id), ("environment", .str r.target.name),
        ("deployedAt", .str r.deployedAt), ("status", .str r.status.name),
        ("message", r.message)] ++
      if r.deployedBy = .null then [] else Json.under key [("deployedBy", r.deployedBy)] := by
    rw [toFields, Json.under_append]
    split <;> rfl
  have same (key : String) := Json.alike_obj.mp h key
  simp only [under] at same
  have target : a.target.name = b.target.name := by
    simpa [Json.canonical] using same "environment"
  have status : a.status.name = b.status.name := by
    simpa [Json.canonical] using same "status"
  have deployedBy : (if a.deployedBy = .null then [] else [a.deployedBy.canonical]) =
      if b.deployedBy = .null then [] else [b.deployedBy.canonical] := by
    simpa [Json.canonical] using same "deployedBy"
  refine ⟨?_, ?_, ?_, ?_, ?_, ?_⟩
  · simpa [Json.canonical] using same "id"
  · rw [← Option.some_inj, ← Target.ofName?_name, target, Target.ofName?_name]
  · simpa [Json.canonical] using same "deployedAt"
  · rw [← Option.some_inj, ← DeploymentStatus.ofName?_name, status, DeploymentStatus.ofName?_name]
  · simpa [Json.canonical, Json.Alike] using same "message"
  · split at deployedBy <;> split at deployedBy
    · next none none' => rw [none, none']
    · cases deployedBy
    · cases deployedBy
    · exact List.singleton_inj.mp deployedBy

end DeploymentRecord

namespace Metadata

structure Like (m n : Metadata) : Prop where
  environment : m.environment.Alike n.environment
  createdAt : m.createdAt.Alike n.createdAt
  updatedAt : m.updatedAt.Alike n.updatedAt
  lastDeployment : (Json.obj m.lastDeployment).Alike (.obj n.lastDeployment)
  history : (Json.arr (m.history.map DeploymentRecord.toJson)).Alike
    (.arr (n.history.map DeploymentRecord.toJson))
  extra : (Json.obj m.extra).Alike (.obj n.extra)

variable {m n : Metadata}

theorem under_toFields (h : ∀ field ∈ m.extra, field.1 ∉ knownKeys) (key : String) :
    Json.under key m.toFields = Json.under key m.extra ++ Json.under key m.knownFields.present := by
  rw [toFields_eq_append h, Json.under_append]

theorem alike_toFields_iff (h : ∀ field ∈ m.extra, field.1 ∉ knownKeys)
    (k : ∀ field ∈ n.extra, field.1 ∉ knownKeys) :
    (Json.obj m.toFields).Alike (.obj n.toFields) ↔
      (Json.obj m.extra).Alike (.obj n.extra) ∧
        (Json.obj m.knownFields.present).Alike (.obj n.knownFields.present) := by
  simp only [Json.alike_obj, under_toFields h, under_toFields k, ← forall_and]
  refine forall_congr' fun key => ?_
  by_cases known : key ∈ knownKeys
  · have none {l : Metadata} (h : ∀ field ∈ l.extra, field.1 ∉ knownKeys) :
        Json.under key l.extra = [] :=
      Json.under_eq_nil fun field hField same => h field hField (same ▸ known)
    simp [none h, none k]
  · have none (l : Metadata) : Json.under key l.knownFields.present = [] :=
      Json.under_present_eq_nil (map_fst_knownFields l ▸ known)
    simp [none]

theorem alike_unless_empty {as bs : Fields Json} :
    (if as.isEmpty then Json.null else .obj as).Alike (if bs.isEmpty then .null else .obj bs) ↔
      (Json.obj as).Alike (.obj bs) := by
  constructor
  · intro h
    cases as with
    | nil =>
      cases bs with
      | nil => exact .refl _
      | cons => cases h
    | cons =>
      cases bs with
      | nil => cases h
      | cons => exact h
  · intro h
    have empty := Json.eq_nil_of_alike_obj h
    cases as with
    | nil =>
      rw [empty.mp rfl]
    | cons =>
      cases bs with
      | nil => cases empty.mpr rfl
      | cons => exact h

theorem alike_unless_none {xs ys : List Json} :
    (if xs.isEmpty then Json.null else .arr xs).Alike (if ys.isEmpty then .null else .arr ys) ↔
      (Json.arr xs).Alike (.arr ys) := by
  cases xs with
  | nil =>
    cases ys with
    | nil => exact ⟨fun _ => .refl _, fun _ => .refl _⟩
    | cons => simp [Json.Alike, Json.canonical, Json.canonicalItems]
  | cons =>
    cases ys with
    | nil => simp [Json.Alike, Json.canonical, Json.canonicalItems]
    | cons => exact Iff.rfl

theorem alike_toJson_iff (h : ∀ field ∈ m.extra, field.1 ∉ knownKeys)
    (k : ∀ field ∈ n.extra, field.1 ∉ knownKeys) : m.toJson.Alike n.toJson ↔ m.Like n := by
  have names : m.knownFields.map Prod.fst = n.knownFields.map Prod.fst := rfl
  have records (l : Metadata) :
      l.history.isEmpty = (l.history.map DeploymentRecord.toJson).isEmpty :=
    List.isEmpty_map.symm
  rw [toJson, toJson, alike_toFields_iff h k, Json.alike_present names (distinct_knownFields m)]
  simp only [knownFields, List.map_cons, List.map_nil, List.cons.injEq, and_true, records]
  constructor
  · rintro ⟨extra, environment, createdAt, updatedAt, lastDeployment, history⟩
    exact {
      environment, createdAt, updatedAt, extra
      lastDeployment := alike_unless_empty.mp lastDeployment
      history := alike_unless_none.mp history }
  · intro like
    exact ⟨like.extra, like.environment, like.createdAt, like.updatedAt,
      alike_unless_empty.mpr like.lastDeployment, alike_unless_none.mpr like.history⟩

end Metadata

namespace Project

theorem alike_toJson_iff {p q : Project} : p.toJson.Alike q.toJson ↔
    p.id = q.id ∧ p.name = q.name ∧
      (Json.arr (p.pages.map Page.toJson)).Alike (.arr (q.pages.map Page.toJson)) ∧
      p.metadata.toJson.Alike q.metadata.toJson := by
  have present (r : Project) : r.toFields.present = r.toFields := rfl
  have names : p.toFields.map Prod.fst = q.toFields.map Prod.fst := rfl
  have distinct : (p.toFields.map Prod.fst).Nodup := by
    show ["id", "name", "pages", "metadata"].Nodup
    decide
  have values := Json.alike_present names distinct
  rw [present, present] at values
  rw [toJson, toJson, values, ← Json.alike_str, ← Json.alike_str]
  simp [toFields, Json.Alike]

theorem toJson_metadata_of_toJson {p q : Project} (h : p.toJson = q.toJson) :
    p.metadata.toJson = q.metadata.toJson := by
  simp only [toJson, toFields, Json.obj.injEq, List.cons.injEq, Prod.mk.injEq] at h
  exact h.2.2.2.1.2

end Project

/-! Calls -/

theorem largest_eq_of_forall₂ {α β : Type} {size : α → Nat} {size' : β → Nat} {as : List α}
    {bs : List β} (h : List.Forall₂ (fun a b => size a = size' b) as bs) :
    largest size as = largest size' bs := by
  induction h with
  | nil => rfl
  | cons same _ ih => rw [largest, largest, same, ih]

theorem nesting_unless_empty (fields : Fields Json) :
    (if fields.isEmpty then Json.null else .obj fields).nesting = (Json.obj fields).nesting := by
  split
  · next empty =>
    rw [List.isEmpty_iff.mp empty]
    rfl
  · rfl

namespace Node

mutual

theorem copyCalls_eq_of_alike : ∀ {a b : Node}, a.toJson.Alike b.toJson → a.copyCalls = b.copyCalls
  | ⟨id, type, props, styles, metadata, children⟩, ⟨id', type', props', styles', metadata',
      children'⟩ => fun alike => by
    generalize same : Node.mk id type props styles metadata children = a at alike ⊢
    generalize same' : Node.mk id' type' props' styles' metadata' children' = b at alike ⊢
    obtain ⟨fields, written, holds⟩ := a.exists_holds
    obtain ⟨fields', written', holds'⟩ := b.exists_holds
    rw [written, written'] at alike
    have value := Json.alike_value alike
    have props := (value "props").nesting_eq
    have styles := (value "styles").nesting_eq
    have metadata := (value "metadata").nesting_eq
    have below := value "children"
    rw [holds.props, holds'.props] at props
    rw [holds.styles, holds'.styles] at styles
    rw [holds.metadata, holds'.metadata, nesting_unless_empty, nesting_unless_empty] at metadata
    rw [holds.children, holds'.children] at below
    subst same same'
    have calls := copyCallsList_eq_of_alike below
    simp only [copyCalls_eq, fieldsNesting_ownFields, props, styles, metadata, calls]

theorem copyCallsList_eq_of_alike : ∀ {as bs : List Node},
    (Json.arr (toJsonList as)).Alike (.arr (toJsonList bs)) → copyCallsList as = copyCallsList bs
  | [], [], _ => rfl
  | [], _ :: _, alike => by
    simpa [toJsonList] using Json.length_eq_of_alike_arr alike
  | _ :: _, [], alike => by
    simpa [toJsonList] using Json.length_eq_of_alike_arr alike
  | a :: as, b :: bs, alike => by
    have same := Json.alike_arr.mp alike
    rw [toJsonList, toJsonList, List.map_cons, List.map_cons, List.cons.injEq] at same
    rw [copyCallsList, copyCallsList, copyCalls_eq_of_alike same.1,
      copyCallsList_eq_of_alike (Json.alike_arr.mpr same.2)]

end

end Node

theorem Page.copyCalls_eq_of_alike {a b : Page} (h : a.toJson.Alike b.toJson) :
    a.copyCalls = b.copyCalls := by
  have tree (page : Page) : page.toFields.value "tree" = .arr (Node.toJsonList page.tree) := by
    simp [toFields]
  have metadata (page : Page) : (page.toFields.value "metadata").nesting =
      (Json.obj page.metadata).nesting := by
    rw [← nesting_unless_empty, toFields]
    split <;> simp
  have value := Json.alike_value h
  have below := value "tree"
  rw [tree, tree] at below
  rw [copyCalls, copyCalls, ← metadata, (value "metadata").nesting_eq, metadata,
    Node.copyCallsList_eq_of_alike below]

theorem Metadata.Like.copyCalls_eq {m n : Metadata} (h : m.Like n) : m.copyCalls = n.copyCalls := by
  have records : List.Forall₂ (fun a b : DeploymentRecord => a.copyCalls = b.copyCalls)
      m.history n.history := by
    have same := Json.alike_arr.mp h.history
    rw [List.map_map, List.map_map, ← List.forall₂_eq_eq_eq, List.forall₂_map_left_iff,
      List.forall₂_map_right_iff] at same
    refine same.imp fun a b alike => ?_
    have nesting := Json.Alike.nesting_eq (a := a.toJson) (b := b.toJson) alike
    simp only [DeploymentRecord.toJson, Json.nesting, Nat.add_right_cancel_iff] at nesting
    rw [DeploymentRecord.copyCalls, DeploymentRecord.copyCalls, nesting]
  simp only [copyCalls, values, Json.itemsNesting, h.environment.nesting_eq, h.createdAt.nesting_eq,
    h.updatedAt.nesting_eq, h.lastDeployment.nesting_eq, h.extra.nesting_eq,
    largest_eq_of_forall₂ records]

theorem Project.copyable_iff_of_alike [Machine] {p q : Project}
    (h : ∀ field ∈ p.metadata.extra, field.1 ∉ Metadata.knownKeys)
    (k : ∀ field ∈ q.metadata.extra, field.1 ∉ Metadata.knownKeys)
    (alike : p.toJson.Alike q.toJson) : p.Copyable ↔ q.Copyable := by
  obtain ⟨-, -, pages, metadata⟩ := alike_toJson_iff.mp alike
  have each : List.Forall₂ (fun a b : Page => a.copyCalls = b.copyCalls) p.pages q.pages := by
    have same := Json.alike_arr.mp pages
    rw [List.map_map, List.map_map, ← List.forall₂_eq_eq_eq, List.forall₂_map_left_iff,
      List.forall₂_map_right_iff] at same
    exact same.imp fun _ _ alike => Page.copyCalls_eq_of_alike alike
  rw [Copyable, Copyable, copyCalls, copyCalls, largest_eq_of_forall₂ each,
    ((Metadata.alike_toJson_iff h k).mp metadata).copyCalls_eq]

end Sitewright
