import Sitewright.Document.Project
import Sitewright.Document.Repair

/-!
Reading and writing projects. What a document can be read as is described by a predicate for each
kind of value; a value that has it, written and read again, is the same. Putting identifiers in
order changes the identifiers of nodes only, so what could be read can be read afterwards.
-/

namespace Sitewright

open Shape (Copyable EachCopyable)

/-- A node that may have been read inside a number of calls, with a number of levels left. -/
inductive Node.Readable [Machine] : Nat → Nat → Node → Prop
  | mk {outer levels : Nat} {node : Node} : node.type ≠ "" → Copyable (outer + 2) node.props →
      Copyable (outer + 2) node.metadata →
      (∀ child ∈ node.children, Readable (outer + 2) levels child) →
      Readable outer (levels + 1) node

structure DeploymentRecord.Readable (record : DeploymentRecord) : Prop where
  id : record.id ≠ ""
  deployedAt : record.deployedAt ≠ ""
  message : record.message.isTruthy ∨ record.message = .str ""

structure Metadata.Readable [Machine] (metadata : Metadata) : Prop where
  environment : metadata.environment = .null ∨
    ∃ environment : Environment, metadata.environment = .str environment.name
  lastDeployment : Copyable 3 metadata.lastDeployment
  history : ∀ record ∈ metadata.history, record.Readable
  extra : EachCopyable 3 metadata.extra
  unknown : ∀ field ∈ metadata.extra, field.1 ∉ Metadata.knownKeys

structure Page.Readable [Machine] (page : Page) : Prop where
  id : page.id ≠ ""
  slug : page.slug ≠ ""
  tree : ∀ root ∈ page.tree, root.Readable 4 maxTreeDepth
  metadata : Copyable 4 page.metadata

structure Project.Readable [Machine] (project : Project) : Prop where
  id : project.id ≠ ""
  pages : ∀ page ∈ project.pages, page.Readable
  metadata : project.metadata.Readable

theorem Json.orElse_empty (value : Json) :
    (value.orElse (.str "")).isTruthy ∨ value.orElse (.str "") = .str "" := by
  unfold orElse
  split
  · next truthy => exact .inl truthy
  · exact .inr rfl

def recordsOf (metadata : Json) : List Json :=
  (Fields.value (metadata.asObject?.getD []) "deploymentHistory").asArray?.getD []

def recordsIn (document : Json) : List Json :=
  recordsOf (Fields.value (document.asObject?.getD []) "metadata")

def Shape.itemsOf (fields : Fields Json) (key : String) : List Json :=
  (fields.value key).asArray?.getD []

theorem Shape.itemsOf_of_optionalArray {place : Place} {fields : Fields Json} {key : String}
    {items : List Json} (h : optionalArray place fields key = .ok items) :
    itemsOf fields key = items := by
  unfold itemsOf
  unfold optionalArray at h
  split at h
  · next absent =>
    cases h
    rw [absent]
    rfl
  · next items there =>
    cases h
    rw [there]
    rfl
  · cases h

theorem recordsOf_of_optionalArray {place : Place} {fields : Fields Json} {records : List Json}
    (h : Shape.optionalArray place fields "deploymentHistory" = .ok records) :
    recordsOf (.obj fields) = records := Shape.itemsOf_of_optionalArray h

namespace Node

theorem copyable_styles [Machine] {outer : Nat} (le : outer ≤ 200) (styles : Fields String) :
    Copyable outer (styles.map fun f => (f.1, .str f.2)) := by
  refine Shape.copyable_of_nesting_le le ?_
  induction styles with
  | nil => simp [Json.fieldsNesting]
  | cons f rest ih =>
    simp only [List.map_cons, Json.fieldsNesting, Json.nesting_str]
    omega

@[simp] theorem stylesOf_map_str (styles : Fields String) :
    stylesOf (styles.map fun f => (f.1, .str f.2)) = .ok styles := by
  refine stylesOf_eq_ok.mpr ⟨Json.fieldsWritable_iff.mpr ?_, by simp [Function.comp_def]⟩
  rintro _ there
  obtain ⟨style, -, rfl⟩ := List.mem_map.mp there
  rfl

theorem readable_of_ofJson [Machine] {outer levels : Nat} {place : Place} {data : Json}
    {node : Node} (le : outer + 2 * levels ≤ 200) (h : ofJson outer levels place data = .ok node) :
    node.Readable outer levels := by
  induction levels generalizing outer place data node with
  | zero => cases data <;> cases h
  | succ levels ih =>
    cases data with
    | obj fields =>
      simp only [ofJson] at h
      obtain ⟨type, hType, h⟩ := bind_eq_ok.mp h
      obtain ⟨id, -, h⟩ := bind_eq_ok.mp h
      obtain ⟨given, -, h⟩ := bind_eq_ok.mp h
      obtain ⟨styles, -, h⟩ := bind_eq_ok.mp h
      obtain ⟨values, -, h⟩ := bind_eq_ok.mp h
      obtain ⟨children, hChildren, h⟩ := bind_eq_ok.mp h
      obtain ⟨props, hProps, h⟩ := bind_eq_ok.mp h
      obtain ⟨metadata, hMetadata, h⟩ := bind_eq_ok.mp h
      cases h
      have room : outer + 2 ≤ 200 := by omega
      refine .mk (Shape.ne_empty_of_requiredText hType)
        (Shape.copyable_of_optionalObject room hProps)
        (Shape.copyable_of_optionalObject room hMetadata) ?_
      intro child hChild
      obtain ⟨_, _, -, hRead⟩ := Shape.exists_read_of_items hChildren hChild
      exact ih (by omega) hRead
    | _ => cases h

structure Holds (node : Node) (fields : Fields Json) : Prop where
  type : fields.value "type" = .str node.type
  id : fields.value "id" = .str node.id
  props : fields.value "props" = .obj node.props
  styles : fields.value "styles" = .obj (node.styles.map fun f => (f.1, .str f.2))
  metadata : fields.value "metadata" =
    if node.metadata.isEmpty then .null else .obj node.metadata
  children : fields.value "children" = .arr (toJsonList node.children)

theorem exists_holds (node : Node) : ∃ fields, node.toJson = .obj fields ∧ node.Holds fields := by
  refine ⟨_, toJson_eq node, ?_⟩
  generalize written : node.ownFields ++ [("children", .arr (toJsonList node.children))] = fields
  constructor
  case metadata =>
    simp only [← written, ownFields]
    split <;> simp
  case children =>
    simp only [← written, ownFields]
    split <;> simp
  all_goals simp [← written, ownFields]

theorem ofJson_toJson [Machine] {outer levels : Nat} {node : Node} (le : outer + 2 * levels ≤ 200)
    (h : node.Readable outer levels) (place : Place) :
    ofJson outer levels place node.toJson = .ok node := by
  induction h generalizing place with
  | @mk outer levels node type props metadata _ ih =>
    have children : Shape.items (.field place "children") (ofJson (outer + 2) levels)
        (toJsonList node.children) = .ok node.children := by
      rw [toJsonList_eq_map]
      exact Shape.items_map fun child hChild place => ih child hChild (by omega) place
    have styles : Copyable (outer + 2) (node.styles.map fun f => (f.1, .str f.2)) :=
      copyable_styles (by omega) node.styles
    obtain ⟨fields, written, holds⟩ := node.exists_holds
    simp only [written, ofJson, Shape.requiredText_of_str holds.type type,
      Shape.optionalText_of_str holds.id,
      Shape.optionalObject_of_obj holds.styles styles,
      Shape.optionalArray_of_arr holds.children, children,
      Shape.optionalObject_of_obj holds.props props,
      Shape.optionalObject_of_unless holds.metadata metadata, stylesOf_map_str, ok_bind]
    cases node
    rfl

end Node

namespace DeploymentRecord

theorem readable_of_ofJson {place : Place} {data : Json} {record : DeploymentRecord}
    (h : ofJson place data = .ok record) : record.Readable := by
  unfold ofJson at h
  obtain ⟨fields, -, h⟩ := bind_eq_ok.mp h
  obtain ⟨target, -, h⟩ := bind_eq_ok.mp h
  obtain ⟨status, -, h⟩ := bind_eq_ok.mp h
  obtain ⟨id, hId, h⟩ := bind_eq_ok.mp h
  obtain ⟨deployedAt, hDeployedAt, h⟩ := bind_eq_ok.mp h
  cases h
  exact {
    id := Shape.ne_empty_of_requiredText hId
    deployedAt := Shape.ne_empty_of_requiredText hDeployedAt
    message := Json.orElse_empty _ }

theorem ofJson_toJson {record : DeploymentRecord} (h : record.Readable) (place : Place) :
    ofJson place record.toJson = .ok record := by
  have message : record.message.orElse (.str "") = record.message := by
    rcases h.message with truthy | empty
    · simp [Json.orElse, truthy]
    · rw [empty]
      rfl
  unfold ofJson toJson
  generalize written : record.toFields = fields
  have hTarget : fields.value "environment" = .str record.target.name := by
    simp [← written, toFields]
  have hStatus : fields.get? "status" = some (.str record.status.name) := by
    simp [← written, toFields, Fields.get?]
  have hId : fields.value "id" = .str record.id := by simp [← written, toFields]
  have hDeployedAt : fields.value "deployedAt" = .str record.deployedAt := by
    simp [← written, toFields]
  have hMessage : fields.value "message" = record.message := by simp [← written, toFields]
  have hDeployedBy : fields.value "deployedBy" = record.deployedBy := by
    simp only [← written, toFields]
    split <;> simp [*]
  simp only [Shape.object, ok_bind, hTarget, Target.ofJson_name, hStatus,
    DeploymentStatus.ofJson_name, Shape.requiredText_of_str hId h.id,
    Shape.requiredText_of_str hDeployedAt h.deployedAt, hMessage, message, hDeployedBy]
  rfl

end DeploymentRecord

namespace Metadata

theorem isEnvironment_of_environmentOf {place : Place} {value found : Json}
    (h : environmentOf place value = .ok found) :
    found = .null ∨ ∃ environment : Environment, found = .str environment.name := by
  unfold environmentOf at h
  split at h
  · exact .inl (Except.ok.inj h).symm
  · split at h
    · next environment known =>
      cases h
      exact .inr ⟨environment, by rw [Environment.name_of_ofName? known]⟩
    · cases h
  · cases h

theorem readable_of_ofFields [Machine] {place : Place} {fields : Fields Json} {metadata : Metadata}
    (h : ofFields 1 place fields = .ok metadata) : metadata.Readable := by
  unfold ofFields at h
  obtain ⟨environment, hEnvironment, h⟩ := bind_eq_ok.mp h
  obtain ⟨lastDeployment, hLast, h⟩ := bind_eq_ok.mp h
  obtain ⟨values, -, h⟩ := bind_eq_ok.mp h
  obtain ⟨history, hHistory, h⟩ := bind_eq_ok.mp h
  obtain ⟨extra, hExtra, h⟩ := bind_eq_ok.mp h
  obtain ⟨copyable, rfl⟩ := Shape.eachCopied_eq_ok.mp hExtra
  cases h
  refine { environment := ?_, lastDeployment := Shape.copyable_of_optionalObject (by decide) hLast,
           history := ?_, extra := copyable, unknown := ?_ }
  · exact isEnvironment_of_environmentOf hEnvironment
  · intro record hRecord
    obtain ⟨_, _, -, hRead⟩ := Shape.exists_read_of_items hHistory hRecord
    exact DeploymentRecord.readable_of_ofJson hRead
  · intro field hField
    simpa using (List.mem_filter.mp hField).2

theorem environmentOf_of (place : Place) {value : Json}
    (h : value = .null ∨ ∃ environment : Environment, value = .str environment.name) :
    environmentOf place value = .ok value := by
  rcases h with rfl | ⟨environment, rfl⟩
  · rfl
  · simp [environmentOf]

theorem filter_toFields {metadata : Metadata}
    (h : ∀ field ∈ metadata.extra, field.1 ∉ knownKeys) :
    metadata.toFields.filter (fun f => !knownKeys.contains f.1) = metadata.extra := by
  have kept : metadata.extra.filter (fun f => !knownKeys.contains f.1) = metadata.extra := by
    rw [List.filter_eq_self]
    simpa using h
  have dropped : metadata.knownFields.present.filter (fun f => !knownKeys.contains f.1) = [] := by
    rw [List.filter_eq_nil_iff]
    intro field hField
    have known : field.1 ∈ knownKeys :=
      map_fst_knownFields metadata ▸ List.mem_map_of_mem (List.mem_filter.mp hField).1
    simpa using known
  rw [toFields_eq_append h, List.filter_append, kept, dropped, List.append_nil]

/-- Metadata are read from all fields that hold their values, in any order, with the fields that are
not looked at besides. -/
theorem ofFields_of_value [Machine] {metadata : Metadata} (h : metadata.Readable)
    {fields : Fields Json}
    (value : ∀ key ∈ knownKeys, fields.value key = metadata.knownFields.value key)
    (rest : fields.filter (fun f => !knownKeys.contains f.1) = metadata.extra) (place : Place) :
    ofFields 1 place fields = .ok metadata := by
  have hEnvironment : fields.value "environment" = metadata.environment := value _ (by decide)
  have hCreatedAt : fields.value "createdAt" = metadata.createdAt := value _ (by decide)
  have hUpdatedAt : fields.value "updatedAt" = metadata.updatedAt := value _ (by decide)
  have hLast : fields.value "lastDeployment" =
      if metadata.lastDeployment.isEmpty then .null else .obj metadata.lastDeployment :=
    value _ (by decide)
  have hRecords : fields.value "deploymentHistory" =
      if metadata.history.isEmpty then .null
      else .arr (metadata.history.map DeploymentRecord.toJson) := value _ (by decide)
  have hHistory : Shape.items (.field place "deploymentHistory") DeploymentRecord.ofJson
      (metadata.history.map DeploymentRecord.toJson) = .ok metadata.history :=
    Shape.items_map fun record hRecord place =>
      DeploymentRecord.ofJson_toJson (h.history record hRecord) place
  simp only [ofFields, hEnvironment, environmentOf_of place h.environment,
    Shape.optionalObject_of_unless hLast h.lastDeployment, Shape.optionalArray_of_unless hRecords,
    hHistory, rest, Shape.eachCopied_of_le h.extra, hCreatedAt, hUpdatedAt, ok_bind]
  rfl

theorem ofFields_toFields [Machine] {metadata : Metadata} (h : metadata.Readable) (place : Place) :
    ofFields 1 place metadata.toFields = .ok metadata :=
  ofFields_of_value h (fun _ known => value_toFields h.unknown known) (filter_toFields h.unknown)
    place

theorem ofFields_put_environment [Machine] {metadata : Metadata} (h : metadata.Readable)
    (place : Place) (environment : Environment) :
    ofFields 1 place (metadata.toFields.put "environment" (.str environment.name)) =
      .ok { metadata with environment := .str environment.name } := by
  have readable : Readable { metadata with environment := .str environment.name } :=
    { h with environment := .inr ⟨environment, rfl⟩ }
  refine ofFields_of_value readable (fun key known => ?_) ?_ place
  · rw [Fields.value_put]
    split
    · next same =>
      subst same
      rfl
    · next other =>
      rw [value_toFields h.unknown known]
      simp only [knownFields, Fields.value_cons, if_neg other]
  · rw [Fields.filter_put_of_not _ (fun _ => rfl), filter_toFields h.unknown]

theorem readable_of_ofJson [Machine] {place : Place} {data : Json} {metadata : Metadata}
    (h : ofJson 1 place data = .ok metadata) : metadata.Readable := by
  unfold ofJson at h
  split at h
  · cases h
    exact {
      environment := .inl rfl
      lastDeployment := Shape.copyable_nil (by decide)
      history := by simp
      extra := Nat.le_trans (by decide) Machine.roomy
      unknown := by simp }
  · exact readable_of_ofFields h
  · cases h

end Metadata

namespace Page

theorem readable_of_ofJson [Machine] {place : Place} {data : Json} {page : Page}
    (h : ofJson 2 place data = .ok page) : page.Readable := by
  unfold ofJson at h
  obtain ⟨fields, -, h⟩ := bind_eq_ok.mp h
  obtain ⟨roots, -, h⟩ := bind_eq_ok.mp h
  obtain ⟨name, -, h⟩ := bind_eq_ok.mp h
  obtain ⟨id, hId, h⟩ := bind_eq_ok.mp h
  obtain ⟨slug, hSlug, h⟩ := bind_eq_ok.mp h
  obtain ⟨tree, hTree, h⟩ := bind_eq_ok.mp h
  obtain ⟨metadata, hMetadata, h⟩ := bind_eq_ok.mp h
  cases h
  refine { id := Shape.ne_empty_of_requiredText hId, slug := Shape.ne_empty_of_requiredText hSlug,
           tree := ?_, metadata := Shape.copyable_of_optionalObject (by decide) hMetadata }
  intro root hRoot
  obtain ⟨_, _, -, hRead⟩ := Shape.exists_read_of_items hTree hRoot
  exact Node.readable_of_ofJson (by decide) hRead

theorem ofJson_toJson [Machine] {page : Page} (h : page.Readable) (place : Place) :
    ofJson 2 place page.toJson = .ok page := by
  have hNodes : Shape.items (.field place "tree") (Node.ofJson 4 maxTreeDepth)
      (Node.toJsonList page.tree) = .ok page.tree := by
    rw [Node.toJsonList_eq_map]
    exact Shape.items_map fun root hRoot place =>
      Node.ofJson_toJson (by decide) (h.tree root hRoot) place
  unfold ofJson toJson
  generalize written : page.toFields = fields
  have hRoots : fields.value "tree" = .arr (Node.toJsonList page.tree) := by
    simp [← written, toFields]
  have hName : fields.value "name" = .str page.name := by simp [← written, toFields]
  have hId : fields.value "id" = .str page.id := by simp [← written, toFields]
  have hSlug : fields.value "slug" = .str page.slug := by simp [← written, toFields]
  have hMetadata : fields.value "metadata" =
      if page.metadata.isEmpty then .null else .obj page.metadata := by
    simp only [← written, toFields]
    split <;> simp
  simp only [Shape.object, treeOf, hRoots, Shape.optionalText_of_str hName,
    Shape.requiredText_of_str hId h.id, Shape.requiredText_of_str hSlug h.slug, hNodes,
    Shape.optionalObject_of_unless hMetadata h.metadata, ok_bind]
  rfl

end Page

namespace Project

theorem readable_of_ofJson [Machine] {data : Json} {project : Project}
    (h : ofJson data = .ok project) :
    project.Readable := by
  unfold ofJson at h
  obtain ⟨fields, -, h⟩ := bind_eq_ok.mp h
  obtain ⟨name, -, h⟩ := bind_eq_ok.mp h
  obtain ⟨id, hId, h⟩ := bind_eq_ok.mp h
  obtain ⟨values, -, h⟩ := bind_eq_ok.mp h
  obtain ⟨pages, hPages, h⟩ := bind_eq_ok.mp h
  obtain ⟨metadata, hMetadata, h⟩ := bind_eq_ok.mp h
  cases h
  refine { id := Shape.ne_empty_of_requiredText hId, pages := ?_,
           metadata := Metadata.readable_of_ofJson hMetadata }
  intro page hPage
  obtain ⟨_, _, -, hRead⟩ := Shape.exists_read_of_items hPages hPage
  exact Page.readable_of_ofJson hRead

theorem id_of_ofJson [Machine] {data : Json} {project : Project} (h : ofJson data = .ok project) :
    Fields.value (data.asObject?.getD []) "id" = .str project.id := by
  cases data with
  | obj fields =>
    simp only [ofJson, Shape.object, ok_bind] at h
    obtain ⟨name, -, h⟩ := bind_eq_ok.mp h
    obtain ⟨id, hId, h⟩ := bind_eq_ok.mp h
    obtain ⟨values, -, h⟩ := bind_eq_ok.mp h
    obtain ⟨pages, -, h⟩ := bind_eq_ok.mp h
    obtain ⟨metadata, -, h⟩ := bind_eq_ok.mp h
    cases h
    exact Shape.str_of_requiredText hId
  | _ => cases h

theorem ofJson_put_metadata [Machine] {project : Project} (h : project.Readable) {data : Json}
    {metadata : Metadata} (read : Metadata.ofJson 1 (.named "metadata") data = .ok metadata) :
    ofJson (.obj (Fields.put project.toFields "metadata" data)) =
      .ok { project with metadata := metadata } := by
  have hItems : Shape.items (.named "pages") (Page.ofJson 2) (project.pages.map Page.toJson) =
      .ok project.pages :=
    Shape.items_map fun page hPage place => Page.ofJson_toJson (h.pages page hPage) place
  unfold ofJson
  generalize written : Fields.put project.toFields "metadata" data = fields
  have hName : fields.value "name" = .str project.name := by simp [← written, toFields]
  have hId : fields.value "id" = .str project.id := by simp [← written, toFields]
  have hPages : fields.value "pages" = .arr (project.pages.map Page.toJson) := by
    simp [← written, toFields]
  have hMetadata : fields.value "metadata" = data := by simp [← written]
  simp only [Shape.object, Shape.optionalText_of_str hName, Shape.requiredText_of_str hId h.id,
    Shape.optionalArray_of_arr hPages, hItems, hMetadata, read, ok_bind]
  rfl

theorem ofJson_toJson [Machine] {project : Project} (h : project.Readable) :
    ofJson project.toJson = .ok project := by
  have same : Fields.put project.toFields "metadata" project.metadata.toJson = project.toFields := by
    simp [toFields, Fields.put]
  have read : Metadata.ofJson 1 (.named "metadata") project.metadata.toJson =
      .ok project.metadata := Metadata.ofFields_toFields h.metadata _
  rw [toJson, ← same, ofJson_put_metadata h read]

theorem toJson_inj [Machine] {a b : Project} (ha : a.Readable) (hb : b.Readable) :
    a.toJson = b.toJson ↔ a = b := by
  refine ⟨fun same => ?_, congrArg toJson⟩
  have read := ofJson_toJson ha
  rw [same, ofJson_toJson hb] at read
  exact (Except.ok.inj read).symm

/-- The project as it stands in an environment; nothing else in it changes. -/
def inEnvironment (project : Project) (environment : Environment) : Project :=
  { project with metadata := { project.metadata with environment := .str environment.name } }

def normalized [Machine] (data : Json) : Except Error Json := (ofJson data).map toJson

/-- A document that leaves out what it can, with a style that is no text, falsy values for texts and
fields of metadata that are not looked at. -/
def sparseDocument : Json :=
  .obj [
    ("id", .str "p1"), ("name", .null),
    ("pages", .arr [.obj [("id", .str "g1"), ("slug", .str "/"), ("metadata", .null),
      ("tree", .arr [.obj [("type", .str "Body"), ("id", .int 0),
        ("styles", .obj [("zIndex", .int 3)]),
        ("children", .arr [.obj [("type", .str "Text"), ("id", .str "t")]])]])]]),
    ("metadata", .obj [("theme", .str "dark"), ("environment", .str "staging"), ("owner", .int 7),
      ("deploymentHistory", .arr [.obj [("id", .str "d1"), ("environment", .str "staging"),
        ("deployedAt", .str "2024"), ("message", .bool false)]])])]

def sparseProject : Project where
  id := "p1"
  name := ""
  pages := [{
    id := "g1", name := "", slug := "/"
    tree := [{
      id := "", type := "Body", styles := [("zIndex", "3")]
      children := [{ id := "t", type := "Text" }] }] }]
  metadata := {
    environment := .str "staging"
    history := [{ id := "d1", target := .staging, deployedAt := "2024" }]
    extra := [("theme", .str "dark"), ("owner", .int 7)] }

end Project

namespace Repair

mutual

theorem readable_relabel [Machine] : ∀ (node : Node) (ids : List String) {outer levels : Nat},
    node.Readable outer levels → (relabel node ids).1.Readable outer levels
  | ⟨_, _, _, _, _, children⟩, ids, _, _, .mk type props metadata readable =>
    .mk type props metadata (readable_relabelList children (ids.drop 1) readable)

theorem readable_relabelList [Machine] :
    ∀ (nodes : List Node) (ids : List String) {outer levels : Nat},
    (∀ node ∈ nodes, node.Readable outer levels) →
      ∀ node ∈ (relabelList nodes ids).1, node.Readable outer levels
  | [], _, _, _, _ => by simp [relabelList]
  | first :: rest, ids, outer, levels, readable => by
    simp only [relabelList, List.forall_mem_cons]
    constructor
    · exact readable_relabel first ids (readable first List.mem_cons_self)
    · exact readable_relabelList rest _ fun node hNode =>
        readable node (List.mem_cons_of_mem first hNode)

end

variable {known : Fields String} {millis : Int}

theorem readable_page [Machine] {before : Page} (random : Random) (h : before.Readable) :
    (page known millis before random).1.Readable :=
  { h with tree := readable_relabelList before.tree _ h.tree }

theorem readable_pages [Machine] {before : List Page} (random : Random)
    (h : ∀ page ∈ before, page.Readable) :
    ∀ page ∈ (pages known millis before random).1, page.Readable := by
  induction before generalizing random with
  | nil => simp [pages]
  | cons first rest ih =>
    simp only [pages, List.forall_mem_cons]
    constructor
    · exact readable_page random (h first List.mem_cons_self)
    · exact ih _ fun page hPage => h page (List.mem_cons_of_mem first hPage)

end Repair

theorem Project.readable_repairIds [Machine] (prior : Project) {enhanced : Project} (millis : Int)
    (random : Random) (h : enhanced.Readable) :
    (prior.repairIds enhanced millis random).1.Readable :=
  { h with pages := Repair.readable_pages random h.pages }

end Sitewright
