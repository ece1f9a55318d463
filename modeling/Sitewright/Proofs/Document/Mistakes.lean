import Sitewright.Proofs.Document.Levels

/-!
What is wrong with a document that cannot be read as a project. Every fault of its pages, their
trees, its metadata and the records of its deployments has a moment, and reading the document
reports the first of them. Three kinds of fault are neither of validation nor structural: the status
of a record that is a list or an object, a value that is too deep to be copied, and an integer that
is too long to be written.
-/

namespace Sitewright

open Shape

variable {place : Place} {data : Json} {moment : List Nat} {error : Error}

theorem Shape.eq_of_object {fields : Fields Json} (h : object place data = .ok fields) :
    data = .obj fields := by
  cases data with
  | obj _ => exact congrArg Json.obj (Except.ok.inj h)
  | _ => cases h

theorem Json.bind_asText?_eq_none {α : Type} {ofName? : String → Option α} {name : α → String}
    (named : ∀ a, ofName? (name a) = some a) (found : ∀ s a, ofName? s = some a → name a = s)
    {value : Json} : value.asText?.bind ofName? = none ↔ ∀ a, value ≠ .str (name a) := by
  constructor
  · rintro unknown a rfl
    rw [asText?, Option.bind_some, named] at unknown
    cases unknown
  · intro other
    cases value with
    | str s =>
      rw [asText?, Option.bind_some, Option.eq_none_iff_forall_not_mem]
      intro a known
      exact other a (congrArg Json.str (found s a known).symm)
    | _ => rfl

theorem DeploymentStatus.name_of_ofName? {s : String} {status : DeploymentStatus}
    (h : ofName? s = some status) : status.name = s := by
  simpa using List.find?_some h

/-! Pages -/

namespace Page

inductive Mistake [Machine] : Place → Json → List Nat → Error → Prop
  | notObject {place : Place} {data : Json} : data.asObject? = none →
      Mistake place data [0] (.notObject place)
  | tree {place : Place} {fields : Fields Json} :
      (∀ items, fields.value "tree" ≠ .arr items) →
      Mistake place (.obj fields) [1] (.treeNotArray place)
  | name {place : Place} {fields : Fields Json} : NotText fields "name" →
      Mistake place (.obj fields) [2] (.notText place "name")
  | id {place : Place} {fields : Fields Json} : LacksText fields "id" →
      Mistake place (.obj fields) [3] (.missing place "id")
  | slug {place : Place} {fields : Fields Json} : LacksText fields "slug" →
      Mistake place (.obj fields) [4] (.missing place "slug")
  | node {place : Place} {fields : Fields Json} {index : Nat} {root : Json} {moment : List Nat}
      {error : Error} : (itemsOf fields "tree")[index]? = some root →
      Node.Mistake 4 1 (.item (.field place "tree") index) root moment error →
      Mistake place (.obj fields) (5 :: index :: moment) error
  | metadata {place : Place} {fields : Fields Json} {error : Error} :
      ObjectFault 4 place fields "metadata" error → Mistake place (.obj fields) [6] error

theorem itemsOf_of_treeOf {fields : Fields Json} {roots : List Json}
    (h : treeOf place fields = .ok roots) : itemsOf fields "tree" = roots := by
  unfold treeOf at h
  split at h
  · next items found =>
    cases h
    rw [itemsOf, found]
    rfl
  · cases h

theorem treeOf_eq_error {fields : Fields Json} :
    treeOf place fields = .error error ↔
      (∀ items, fields.value "tree" ≠ .arr items) ∧ error = .treeNotArray place := by
  unfold treeOf
  split
  · next items found => simp [found]
  · next other =>
    constructor
    · rintro ⟨⟩
      exact ⟨other, rfl⟩
    · rintro ⟨-, rfl⟩
      rfl

theorem reports_ofJson [Machine] (place : Place) (data : Json) :
    Reports (Mistake place data) (ofJson 2 place data) := by
  have staged : ∀ moment error, Mistake place data moment error →
      ∃ here rest, moment = here :: rest ∧ 0 ≤ here := by
    rintro _ error (_ | _ | _ | _ | _ | _ | _) <;> exact ⟨_, _, rfl, Nat.zero_le _⟩
  refine Reports.ofStages 0 ?_ staged
  refine .oneThen (fun _ => object_eq_error) ?_ ?_ fun fields found => ?_
  · exact fun _ ⟨fault, same⟩ => same ▸ .notObject fault
  · exact fun _ _ (.notObject fault) => ⟨rfl, fault, rfl⟩
  obtain rfl := eq_of_object found
  refine .oneThen (fun _ => treeOf_eq_error) ?_ ?_ fun roots tree =>
    .oneThen (fun _ => optionalText_eq_error) ?_ ?_ fun name _ =>
      .oneThen (fun _ => requiredText_eq_error) ?_ ?_ fun id _ =>
        .oneThen (fun _ => requiredText_eq_error) ?_ ?_ fun slug _ =>
          (reports_items fun index root _ =>
            @Node.reports_ofJson 4 _ 4 maxTreeDepth 1 rfl rfl _ root).andThen ?_ fun tree _ =>
            .oneThen (fun _ => optionalObject_eq_error) ?_ ?_ fun metadata _ => .done _ ?_
  · exact fun _ ⟨fault, same⟩ => same ▸ .tree fault
  · exact fun _ _ (.tree fault) => ⟨rfl, fault, rfl⟩
  · exact fun _ ⟨fault, same⟩ => same ▸ .name fault
  · exact fun _ _ (.name fault) => ⟨rfl, fault, rfl⟩
  · exact fun _ ⟨fault, same⟩ => same ▸ .id fault
  · exact fun _ _ (.id fault) => ⟨rfl, fault, rfl⟩
  · exact fun _ ⟨fault, same⟩ => same ▸ .slug fault
  · exact fun _ _ (.slug fault) => ⟨rfl, fault, rfl⟩
  · obtain rfl := itemsOf_of_treeOf tree
    intro moment error
    constructor
    · intro fault
      cases fault with
      | node there fault => exact ⟨_, _, _, rfl, there, fault⟩
    · rintro ⟨_, _, _, rfl, there, fault⟩
      exact .node there fault
  · exact fun _ fault => .metadata fault
  · exact fun _ _ (.metadata fault) => ⟨rfl, fault⟩
  · rintro later rest error le (_ | _ | _ | _ | _ | _ | _) <;> exact absurd le (by decide)

end Page

/-! Records of deployments -/

namespace DeploymentRecord

inductive Mistake : Place → Json → List Nat → Error → Prop
  | notObject {place : Place} {data : Json} : data.asObject? = none →
      Mistake place data [0] (.notObject place)
  | environment {place : Place} {fields : Fields Json} :
      (∀ target : Target, fields.value "environment" ≠ .str target.name) →
      Mistake place (.obj fields) [1] (.environmentUnknown place)
  | status {place : Place} {fields : Fields Json} {status : Json} :
      fields.get? "status" = some status → status.isKey = true →
      (∀ known : DeploymentStatus, status ≠ .str known.name) → status.isWritable = true →
      Mistake place (.obj fields) [2] (.statusUnknown place status)
  | overlong {place : Place} {fields : Fields Json} {status : Json} :
      fields.get? "status" = some status → status.isKey = true → status.isWritable = false →
      Mistake place (.obj fields) [2] .integerOverlong
  | compound {place : Place} {fields : Fields Json} {status : Json} :
      fields.get? "status" = some status → status.isKey = false →
      Mistake place (.obj fields) [2] .statusCompound
  | id {place : Place} {fields : Fields Json} : LacksText fields "id" →
      Mistake place (.obj fields) [3] (.missing place "id")
  | deployedAt {place : Place} {fields : Fields Json} : LacksText fields "deployedAt" →
      Mistake place (.obj fields) [4] (.missing place "deployedAt")

theorem target_eq_error {value : Json} :
    Target.ofJson place value = .error error ↔
      (∀ target : Target, value ≠ .str target.name) ∧ error = .environmentUnknown place := by
  rw [← Json.bind_asText?_eq_none Target.ofName?_name fun _ _ => Target.name_of_ofName?]
  unfold Target.ofJson
  split
  · next known => simp [known]
  · next unknown => simp [unknown, eq_comm]

theorem status_eq_error {status? : Option Json} :
    DeploymentStatus.ofJson place status? = .error error ↔
      ∃ status, status? = some status ∧
        ((status.isKey = false ∧ error = .statusCompound) ∨
          (status.isKey = true ∧ (∀ known : DeploymentStatus, status ≠ .str known.name) ∧
            status.isWritable = true ∧ error = .statusUnknown place status) ∨
          (status.isKey = true ∧ status.isWritable = false ∧ error = .integerOverlong)) := by
  simp only [← Json.bind_asText?_eq_none DeploymentStatus.ofName?_name fun _ _ =>
    DeploymentStatus.name_of_ofName?]
  constructor
  · intro failed
    unfold DeploymentStatus.ofJson at failed
    split at failed
    · cases failed
    · cases failed
      exact ⟨_, rfl, .inl ⟨rfl, rfl⟩⟩
    · cases failed
      exact ⟨_, rfl, .inl ⟨rfl, rfl⟩⟩
    · next value noList noObject =>
      have key : value.isKey = true := by
        cases value with
        | arr items => exact (noList items rfl).elim
        | obj fields => exact (noObject fields rfl).elim
        | _ => rfl
      split at failed
      · cases failed
      · next unknown =>
        split at failed
        · next writable =>
          cases failed
          exact ⟨value, rfl, .inr (.inl ⟨key, unknown, writable, rfl⟩)⟩
        · next overlong =>
          cases failed
          exact ⟨value, rfl, .inr (.inr ⟨key, eq_false_of_ne_true overlong, rfl⟩)⟩
  · rintro ⟨status, rfl, ⟨compound, rfl⟩ | ⟨plain, unknown, writable, rfl⟩ |
      ⟨plain, overlong, rfl⟩⟩
    · cases status with
      | arr | obj => rfl
      | _ => cases compound
    · cases status with
      | arr | obj => cases plain
      | _ => simp only [DeploymentStatus.ofJson, unknown, writable, if_true]
    · cases status with
      | arr | obj => cases plain
      | int n =>
        simp only [DeploymentStatus.ofJson, Json.asText?, Option.bind_none, overlong,
          Bool.false_eq_true, if_false]
      | _ => cases overlong

theorem reports_ofJson (place : Place) (data : Json) :
    Reports (Mistake place data) (ofJson place data) := by
  have staged : ∀ moment error, Mistake place data moment error →
      ∃ here rest, moment = here :: rest ∧ 0 ≤ here := by
    rintro _ error (_ | _ | _ | _ | _ | _ | _) <;> exact ⟨_, _, rfl, Nat.zero_le _⟩
  refine Reports.ofStages 0 ?_ staged
  refine .oneThen (fun _ => object_eq_error) ?_ ?_ fun fields found => ?_
  · exact fun _ ⟨fault, same⟩ => same ▸ .notObject fault
  · exact fun _ _ (.notObject fault) => ⟨rfl, fault, rfl⟩
  obtain rfl := eq_of_object found
  refine .oneThen (fun _ => target_eq_error) ?_ ?_ fun target _ =>
    .oneThen (fun _ => status_eq_error) ?_ ?_ fun status _ =>
      .oneThen (fun _ => requiredText_eq_error) ?_ ?_ fun id _ =>
        .oneThen (fun _ => requiredText_eq_error) ?_ ?_ fun deployedAt _ => .done _ ?_
  · exact fun _ ⟨fault, same⟩ => same ▸ .environment fault
  · exact fun _ _ (.environment fault) => ⟨rfl, fault, rfl⟩
  · rintro _ ⟨status, there, ⟨compound, rfl⟩ | ⟨plain, unknown, writable, rfl⟩ |
      ⟨plain, overlong, rfl⟩⟩
    · exact .compound there compound
    · exact .status there plain unknown writable
    · exact .overlong there plain overlong
  · intro moment error fault
    cases fault with
    | status there plain unknown writable =>
      exact ⟨rfl, _, there, .inr (.inl ⟨plain, unknown, writable, rfl⟩)⟩
    | overlong there plain overlong =>
      exact ⟨rfl, _, there, .inr (.inr ⟨plain, overlong, rfl⟩)⟩
    | compound there compound => exact ⟨rfl, _, there, .inl ⟨compound, rfl⟩⟩
  · exact fun _ ⟨fault, same⟩ => same ▸ .id fault
  · exact fun _ _ (.id fault) => ⟨rfl, fault, rfl⟩
  · exact fun _ ⟨fault, same⟩ => same ▸ .deployedAt fault
  · exact fun _ _ (.deployedAt fault) => ⟨rfl, fault, rfl⟩
  · rintro later rest error le (_ | _ | _ | _ | _ | _ | _) <;> exact absurd le (by decide)

end DeploymentRecord

/-! Metadata -/

namespace Metadata

def otherFields (fields : Fields Json) : Fields Json :=
  fields.filter fun f => !knownKeys.contains f.1

inductive Mistake [Machine] : Place → Json → List Nat → Error → Prop
  | notObject {place : Place} {data : Json} : data ≠ .null → data.asObject? = none →
      Mistake place data [0] (.notObject place)
  | environment {place : Place} {fields : Fields Json} : fields.value "environment" ≠ .null →
      (∀ environment : Environment, fields.value "environment" ≠ .str environment.name) →
      Mistake place (.obj fields) [1] (.environmentUnknown place)
  | lastDeployment {place : Place} {fields : Fields Json} {error : Error} :
      ObjectFault 3 place fields "lastDeployment" error → Mistake place (.obj fields) [2] error
  | history {place : Place} {fields : Fields Json} : NotArray fields "deploymentHistory" →
      Mistake place (.obj fields) [3] (.notArray (.field place "deploymentHistory"))
  | record {place : Place} {data : Json} {index : Nat} {record : Json} {moment : List Nat}
      {error : Error} : (recordsOf data)[index]? = some record →
      DeploymentRecord.Mistake (.item (.field place "deploymentHistory") index) record moment error →
      Mistake place data (4 :: index :: moment) error
  | others {place : Place} {fields : Fields Json} : ¬ EachCopyable 3 (otherFields fields) →
      Mistake place (.obj fields) [5] .valueNested

theorem environmentOf_eq_error {value : Json} :
    environmentOf place value = .error error ↔
      (value ≠ .null ∧ ∀ environment : Environment, value ≠ .str environment.name) ∧
        error = .environmentUnknown place := by
  rw [← Json.bind_asText?_eq_none Environment.ofName?_name fun _ _ => Environment.name_of_ofName?]
  unfold environmentOf
  split
  · simp
  · next s =>
    simp only [Json.asText?, Option.bind_some]
    split
    · next known => simp [known]
    · next unknown => simp [unknown, eq_comm]
  · next there other =>
    cases value with
    | null => exact (there rfl).elim
    | str s => exact (other s rfl).elim
    | _ => simp [Json.asText?, eq_comm]

theorem reports_ofFields [Machine] (place : Place) (fields : Fields Json) :
    Reports (Mistake place (.obj fields)) (ofFields 1 place fields) := by
  have staged : ∀ moment error, Mistake place (.obj fields) moment error →
      ∃ here rest, moment = here :: rest ∧ 1 ≤ here := by
    rintro _ error (_ | _ | _ | _ | _ | _)
    next absent => cases absent
    all_goals exact ⟨_, _, rfl, by decide⟩
  refine Reports.ofStages 1 ?_ staged
  refine .oneThen (fun _ => environmentOf_eq_error) ?_ ?_ fun environment _ =>
    .oneThen (fun _ => optionalObject_eq_error) ?_ ?_ fun lastDeployment _ =>
      .oneThen (fun _ => optionalArray_eq_error) ?_ ?_ fun records found =>
        (reports_items fun index record _ =>
            DeploymentRecord.reports_ofJson _ record).andThen ?_ fun history _ =>
          .oneThen (fun _ => eachCopied_eq_error) ?_ ?_ fun extra _ => .done _ ?_
  · exact fun _ ⟨fault, same⟩ => same ▸ .environment fault.1 fault.2
  · exact fun _ _ (.environment there unknown) => ⟨rfl, ⟨there, unknown⟩, rfl⟩
  · exact fun _ fault => .lastDeployment fault
  · exact fun _ _ (.lastDeployment fault) => ⟨rfl, fault⟩
  · exact fun _ ⟨fault, same⟩ => same ▸ .history fault
  · exact fun _ _ (.history fault) => ⟨rfl, fault, rfl⟩
  · obtain rfl := recordsOf_of_optionalArray found
    intro moment error
    constructor
    · intro fault
      cases fault with
      | record there fault => exact ⟨_, _, _, rfl, there, fault⟩
    · rintro ⟨_, _, _, rfl, there, fault⟩
      exact .record there fault
  · exact fun _ ⟨fault, same⟩ => same ▸ .others fault
  · exact fun _ _ (.others fault) => ⟨rfl, fault, rfl⟩
  · rintro later rest error le (_ | _ | _ | _ | _ | _) <;> exact absurd le (by decide)

theorem reports_ofJson [Machine] (place : Place) (data : Json) :
    Reports (Mistake place data) (ofJson 1 place data) := by
  have alone {data : Json} (none : data.asObject? = none) {moment : List Nat} {error : Error}
      (fault : Mistake place data moment error) :
      data ≠ .null ∧ moment = [0] ∧ error = .notObject place := by
    cases fault with
    | notObject there => exact ⟨there, rfl, rfl⟩
    | record there =>
      rw [recordsOf, none] at there
      cases there
    | _ => cases none
  cases data with
  | null => exact fun moment error fault => (alone rfl fault).1 rfl
  | obj fields => exact reports_ofFields place fields
  | _ =>
    refine ⟨[0], .notObject (fun null => by cases null) rfl, fun moment error fault => ?_⟩
    obtain ⟨-, rfl, rfl⟩ := alone rfl fault
    exact .inr ⟨rfl, rfl⟩

end Metadata

/-! Projects -/

namespace Project

inductive Mistake [Machine] : Json → List Nat → Error → Prop
  | notObject {data : Json} : data.asObject? = none →
      Mistake data [0] (.notObject (.named "project"))
  | name {fields : Fields Json} : NotText fields "name" →
      Mistake (.obj fields) [1] (.notText (.named "project") "name")
  | id {fields : Fields Json} : LacksText fields "id" →
      Mistake (.obj fields) [2] (.missing (.named "project") "id")
  | pages {fields : Fields Json} : NotArray fields "pages" →
      Mistake (.obj fields) [3] (.notArray (.field (.named "project") "pages"))
  | page {fields : Fields Json} {index : Nat} {page : Json} {moment : List Nat} {error : Error} :
      (itemsOf fields "pages")[index]? = some page →
      Page.Mistake (.item (.named "pages") index) page moment error →
      Mistake (.obj fields) (4 :: index :: moment) error
  | metadata {fields : Fields Json} {moment : List Nat} {error : Error} :
      Metadata.Mistake (.named "metadata") (fields.value "metadata") moment error →
      Mistake (.obj fields) (5 :: moment) error

theorem reports_ofJson [Machine] (data : Json) : Reports (Mistake data) (ofJson data) := by
  have staged : ∀ moment error, Mistake data moment error →
      ∃ here rest, moment = here :: rest ∧ 0 ≤ here := by
    rintro _ error (_ | _ | _ | _ | _ | _) <;> exact ⟨_, _, rfl, Nat.zero_le _⟩
  refine Reports.ofStages 0 ?_ staged
  refine .oneThen (fun _ => object_eq_error) ?_ ?_ fun fields found => ?_
  · exact fun _ ⟨fault, same⟩ => same ▸ .notObject fault
  · exact fun _ _ (.notObject fault) => ⟨rfl, fault, rfl⟩
  obtain rfl := eq_of_object found
  refine .oneThen (fun _ => optionalText_eq_error) ?_ ?_ fun name _ =>
    .oneThen (fun _ => requiredText_eq_error) ?_ ?_ fun id _ =>
      .oneThen (fun _ => optionalArray_eq_error) ?_ ?_ fun pages found =>
        (reports_items fun index page _ => Page.reports_ofJson _ page).andThen ?_ fun _ _ =>
          (Metadata.reports_ofJson _ _).andThen ?_ fun metadata _ => .done _ ?_
  · exact fun _ ⟨fault, same⟩ => same ▸ .name fault
  · exact fun _ _ (.name fault) => ⟨rfl, fault, rfl⟩
  · exact fun _ ⟨fault, same⟩ => same ▸ .id fault
  · exact fun _ _ (.id fault) => ⟨rfl, fault, rfl⟩
  · exact fun _ ⟨fault, same⟩ => same ▸ .pages fault
  · exact fun _ _ (.pages fault) => ⟨rfl, fault, rfl⟩
  · obtain rfl := itemsOf_of_optionalArray found
    intro moment error
    constructor
    · intro fault
      cases fault with
      | page there fault => exact ⟨_, _, _, rfl, there, fault⟩
    · rintro ⟨_, _, _, rfl, there, fault⟩
      exact .page there fault
  · exact fun _ _ => ⟨fun (.metadata fault) => fault, fun fault => .metadata fault⟩
  · rintro later rest error le (_ | _ | _ | _ | _ | _) <;> exact absurd le (by decide)

end Project

/-! How a fault is reported -/

/-- An error that says what is wrong with a document, or one of the three that do not. -/
inductive Error.OfDocument : Error → Prop
  | validation {error : Error} : error.kind = some .validation → OfDocument error
  | structural {error : Error} : error.kind = some .structural → OfDocument error
  | statusCompound : OfDocument .statusCompound
  | valueNested : OfDocument .valueNested
  | integerOverlong : OfDocument .integerOverlong

theorem Shape.ObjectFault.ofDocument [Machine] {inside : Nat} {fields : Fields Json} {key : String}
    (h : ObjectFault inside place fields key error) : error.OfDocument := by
  cases h with
  | notObject => exact .validation rfl
  | nested => exact .valueNested

theorem Node.Mistake.ofDocument [Machine] {outer level : Nat}
    (h : Node.Mistake outer level place data moment error) : error.OfDocument := by
  rcases kind_of_mistake h with rfl | (rfl | rfl) | validation
  · exact .structural rfl
  · exact .valueNested
  · exact .integerOverlong
  · exact .validation validation

theorem Page.Mistake.ofDocument [Machine] (h : Page.Mistake place data moment error) :
    error.OfDocument := by
  cases h with
  | node _ fault => exact fault.ofDocument
  | metadata fault => exact fault.ofDocument
  | _ => exact .validation rfl

theorem DeploymentRecord.Mistake.ofDocument (h : DeploymentRecord.Mistake place data moment error) :
    error.OfDocument := by
  cases h with
  | compound => exact .statusCompound
  | overlong => exact .integerOverlong
  | _ => exact .validation rfl

theorem Metadata.Mistake.ofDocument [Machine] (h : Metadata.Mistake place data moment error) :
    error.OfDocument := by
  cases h with
  | lastDeployment fault => exact fault.ofDocument
  | record _ fault => exact fault.ofDocument
  | others => exact .valueNested
  | _ => exact .validation rfl

theorem Project.Mistake.ofDocument [Machine] (h : Project.Mistake data moment error) :
    error.OfDocument := by
  cases h with
  | page _ fault => exact fault.ofDocument
  | metadata fault => exact fault.ofDocument
  | _ => exact .validation rfl

theorem Project.ofJson_eq_error_iff [Machine] {data : Json} {error : Error} :
    ofJson data = .error error ↔ Earliest (Mistake data) error :=
  (reports_ofJson data).error_iff fun _ _ => lt_asymm

end Sitewright
