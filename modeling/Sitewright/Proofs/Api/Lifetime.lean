import Sitewright.Proofs.Api.Address
import Sitewright.Proofs.Api.Tokenless
import Sitewright.Proofs.Api.Unexpected
import Sitewright.Proofs.Operation.Catalogue
import Sitewright.Proofs.Store.Twin

namespace Sitewright

namespace Operation

structure Holds [Machine] (id : String) (document : Json) (world : World) : Prop where
  reached : Reachable world
  faultless : world.store.fault = none
  stored : world.store.tables.document? id Environment.builder.name = some document

theorem frame_createProject [Machine] (data actor : Json) (at? : Option Time.DateTime) :
    Action.Within World.Frame (createProject data actor at?) :=
  (frame_currentTime at?).bind fun _ => (Action.within_ofExcept _).bind fun _ =>
    (Store.frame_transaction (frame_noteCopy _ _ _ _ _)).bind fun _ => Action.within_pure _

theorem ne_empty_of_created [Machine] {fields : Fields Json} {time : Time.DateTime}
    {project : Project} (h : created (.obj fields) time = .ok project) : project.id ≠ "" := by
  have same := id_of_created h
  rw [created] at h
  split at h
  · next named =>
    have some : (Fields.value fields "id").isTruthy = true := (Bool.and_eq_true_iff.mp named).1
    have same : Fields.value fields "id" = .str project.id := same
    rw [same] at some
    exact of_decide_eq_true some
  · cases h

/-- A database keeps an old document that is alike. -/
theorem holds_of_createProject [Machine] {world after : World} {fields : Fields Json} {actor : Json}
    {project : Project} (reached : Reachable world) (faultless : world.store.fault = none)
    (h : (createProject (.obj fields) actor none).perform world = (.ok project, after)) :
    project.id ≠ "" ∧
      Holds project.id
        (Store.kept world.store.backing
          (world.store.tables.document? project.id Environment.builder.name) project.toJson)
        after := by
  obtain ⟨⟨time, valid⟩, matching⟩ := match_createProject (settled_of_reachable reached) h
  refine ⟨ne_empty_of_created valid, ?_, ?_, ?_⟩
  · have called := Reachable.call (.create (.obj fields) actor none) trivial reached
    rw [Call.perform, Action.perform_map, h] at called
    exact called
  · have frame := frame_createProject (.obj fields) actor none world
    rw [h] at frame
    exact frame.fault faultless
  · rw [matching.document?_eq, document?_writtenCopy, if_pos ⟨rfl, rfl⟩]

namespace Holds

variable {world : World} {id : String} {document : Json}

theorem getProject [Machine] (holds : Holds id document world) :
    ∃ project : Project, project.toJson = document ∧
      (getProject id).perform world = (.ok project, world) := by
  obtain ⟨copy, found, same⟩ := Option.map_eq_some_iff.mp holds.stored
  have sound := sound_of_reachable holds.reached
  obtain ⟨project, written, belongs⟩ := sound.tables copy (Store.Tables.mem_of_copy? found)
  have read : Project.ofJson copy.document = .ok project :=
    written ▸ Project.ofJson_toJson belongs.readable
  refine ⟨project, written.symm.trans same, ?_⟩
  rw [Operation.getProject, Action.perform_mapError,
    Store.perform_load (settled_of_reachable holds.reached) sound.present found read]
  rfl

theorem deleteProject [Machine] (holds : Holds id document world) {actor : Json}
    (storable : Storable actor) :
    ∃ after, (deleteProject id actor).perform world = (.ok (), after) ∧ Reachable after ∧
      after.store.tables.copy? id Environment.builder.name = none := by
  have settled := settled_of_reachable holds.reached
  have sound := sound_of_reachable holds.reached
  have listed : id ∈ world.store.tables.listed :=
    ((catalogued_of_reachable holds.reached).listed id).mpr
      (Store.Tables.mem_stored_of_document? holds.stored)
  obtain ⟨after, deleted⟩ :=
    exists_perform_deleteProject settled sound.present holds.faultless listed storable
  refine ⟨after, deleted, ?_, ?_⟩
  · have called := Reachable.call (.delete id actor) trivial holds.reached
    rw [Call.perform, Action.perform_bind_of_ok deleted] at called
    exact called
  · have without := (match_deleteProject settled deleted).2.copies
    rw [Store.Tables.copy?, without]
    exact (Store.Tables.copy?_without _ _ _ _).trans (if_pos rfl)

end Holds

theorem getProject_of_none [Machine] {world : World} {id : String} (reached : Reachable world)
    (none : world.store.tables.copy? id Environment.builder.name = none) :
    (getProject id).perform world = (.error .projectUnknown, world) := by
  rw [getProject, Action.perform_mapError, Store.perform_load_of_none
    (settled_of_reachable reached) (sound_of_reachable reached).present none]
  rfl

end Operation

namespace Api

open Text (Percent.quote)

variable {settings : Settings} {transform : Operation.Transform} {request : Request}
  {world after : World} {id : String} {document : Json}

theorem Response.ofFields_inj {a b : Fields Json} (h : Response.ofFields a = .ofFields b) :
    a = b := by
  have same : Body.json (.obj a) = .json (.obj b) := congrArg Response.body h
  exact Json.obj.inj (Body.json.inj same)

/-! Making a project -/

def IsCreation (request : Request) : Prop :=
  request.method = .post ∧ Routing.ofRequest request = .found .createProject

theorem createProject_of_isCreation [Machine] (creation : IsCreation request) {response : Response}
    (answered : (respond settings transform request).run world = (response, after))
    (accepted : response.status = 200) :
    ∃ (fields : Fields Json) (actor : Json) (project : Project),
      response = succeeded [("project", project.toJson)] ∧
        (Operation.createProject (.obj fields) actor none).perform world =
          (.ok project, after) := by
  rw [respond_of_found creation.2 (by simp [creation.1])] at answered
  cases sent : senderFor settings request .createProject with
  | error refusal =>
    rw [serve_of_refusal sent] at answered
    cases answered
    exact absurd accepted (status_ofRefusal refusal)
  | ok sender =>
    rcases performed : (Route.perform settings transform request (.ofText? sender)
      .createProject).perform world with ⟨error | shown, mid⟩
    · rw [serve_of_error sent performed] at answered
      cases answered
      exact absurd accepted (status_ofError error)
    · rw [serve_of_ok sent performed] at answered
      cases answered
      obtain ⟨fields, -, creating⟩ := Action.perform_ofExcept_bind_eq_ok.mp performed
      obtain ⟨project, _, created, shown⟩ := Action.perform_bind_eq_ok.mp creating
      cases shown
      exact ⟨fields, .ofText? sender, project, rfl, created⟩

/-! Requests to its address -/

/-- A request to the address of a project, by somebody who may send it. -/
structure IsAbout (settings : Settings) (method : Method) (id : String) (request : Request) :
    Prop where
  method : request.method = method
  target : ∃ keep, Target.ofText (String.ofList (projectsPath ++ Percent.quote keep id)) =
    .ok request.target
  page : request.asksForSocket = false
  sender : ∃ name?, sender settings request = .ok name?

theorem IsAbout.routing {method : Method} (about : IsAbout settings method id request) :
    Routing.ofRequest request =
      Routing.of method ("api/v1/projects/".toList ++ id.toList) := by
  obtain ⟨keep, target⟩ := about.target
  rw [Target.ofText_address] at target
  rw [Routing.ofRequest, about.page, ← Except.ok.inj target, about.method]
  rfl

section

variable (single : '/' ∉ id.toList) (named : id ≠ "")

include single named

theorem respond_of_isAbout_get [Machine] (about : IsAbout settings .get id request) :
    (respond settings transform request).run world =
      match (Operation.getProject id).perform world with
      | (.ok project, after) => (.ofFields [("project", project.toJson)], after)
      | (.error error, after) => (.ofError error, after) := by
  obtain ⟨sender, sent⟩ := about.sender
  have sent : senderFor settings request (.project id) = .ok sender := sent
  have routed := about.routing.trans (routing_address single named).1
  rw [respond_of_found routed (by simp [about.method])]
  rcases found : (Operation.getProject id).perform world with ⟨error | project, after⟩
  · exact serve_of_error sent (Action.perform_bind_of_error found)
  · exact serve_of_ok sent (Action.perform_bind_of_ok found)

theorem respond_of_isAbout_delete [Machine] (about : IsAbout settings .delete id request)
    (deletes : ∀ actor, Operation.Storable actor →
      ∃ after, (Operation.deleteProject id actor).perform world = (.ok (), after) ∧
        Operation.Reachable after ∧
          after.store.tables.copy? id Environment.builder.name = none) :
    ∃ after, (respond settings transform request).run world = (succeeded [], after) ∧
      Operation.Reachable after ∧
        after.store.tables.copy? id Environment.builder.name = none := by
  obtain ⟨sender, sent⟩ := about.sender
  have sent : senderFor settings request (.deleteProject id) = .ok sender := sent
  have routed := about.routing.trans (routing_address single named).2
  obtain ⟨after, deleted, gone⟩ := deletes (.ofText? sender) (Operation.storable_ofText? sender)
  refine ⟨after, ?_, gone⟩
  rw [respond_of_found routed (by simp [about.method])]
  exact serve_of_ok sent (Action.perform_bind_of_ok deleted)

end

theorem status_of_slash [Machine] (about : IsAbout settings .delete id request)
    (slash : '/' ∈ id.toList) :
    ((respond settings transform request).run world).1.status ≠ 200 := by
  have routed := routing_delete_of_slash slash
  rw [← about.routing] at routed
  have whole : request.method ≠ .head := by simp [about.method]
  rw [run_respond]
  simp only [if_neg whole, answerWithBody]
  simp only [List.mem_cons, List.not_mem_nil, or_false] at routed
  rcases routed with routed | routed | routed <;> simp only [routed] <;>
    exact of_decide_eq_false rfl

/-! From its beginning to its end -/

variable {get delete again : Arrival}

theorem reachable_enter [Machine] (reached : Operation.Reachable world) (arrival : Arrival) :
    Operation.Reachable (arrival.enter world) :=
  .between arrival.clock world.random world.store.full world.store.fault reached

theorem holds_enter [Machine] (holds : Operation.Holds id document world) (arrival : Arrival) :
    Operation.Holds id document (arrival.enter world) where
  reached := reachable_enter holds.reached arrival
  faultless := holds.faultless
  stored := holds.stored

theorem answers_of_holds [Machine] (holds : Operation.Holds id document world)
    (single : '/' ∉ id.toList) (named : id ≠ "") (gets : IsAbout settings .get id get.request)
    (deletes : IsAbout settings .delete id delete.request)
    (looks : IsAbout settings .get id again.request) :
    (answers settings [get, delete, again] world).1.map Prod.snd =
      [.ofFields [("project", document)], succeeded [], .ofError .projectUnknown] := by
  have held := holds_enter holds get
  obtain ⟨project, rfl, found⟩ := held.getProject
  have first : (respond settings get.transform get.request).run (get.enter world) =
      (.ofFields [("project", project.toJson)], get.enter world) := by
    rw [respond_of_isAbout_get single named gets, found]
  obtain ⟨after, second, reached, none⟩ :=
    @respond_of_isAbout_delete settings delete.transform _ (delete.enter (get.enter world)) _
      single named _ deletes fun _ => (holds_enter held delete).deleteProject
  have missing := Operation.getProject_of_none (reachable_enter reached again) none
  have third : (respond settings again.transform again.request).run (again.enter after) =
      (.ofError .projectUnknown, again.enter after) := by
    rw [respond_of_isAbout_get single named looks, missing]
  rw [answers_cons first, answers_cons second, answers_cons third]
  rfl

theorem status_of_answers [Machine] (deletes : IsAbout settings .delete id delete.request)
    (slash : '/' ∈ id.toList) {found deleted gone : Response}
    (h : (answers settings [get, delete, again] world).1.map Prod.snd = [found, deleted, gone]) :
    deleted.status ≠ 200 := by
  rcases first : (respond settings get.transform get.request).run (get.enter world) with ⟨_, mid⟩
  rcases second : (respond settings delete.transform delete.request).run (delete.enter mid) with
    ⟨response, last⟩
  rw [answers_cons first, answers_cons second, List.map_cons, List.map_cons] at h
  have same : response = deleted := (List.cons.inj (List.cons.inj h).2).1
  have refused := @status_of_slash settings delete.transform _ (delete.enter mid) _ _ deletes slash
  rwa [second, same] at refused

def makes (id : String) : Request where
  method := .post
  target := { path := "api/v1/projects".toList, args := [] }
  content := .json "application/json" (.obj [("id", .str id), ("name", .str "Home")])

def asks (method : Method) (id : String) : Arrival where
  clock := 0
  transform := fun _ _ => .error .projectRequired
  request := { method, target := { path := "api/v1/projects/".toList ++ id.toList, args := [] } }

theorem isAbout_asks (method : Method) (id : String) :
    IsAbout {} method id (asks method id).request where
  method := rfl
  target := ⟨fun _ => false, Target.ofText_address _ id⟩
  page := rfl
  sender := ⟨none, rfl⟩

def emptyWorld : World := { store := { backing := .memory }, clock := 0, random := default }

def made [Machine] (id : String) : Response × World :=
  (respond {} (fun _ _ => .error .projectRequired) (makes id)).run emptyWorld

theorem made_eq [Machine] (id : String) :
    (respond {} (fun _ _ => .error .projectRequired) (makes id)).run emptyWorld =
      ((made id).1, (made id).2) := rfl

def idIn (response : Response) : Option String :=
  match response.body with
  | .json (.obj [_, (_, project)]) =>
    (project.asObject?.bind (Fields.get? · "id")).bind Json.asText?
  | _ => none

@[simp] theorem idIn_succeeded (project : Project) :
    idIn (succeeded [("project", project.toJson)]) = some project.id := rfl

end Api

end Sitewright
