import Sitewright.Api.Service
import Sitewright.Proofs.Operation.Outcome
import Sitewright.Proofs.Time.HttpDate

namespace Sitewright

open Sitewright.Action (Within)
open Time (DateTime)
open World (Frame)

/-! Saving a copy -/

namespace Operation

open Store (Tables withTables withDepth)

variable {world after : World}

theorem frame_currentTime (given : Option DateTime) : Within Frame (currentTime given) :=
  Action.within_get.bind fun _ => Action.within_pure _

theorem frame_loadCopy [Machine] (projectId : String) (environment : Json) :
    Within Frame (loadCopy projectId environment) :=
  (Action.within_ofExcept _).bind fun _ => Store.frame_load _ _

theorem frame_saveCopy [Machine] (projectId : String) (environment data actor : Json)
    (at? known : Option DateTime) :
    Within Frame (saveCopy projectId environment data actor at? known) :=
  (Action.within_ofExcept _).bind fun _ => (frame_currentTime at?).bind fun _ =>
    (Action.within_ofExcept _).bind fun _ =>
      (Store.frame_transaction (frame_noteCopy _ _ _ _ _)).bind fun _ => Action.within_pure _

theorem copy?_writtenCopy (environment : Environment) (project : Project) :
    ∃ copy, (writtenCopy world environment project).copy? project.id environment.name = some copy ∧
      copy.writtenAt = Store.writeTime world := by
  let new : Store.Copy :=
    { projectId := project.id, environment := environment.name, document := project.toJson
      writtenAt := Store.writeTime world }
  let kept := Store.written world.store.backing
    (world.store.tables.copy? project.id environment.name) new
  have here : kept.isOf project.id environment.name = true ∧ kept.writtenAt = new.writtenAt := by
    simp only [kept, Store.written]
    split
    · simp [new, Store.Copy.isOf]
    · split <;> simp [new, Store.Copy.isOf]
  have copied : (Store.copied world project.id environment.name project).copy? project.id
      environment.name = some kept := by
    rw [Store.copied, Tables.copy?_withCopy, if_pos here.1]
  have saved : (Store.saved world project.id environment.name project).copy? project.id
      environment.name = some kept := by
    simp only [Store.saved]
    split
    · rw [Tables.copy?_withEntry, copied]
    · exact copied
  refine ⟨kept, ?_, here.2⟩
  simp only [writtenCopy]
  split
  · exact saved
  · exact saved

theorem fresh_of_saveCopy [Machine] {projectId environment : String} {data actor : Json}
    {known : Option DateTime} {project : Project} (settled : world.store.Settled)
    (present : world.store.lost = false)
    (h : (saveCopy projectId (.str environment) data actor none known).perform world =
      (.ok project, after)) :
    unmodified world.store.tables projectId environment known = .ok () ∧
      ∃ copy, after.store.tables.copy? projectId environment = some copy ∧
        copy.writtenAt = Store.writeTime world := by
  obtain ⟨place, note, label, valid, written⟩ := perform_saveCopy_eq_ok h
  obtain rfl := Json.str.inj (Environment.ofJson_eq_ok.mp label)
  obtain rfl := (storedAs_of_replacement valid).id
  have matching := match_writeNoted settled written
  refine ⟨?_, ?_⟩
  · obtain ⟨mid, performed, -⟩ := Store.match_transaction written
    obtain ⟨_, _, checked, -⟩ := Action.perform_bind_eq_ok.mp performed
    rw [@perform_checkUnmodified (withDepth (world.store.depth + 1) world) settled.queued
      present] at checked
    exact (Prod.mk.inj checked).1
  · obtain ⟨copy, found, time⟩ := @copy?_writtenCopy world place project
    exact ⟨copy, by rw [matching.copy?_eq, found], time⟩

theorem perform_saveCopy_of_valid [Machine] {projectId : String} {place : Environment}
    {data actor : Json} {known : Option DateTime} {project : Project}
    (valid : replacement projectId place data world.now = .ok project) :
    (saveCopy projectId (.str place.name) data actor none known).perform world =
      (writeNoted project.id place known project
        (saveNote project project.id place.name actor) >>= fun _ => pure project).perform
        world := by
  have label : Environment.ofJson (.str place.name) = .ok place := Environment.ofJson_eq_ok.mpr rfl
  obtain rfl := (storedAs_of_replacement valid).id
  rw [saveCopy, label, Action.ofExcept_ok_bind, perform_currentTime_bind, Option.getD_none, valid,
    Action.ofExcept_ok_bind]

theorem perform_saveCopy_of_modified [Machine] {projectId : String} {place : Environment}
    {data actor : Json}
    {known : Option DateTime} {project : Project} {error : Error} (settled : world.store.Settled)
    (present : world.store.lost = false)
    (valid : replacement projectId place data world.now = .ok project)
    (modified : unmodified world.store.tables projectId place.name known = .error error) :
    ((saveCopy projectId (.str place.name) data actor none known).perform world).1 =
      .error error := by
  obtain rfl := (storedAs_of_replacement valid).id
  have refused := @perform_noteCopy_of_error (withDepth (world.store.depth + 1) world) project place
    known settled.queued present (saveNote project project.id place.name actor) error modified
  have undone := Store.perform_transaction
    (noteCopy project.id place known project (saveNote project project.id place.name actor)) world
  rw [refused] at undone
  rw [perform_saveCopy_of_valid valid, writeNoted, Action.perform_bind_of_error undone]

end Operation

namespace Api

variable {settings : Settings} {transform : Operation.Transform} {request : Request}
  {id environment : String} {world : World}

/-! Answers -/

theorem status_ofError (error : Error) : (Response.ofError error).status ≠ 200 := by
  have reported (kind : ErrorKind) : kind.status ≠ 200 := by
    cases kind <;> decide
  rw [Response.ofError]
  split
  · next kind _ => exact reported kind
  · decide

theorem status_ofRefusal (refusal : Refusal) : (Response.ofRefusal refusal).status ≠ 200 := by
  cases refusal <;> decide

@[simp] theorem lastModified_ofRefusal (refusal : Refusal) :
    (Response.ofRefusal refusal).lastModified = none := by
  cases refusal <;> rfl

@[simp] theorem lastModified_ofError (error : Error) : (Response.ofError error).lastModified = none := by
  rw [Response.ofError]
  split <;> rfl

theorem perform_copyResponse (settled : world.store.Settled) (present : world.store.lost = false)
    (fields : Fields Json) :
    (copyResponse id environment fields).perform world =
      (.ok { Response.ofFields fields with
        lastModified := (world.store.tables.copy? id environment).bind fun copy =>
          Time.HttpDate.ofDateTime? copy.writtenAt }, world) := by
  have looked : (Store.writtenAt id environment).perform world =
      (.ok ((world.store.tables.copy? id environment).map Store.Copy.writtenAt), world) := by
    rw [Store.writtenAt,
      Action.perform_bind_of_ok (Store.perform_copy? settled.queued (fun _ => present) _ _)]
    rfl
  rw [copyResponse, Action.perform_bind_of_ok looked, Action.perform_pure]
  cases world.store.tables.copy? id environment <;> rfl

theorem perform_loadCopy [Machine] (settled : world.store.Settled)
    (present : world.store.lost = false) :
    let performed := (loadCopy id environment).perform world
    Frame world performed.2 ∧ performed.2.store = world.store ∧
      ∀ response, performed.1 = .ok response →
        response.lastModified = (world.store.tables.copy? id environment).bind fun copy =>
          Time.HttpDate.ofDateTime? copy.writtenAt := by
  intro performed
  have frame := Operation.frame_loadCopy id (.str environment) world
  have same := Operation.unchanged_loadCopy id (.str environment) world settled
  rcases loaded : (Operation.loadCopy id (.str environment)).perform world with
    ⟨error | project, mid⟩
  · have failed : performed = (.error error, mid) := Action.perform_bind_of_error loaded
    rw [loaded] at frame same
    rw [failed]
    exact ⟨frame, same, fun _ ok => by cases ok⟩
  · rw [loaded] at frame same
    have same : mid.store = world.store := same
    have answered : performed = _ := (Action.perform_bind_of_ok loaded).trans
      (perform_copyResponse (same ▸ settled) (frame.lost.trans present) _)
    rw [answered]
    refine ⟨frame, same, fun response ok => ?_⟩
    rw [← Except.ok.inj ok, same]

/-! What is served -/

section

variable {route : Route} {sender : Option String} {after : World}

theorem serve_of_ok [Machine] {response : Response}
    (sent : senderFor settings request route = .ok sender)
    (h : (route.perform settings transform request (.ofText? sender)).perform world =
      (.ok response, after)) :
    serve settings transform request route world = (response, after) := by
  simp only [serve, sent, h]

theorem serve_of_error [Machine] {error : Error}
    (sent : senderFor settings request route = .ok sender)
    (h : (route.perform settings transform request (.ofText? sender)).perform world =
      (.error error, after)) :
    serve settings transform request route world = (.ofError error, after) := by
  simp only [serve, sent, h]

theorem serve_of_refusal [Machine] {refusal : Refusal}
    (refused : senderFor settings request route = .error refusal) :
    serve settings transform request route world = (.ofRefusal refusal, world) := by
  simp only [serve, refused]

end

structure Saved (settings : Settings) (request : Request) (id environment : String)
    (before after : World) : Prop where
  known : ∃ known, request.knownTime settings = .ok known ∧
    Operation.unmodified before.store.tables id environment known = .ok ()
  copy : ∃ copy, after.store.tables.copy? id environment = some copy ∧
    copy.writtenAt = Store.writeTime before

/-- How a request ends that sends a new copy. -/
inductive Sent (settings : Settings) (request : Request) (id environment : String)
    (before : World) : Response × World → Prop
  | saved {response : Response} {after : World} : response.status = 200 → Frame before after →
    after.store.Settled → Saved settings request id environment before after →
    Sent settings request id environment before (response, after)
  | refused {response : Response} {after : World} : response.status ≠ 200 → Frame before after →
    after.store.Settled → after.store.tables = before.store.tables →
    Sent settings request id environment before (response, after)

theorem saveCopy_eq [Machine] {fields : Fields Json} {known : Option DateTime} (actor : Json)
    (body : objectBody request = .ok fields) (knows : request.knownTime settings = .ok known) :
    ∃ answer : Project → Fields Json, saveCopy settings request actor id environment =
      Operation.saveCopy id (.str environment) (projectIn fields) actor none known >>=
        fun project => copyResponse id environment (answer project) :=
  ⟨_, by simp only [saveCopy, body, knows, Action.ofExcept_ok_bind]; rfl⟩

theorem sent_of_serve [Machine] (settled : world.store.Settled)
    (present : world.store.lost = false) :
    Sent settings request id environment world
      (serve settings transform request (.saveCopy id environment) world) := by
  rcases sent : senderFor settings request (.saveCopy id environment) with refusal | sender
  · rw [serve_of_refusal sent]
    exact .refused (status_ofRefusal refusal) (refl world) settled rfl
  have unread {error : Error}
      (failed : (saveCopy settings request (.ofText? sender) id environment).perform world =
        (.error error, world)) :
      Sent settings request id environment world
        (serve settings transform request (.saveCopy id environment) world) := by
    rw [serve_of_error sent failed]
    exact .refused (status_ofError error) (refl world) settled rfl
  rcases body : objectBody request with error | fields
  · exact unread (Action.perform_bind_of_error (by rw [body, Action.perform_ofExcept]))
  rcases knows : request.knownTime settings with error | known
  · refine @unread error ?_
    rw [saveCopy, body, Action.ofExcept_ok_bind, knows]
    rfl
  obtain ⟨answer, same⟩ := @saveCopy_eq settings request id environment _ _ _ (.ofText? sender) body
    knows
  have frame := Operation.frame_saveCopy id (.str environment) (projectIn fields) (.ofText? sender)
    none known world
  obtain ⟨settled', undone⟩ := Operation.atomic_saveCopy id (.str environment) (projectIn fields)
    (.ofText? sender) none known world settled
  rcases saved : (Operation.saveCopy id (.str environment) (projectIn fields) (.ofText? sender) none
    known).perform world with ⟨error | project, after⟩
  · rw [saved] at frame settled' undone
    have failed := @serve_of_error settings transform _ _ _ _ _ _ _ sent (by
      rw [Route.perform, same, Action.perform_bind_of_error saved])
    rw [failed]
    exact .refused (status_ofError error) frame settled' (undone error rfl)
  · rw [saved] at frame settled'
    obtain ⟨fresh, copy⟩ := Operation.fresh_of_saveCopy settled present saved
    have answered := @serve_of_ok settings transform _ _ _ _ _ _ _ sent (by
      rw [Route.perform, same, Action.perform_bind_of_ok saved,
        perform_copyResponse settled' (frame.lost.trans present)])
    rw [answered]
    exact .saved rfl frame settled' ⟨⟨known, knows, fresh⟩, copy⟩

/-- What a request must be for the copy that it sends to be saved, as far as that does not depend on
the store. -/
structure IsProper [Machine] (settings : Settings) (request : Request) (id environment : String)
    (now : DateTime) : Prop where
  sender : ∃ sender, senderFor settings request (.saveCopy id environment) = .ok sender
  valid : ∃ fields place project, objectBody request = .ok fields ∧ place.name = environment ∧
    Operation.replacement id place (projectIn fields) now = .ok project

theorem exists_saveCopy_of_isProper [Machine] {known : Option DateTime}
    (settled : world.store.Settled) (present : world.store.lost = false)
    (proper : IsProper settings request id environment world.now)
    (knows : request.knownTime settings = .ok known) :
    ∃ data actor place project, place.name = environment ∧ Operation.Storable actor ∧
      Operation.replacement id place data world.now = .ok project ∧
      ∀ result after,
        (Operation.saveCopy id (.str environment) data actor none known).perform world =
          (result, after) →
        let response := (serve settings transform request (.saveCopy id environment) world).1
        match result with
        | .ok _ => response.status = 200
        | .error error => response = .ofError error := by
  obtain ⟨sender, sent⟩ := proper.sender
  obtain ⟨fields, place, project, body, label, valid⟩ := proper.valid
  obtain ⟨answer, same⟩ := @saveCopy_eq settings request id environment _ _ _ (.ofText? sender) body
    knows
  refine ⟨projectIn fields, .ofText? sender, place, project, label,
    Operation.storable_ofText? sender, valid, fun result after saved => ?_⟩
  cases result with
  | error error =>
    dsimp only
    rw [serve_of_error sent (by rw [Route.perform, same, Action.perform_bind_of_error saved])]
  | ok made =>
    have left := (Operation.atomic_saveCopy id (.str environment) (projectIn fields)
      (.ofText? sender) none known world settled).1
    have frame := Operation.frame_saveCopy id (.str environment) (projectIn fields)
      (.ofText? sender) none known world
    rw [saved] at left frame
    have answered := @perform_copyResponse id environment after left (frame.lost.trans present)
      (answer made)
    dsimp only
    rw [serve_of_ok sent (by rw [Route.perform, same, Action.perform_bind_of_ok saved, answered])]
    rfl

theorem serve_of_modified [Machine] {known : Option DateTime} {error : Error}
    (settled : world.store.Settled) (present : world.store.lost = false)
    (proper : IsProper settings request id environment world.now)
    (knows : request.knownTime settings = .ok known)
    (modified : Operation.unmodified world.store.tables id environment known = .error error) :
    (serve settings transform request (.saveCopy id environment) world).1 = .ofError error := by
  obtain ⟨data, actor, place, project, rfl, -, valid, answers⟩ :=
    @exists_saveCopy_of_isProper settings transform _ _ _ _ _ _ settled present proper knows
  have refused := @Operation.perform_saveCopy_of_modified _ _ _ _ _ actor _ _ _ settled present
    valid modified
  rcases saved : (Operation.saveCopy id (.str place.name) data actor none known).perform world with
    ⟨result, after⟩
  rw [saved] at refused
  obtain rfl : result = .error error := refused
  exact answers _ _ saved

/-! Requests -/

def IsFetch (id environment : String) (request : Request) : Prop :=
  request.method = .get ∧ Routing.ofRequest request = .found (.copy id environment)

def IsSend (id environment : String) (request : Request) : Prop :=
  request.method = .put ∧ Routing.ofRequest request = .found (.saveCopy id environment)

theorem respond_of_found [Machine] {route : Route}
    (found : Routing.ofRequest request = .found route) (whole : request.method ≠ .head) :
    (respond settings transform request).run world =
      serve settings transform request route world := by
  simp [respond, found, whole, StateT.run]

theorem respond_of_isSend [Machine] (send : IsSend id environment request) :
    (respond settings transform request).run world =
      serve settings transform request (.saveCopy id environment) world :=
  respond_of_found send.2 (by simp [send.1])

theorem respond_of_isFetch [Machine] (settled : world.store.Settled)
    (present : world.store.lost = false)
    (fetch : IsFetch id environment request) :
    let answered := (respond settings transform request).run world
    Frame world answered.2 ∧ answered.2.store = world.store ∧
      ∀ text, answered.1.lastModified = some text →
        ∃ copy, world.store.tables.copy? id environment = some copy ∧
          Time.HttpDate.ofDateTime? copy.writtenAt = some text := by
  intro answered
  have serving : answered = serve settings transform request (.copy id environment) world :=
    respond_of_found fetch.2 (by simp [fetch.1])
  rw [serving]
  rcases sent : senderFor settings request (.copy id environment) with refusal | sender
  · rw [serve_of_refusal sent]
    refine ⟨refl world, rfl, fun text dated => ?_⟩
    rw [lastModified_ofRefusal] at dated
    cases dated
  obtain ⟨frame, same, dates⟩ := @perform_loadCopy id environment world _ settled present
  rcases loaded : (loadCopy id environment).perform world with ⟨error | response, after⟩
  · rw [loaded] at frame same
    rw [serve_of_error sent loaded]
    refine ⟨frame, same, fun text dated => ?_⟩
    rw [lastModified_ofError] at dated
    cases dated
  · rw [loaded] at frame same dates
    rw [serve_of_ok sent loaded]
    refine ⟨frame, same, fun text dated => ?_⟩
    rw [dates response rfl] at dated
    exact Option.bind_eq_some_iff.mp dated

end Api

end Sitewright
