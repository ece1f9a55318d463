import Sitewright.Proofs.Api.Exchange
import Sitewright.Proofs.Api.Oversights

namespace Sitewright

open Sitewright.Action (Within)
open Time (DateTime)

namespace Api

variable {settings : Settings} {transform : Operation.Transform} {request : Request}
  {actor : Json} {id environment : String} {world : World} {cause : Prop}

/-! What is reported -/

theorem status_ofError_lt {error : Error} (h : error.Foreseen) :
    (Response.ofError error).status < 500 := by
  have mild {kind : ErrorKind} (other : kind ≠ .storage) : kind.status < 500 := by
    cases kind with
    | storage => exact absurd rfl other
    | _ => decide
  unfold Error.Foreseen at h
  unfold Response.ofError
  split
  · next kind reported =>
    refine mild ?_
    rintro rfl
    rw [reported] at h
    exact h
  · next reported =>
    rw [reported] at h
    exact h.elim

theorem status_ofError_of_none {error : Error} (h : error.kind = none) :
    (Response.ofError error).status = 500 := by
  rw [Response.ofError, h]
  rfl

theorem status_ofRefusal_lt {refusal : Refusal} (h : refusal ≠ .headerBroken) :
    (Response.ofRefusal refusal).status < 500 := by
  cases refusal with
  | headerBroken => exact absurd rfl h
  | _ => decide

/-! Success -/

/-- Of a resource that has no answers for a fault: such answers are made of its errors. -/
def Succeeds (action : Action Response) : Prop :=
  ∀ world response, (action.perform world).1 = .ok response → response.status = 200

theorem succeeds_pure {response : Response} (h : response.status = 200) :
    Succeeds (pure response) := by
  rintro world _ ⟨⟩
  exact h

theorem succeeds_throw (error : Error) : Succeeds (throw error) := by
  rintro world response ⟨⟩

theorem Succeeds.after {α : Type} (first : Action α) {second : α → Action Response}
    (h : ∀ a, Succeeds (second a)) : Succeeds (first >>= second) := by
  intro world response found
  rcases performed : first.perform world with ⟨error | a, mid⟩
  · rw [Action.perform_bind_of_error performed] at found
    cases found
  · rw [Action.perform_bind_of_ok performed] at found
    exact h a mid response found

theorem succeeds_copyResponse (fields : Fields Json) :
    Succeeds (copyResponse id environment fields) := .after _ fun _ => succeeds_pure rfl

theorem succeeds_enhance [Machine] : Succeeds (enhance transform request actor) := by
  refine .after _ fun body => ?_
  dsimp only
  split
  · exact succeeds_throw _
  · exact .after _ fun _ => .after _ fun _ => .after _ fun _ => succeeds_pure rfl

theorem succeeds_audit : Succeeds (audit request) := by
  refine .after _ fun world => ?_
  dsimp only
  split
  · exact succeeds_throw _
  · exact .after _ fun _ => .after _ fun _ => succeeds_pure rfl

/-- A document, and a file that is not there, have answers of their own and nothing to write. -/
inductive IsDocument : Route → Prop
  | description : IsDocument .description
  | staticFile : IsDocument .staticFile

theorem succeeds_perform [Machine] {route : Route} (other : ¬IsDocument route) :
    Succeeds (route.perform settings transform request actor) := by
  cases route with
  | health => exact succeeds_pure rfl
  | description => exact absurd .description other
  | staticFile => exact absurd .staticFile other
  | projects => exact .after _ fun _ => .after _ fun _ => .after _ fun _ => .after _ fun _ =>
      succeeds_pure rfl
  | createProject => exact .after _ fun _ => .after _ fun _ => succeeds_pure rfl
  | exportProject => exact .after _ fun _ => .after _ fun _ => succeeds_pure rfl
  | project => exact .after _ fun _ => succeeds_pure rfl
  | deleteProject => exact .after _ fun _ => succeeds_pure rfl
  | deploy => exact .after _ fun _ => .after _ fun _ => .after _ fun _ => succeeds_pure rfl
  | deployments id =>
    rw [Route.perform, ← bind_pure_comp]
    exact .after _ fun _ => succeeds_pure rfl
  | copy => exact .after _ fun _ => succeeds_copyResponse _
  | saveCopy => exact .after _ fun _ => .after _ fun _ => .after _ fun _ => succeeds_copyResponse _
  | enhance => exact succeeds_enhance
  | audit => exact succeeds_audit

theorem status_description {document : FixedDocument} {response : Response}
    (h : Description.response document request = .ok response) : response.status < 500 := by
  obtain ⟨delivery, -, h⟩ := bind_eq_ok.mp h
  cases delivery <;> cases h <;> simp [Description.sent, Response.noSuchPart, Response.fault]

theorem status_perform_lt [Machine] {route : Route} {response : Response}
    (h : ((route.perform settings transform request actor).perform world).1 = .ok response) :
    response.status < 500 := by
  by_cases document : IsDocument route
  · cases document with
    | description => exact status_description h
    | staticFile =>
      cases h
      decide
  · rw [succeeds_perform document world response h]
    decide

/-! Failure -/

theorem unchanged_of_isDocument [Machine] {route : Route} (h : IsDocument route) :
    Within Store.Unchanged (route.perform settings transform request actor) := by
  cases h with
  | description => exact Action.within_ofExcept _
  | staticFile => exact Action.within_pure _

theorem unchanged_copyResponse (fields : Fields Json) :
    Within Store.Unchanged (copyResponse id environment fields) :=
  ((Store.unchanged_readTables.bind fun _ => Action.within_pure _).map _).bind fun _ =>
    Action.within_pure _

theorem atomic_enhance [Machine] : Store.Atomic (enhance transform request actor) := by
  refine .after (Action.within_ofExcept _) fun body => ?_
  dsimp only
  split
  · exact Store.atomic_of_unchanged (Action.within_throw _)
  · exact .after (Action.within_ofExcept _) fun _ => .after (Action.within_ofExcept _) fun _ =>
      (Operation.atomic_enhance _ _ _ _ _ _ _).andThen_pure _

theorem unchanged_audit : Within Store.Unchanged (audit request) := by
  refine Action.within_get.bind fun world => ?_
  dsimp only
  split
  · exact Action.within_throw _
  · exact (Action.within_ofExcept _).bind fun _ => (Store.unchanged_auditPage _ _ _).bind fun _ =>
      Action.within_pure _

theorem unchanged_listProjects : Within Store.Unchanged (listProjects request) :=
  (Action.within_ofExcept _).bind fun _ => Store.unchanged_catalogue.bind fun _ =>
    (Action.within_ofExcept _).bind fun _ => (Action.within_ofExcept _).bind fun _ =>
      Action.within_pure _

/-- A saved copy is read again for the answer, so that saving one is no transaction to its end. -/
theorem atomic_perform [Machine] {route : Route}
    (other : ∀ id environment, route ≠ .saveCopy id environment) :
    Store.Atomic (route.perform settings transform request actor) := by
  cases route with
  | health => exact Store.atomic_of_unchanged (Action.within_pure _)
  | description => exact Store.atomic_of_unchanged (unchanged_of_isDocument .description)
  | staticFile => exact Store.atomic_of_unchanged (unchanged_of_isDocument .staticFile)
  | projects => exact Store.atomic_of_unchanged unchanged_listProjects
  | createProject =>
    exact .after (Action.within_ofExcept _) fun _ =>
      (Operation.atomic_createProject _ _ _).andThen_pure _
  | exportProject =>
    exact Store.atomic_of_unchanged ((Action.within_ofExcept _).bind fun _ =>
      (Action.within_ofExcept _).bind fun _ => Action.within_pure _)
  | project id =>
    exact Store.atomic_of_unchanged ((Operation.unchanged_getProject id).bind fun _ =>
      Action.within_pure _)
  | deleteProject id => exact (Operation.atomic_deleteProject id actor).andThen_pure _
  | deploy id =>
    exact .after (Action.within_ofExcept _) fun _ => .after (Action.within_ofExcept _) fun _ =>
      (Operation.atomic_promote _ _ _ _ _ _).andThen_pure _
  | deployments id => exact Store.atomic_of_unchanged ((Operation.unchanged_deployments id).map _)
  | copy id environment =>
    exact Store.atomic_of_unchanged ((Operation.unchanged_loadCopy _ _).bind fun _ =>
      unchanged_copyResponse _)
  | saveCopy id environment => exact absurd rfl (other id environment)
  | enhance => exact atomic_enhance
  | audit => exact Store.atomic_of_unchanged unchanged_audit

/-! Answers -/

/-- What is refused has changed nothing, and something has been overlooked where the answer is that
of an unexpected fault. -/
structure Answered (overlooked : Prop) (before : World) (answered : Response × World) : Prop where
  undone : 400 ≤ answered.1.status → answered.2.store.tables = before.store.tables
  expected : 500 ≤ answered.1.status → overlooked

theorem answered_unchanged {response : Response} (overlooked : Prop)
    (mild : response.status < 500) : Answered overlooked world (response, world) :=
  ⟨fun _ => rfl, fun unexpected => absurd mild (Nat.not_lt.mpr unexpected)⟩

/-! Faults -/

theorem plain_of_messageIn {body : Fields Json} {message : Json}
    (h : messageIn body = .ok message) : message.nesting = 1 := by
  unfold messageIn at h
  split at h
  · cases h
    simp only [Json.nesting]
  · cases h
    exact Json.nesting_str _
  · cases h

section

variable [Machine] (h : world.Unfailing)

include h

theorem foreseen_createProject (storable : Operation.Storable actor) :
    ForeseenUnless (Oversight settings transform request .createProject)
      ((createProject request actor).perform world).1 :=
  Action.foreseen_ofExcept_bind (foreseen_objectBody rfl) fun fields body =>
    Action.foreseen_bind ((Operation.foreseen_createProject h storable (.obj fields)).imp
      (.document (.created body))) fun _ _ _ => .ok _

omit h in
theorem foreseen_exportProject :
    ForeseenUnless (Oversight settings transform request .exportProject)
      ((exportProject request).perform world).1 := by
  refine Action.foreseen_ofExcept_bind (foreseen_objectBody rfl) fun fields body => ?_
  refine Action.foreseen_ofExcept_bind ((Site.foreseen_exportArchive (projectIn fields)).imp ?_)
    fun _ _ => .ok _
  rintro (unwieldy | endless | unfit)
  · exact .document (.exported body) unwieldy
  · exact .grid (.exported body) endless
  · exact .snapshot (.exported body) unfit

theorem foreseen_deploy (storable : Operation.Storable actor) (plain : actor.nesting = 1)
    (checked : settings.check = .ok ()) :
    ForeseenUnless (Oversight settings transform request (.deploy id))
      ((deploy settings request actor id).perform world).1 := by
  have limited : Operation.checkHistoryLimit settings.historyLimit = .ok () := by
    unfold Settings.check at checked
    unfold Operation.checkHistoryLimit
    split at checked
    · cases checked
    · next high => rw [if_neg high]
  exact Action.foreseen_ofExcept_bind (foreseen_optionalBody rfl rfl) fun fields _ =>
    Action.foreseen_ofExcept_bind (foreseen_messageIn fields) fun message read =>
      Action.foreseen_bind (Operation.foreseen_promote h storable plain (plain_of_messageIn read) id
        (Fields.value fields "targetEnvironment") limited) fun _ _ _ => .ok _

theorem foreseen_loadCopy :
    ForeseenUnless cause ((loadCopy id environment).perform world).1 := by
  refine Action.foreseen_bind (Operation.foreseen_loadCopy h id (.str environment))
    fun project mid loaded => ?_
  have same := Operation.unchanged_loadCopy id (.str environment) world h.settled
  rw [loaded] at same
  rw [perform_copyResponse (same ▸ h.settled) (same ▸ h.working.present)]
  exact .ok _

theorem foreseen_saveCopy (storable : Operation.Storable actor) :
    ForeseenUnless (Oversight settings transform request (.saveCopy id environment))
      ((saveCopy settings request actor id environment).perform world).1 := by
  refine Action.foreseen_ofExcept_bind (foreseen_objectBody rfl) fun fields body => ?_
  have dated : ForeseenUnless (Oversight settings transform request (.saveCopy id environment))
      (request.knownTime settings) :=
    (Time.DateText.foreseen_knownTime _ _).imp fun ⟨_, header, overlong⟩ => .date header overlong
  refine Action.foreseen_ofExcept_bind dated fun known read => ?_
  have saved := Operation.foreseen_saveCopy h storable id (.str environment) (projectIn fields)
    known
  refine Action.foreseen_bind (saved.imp ?_) fun project mid saved => ?_
  · rintro (unwieldy | ⟨time, rfl, none⟩)
    · exact .document (.saved body) unwieldy
    · exact .zone read none
  · obtain ⟨settled, -⟩ := Operation.atomic_saveCopy id (.str environment) (projectIn fields) actor
      none known world h.settled
    have frame := Operation.frame_saveCopy id (.str environment) (projectIn fields) actor none known
      world
    rw [saved] at settled frame
    rw [perform_copyResponse settled (frame.lost.trans h.working.present)]
    exact .ok _

theorem foreseen_enhance (storable : Operation.Storable actor) :
    ForeseenUnless (Oversight settings transform request .enhance)
      ((enhance transform request actor).perform world).1 := by
  refine Action.foreseen_ofExcept_bind (foreseen_optionalBody rfl rfl)
    fun fields body => ?_
  dsimp only
  split
  · exact .error trivial
  refine Action.foreseen_ofExcept_bind (Operation.foreseen_instructionOf _) fun _ _ =>
    Action.foreseen_ofExcept_bind ((Project.foreseen_ofJson _).imp (.document (.enhanced body)))
      fun project read => ?_
  refine Action.foreseen_bind ((Operation.foreseen_enhance h read _ transform _ _ storable).imp ?_)
    fun _ _ _ => .ok _
  rintro (unwieldy | ⟨text, said, letDown⟩)
  · exact .document (.enhanced body) unwieldy
  · exact .transform body read said letDown

theorem foreseen_perform (route : Route) (storable : Operation.Storable actor)
    (plain : actor.nesting = 1) (checked : settings.check = .ok ()) :
    ForeseenUnless (Oversight settings transform request route)
      ((route.perform settings transform request actor).perform world).1 := by
  cases route with
  | health => exact .ok _
  | description => exact foreseen_description
  | staticFile => exact .ok _
  | projects => exact foreseen_listProjects h
  | createProject => exact foreseen_createProject h storable
  | exportProject => exact foreseen_exportProject
  | project id => exact Action.foreseen_bind (Operation.foreseen_getProject h id) fun _ _ _ => .ok _
  | deleteProject id =>
    exact Action.foreseen_bind (Operation.foreseen_deleteProject h storable id) fun _ _ _ => .ok _
  | deploy id => exact foreseen_deploy h storable plain checked
  | deployments id => exact Action.foreseen_map (Operation.foreseen_deployments h id) _
  | copy id environment => exact foreseen_loadCopy h
  | saveCopy id environment => exact foreseen_saveCopy h storable
  | enhance => exact foreseen_enhance h storable
  | audit => exact foreseen_audit h

theorem undone_serve (route : Route)
    (refused : 400 ≤ (serve settings transform request route world).1.status) :
    (serve settings transform request route world).2.store.tables = world.store.tables := by
  by_cases saving : ∃ id environment, route = .saveCopy id environment
  · obtain ⟨id, environment, rfl⟩ := saving
    have ending := @sent_of_serve settings transform request id environment _ _ h.settled
      h.working.present
    generalize serve settings transform request (.saveCopy id environment) world = answered
      at ending refused
    cases ending with
    | saved success =>
      dsimp only at refused
      omega
    | refused _ _ _ same => exact same
  rcases sent : senderFor settings request route with refusal | sender
  · rw [serve_of_refusal sent]
  rcases performed : (route.perform settings transform request (.ofText? sender)).perform world with
    ⟨error | response, after⟩
  · obtain ⟨-, undone⟩ := @atomic_perform settings transform request (.ofText? sender) _ route
      (fun id environment same => saving ⟨id, environment, same⟩) world h.settled
    rw [performed] at undone
    rw [serve_of_error sent performed]
    exact undone error rfl
  · rw [serve_of_ok sent performed] at refused ⊢
    by_cases document : IsDocument route
    · have same := @unchanged_of_isDocument settings transform request (.ofText? sender) _ _
        document world h.settled
      rw [performed] at same
      exact congrArg Store.tables same
    · have success := @succeeds_perform settings transform request _ _ _ document world response
        (congrArg Prod.fst performed)
      dsimp only at refused
      omega

theorem answered_serve (route : Route) (checked : settings.check = .ok ()) :
    Answered (Oversight settings transform request route) world
      (serve settings transform request route world) := by
  refine ⟨undone_serve h route, fun unexpected => ?_⟩
  rcases sent : senderFor settings request route with refusal | sender
  · rw [serve_of_refusal sent] at unexpected
    by_cases broken : refusal = .headerBroken
    · obtain ⟨asked, blank⟩ := hasBlankField_of_senderFor (broken ▸ sent)
      exact .authorization asked blank
    · exact absurd (status_ofRefusal_lt broken) (Nat.not_lt.mpr unexpected)
  rcases performed : (route.perform settings transform request (.ofText? sender)).perform world with
    ⟨error | response, after⟩
  · rw [serve_of_error sent performed] at unexpected
    have foreseen := @foreseen_perform settings transform request _ _ _ h route
      (Operation.storable_ofText? sender) (Json.nesting_ofText? sender) checked
    rcases foreseen error (congrArg Prod.fst performed) with foreseen | overlooked
    · exact absurd (status_ofError_lt foreseen) (Nat.not_lt.mpr unexpected)
    · exact overlooked
  · rw [serve_of_ok sent performed] at unexpected
    exact absurd (status_perform_lt (congrArg Prod.fst performed)) (Nat.not_lt.mpr unexpected)

theorem answered_respond (checked : settings.check = .ok ()) :
    Answered (∃ route, Routing.ofRequest request = .found route ∧
        Oversight settings transform request route) world
      ((respond settings transform request).run world) := by
  -- without its body an answer has the status that it has with it
  have finished {overlooked : Prop} {answered : Response × World}
      (k : Answered overlooked world answered) : Answered overlooked world
        (if request.method = .head then answered.1.withoutBody else answered.1, answered.2) := by
    split
    · exact ⟨k.undone, k.expected⟩
    · exact k
  unfold respond
  cases routed : Routing.ofRequest request with
  | found route =>
    have answered := @answered_serve settings transform request _ _ h route checked
    exact finished ⟨answered.undone, fun unexpected => ⟨route, rfl, answered.expected unexpected⟩⟩
  | options => exact finished (answered_unchanged _ (by decide))
  | moved => exact finished (answered_unchanged _ (by decide))
  | methodNotAllowed => exact finished (answered_unchanged _ (by decide))
  | noSocket => exact finished (answered_unchanged _ (by decide))
  | notFound => exact finished (answered_unchanged _ (by decide))

end

/-! Oversights -/

theorem fails_ofExcept_bind {α : Type} {result : Except Error α} {error : Error}
    (h : result = .error error) (next : α → Action Response) :
    ((Action.ofExcept result >>= next).perform world).1 = .error error := by
  rw [h, Action.perform_bind_of_error (Action.perform_ofExcept _ world)]

theorem fails_of_isBrokenBy [Machine] {route : Route} (broken : IsBrokenBy request route) :
    ∃ error, error.kind = none ∧
      ((route.perform settings transform request actor).perform world).1 = .error error := by
  rcases broken with ⟨reads, nested⟩ | ⟨mayLack, data, sent, counts, noObject⟩
  · have object : objectBody request = .error .textNested := by
      rw [objectBody, nested]
      rfl
    have optional : optionalBody request = .error .textNested := by
      rw [optionalBody, nested]
      rfl
    refine ⟨.textNested, rfl, ?_⟩
    cases route with
    | createProject | exportProject | saveCopy => exact fails_ofExcept_bind object _
    | deploy | enhance => exact fails_ofExcept_bind optional _
    | _ => cases reads
  · have optional : optionalBody request = .error .bodyUnusable := by
      rw [optionalBody, sent, ok_bind]
      cases data with
      | obj => cases noObject
      | _ => simp only [counts, if_true]
    refine ⟨.bodyUnusable, rfl, ?_⟩
    cases route with
    | deploy | enhance => exact fails_ofExcept_bind optional _
    | _ => cases mayLack

theorem status_respond_of_found [Machine] {route : Route}
    (found : Routing.ofRequest request = .found route) :
    ((respond settings transform request).run world).1.status =
      (serve settings transform request route world).1.status := by
  have same : ((respond settings transform request).run world).1 =
      if request.method = .head then (serve settings transform request route world).1.withoutBody
      else (serve settings transform request route world).1 := by
    unfold respond
    rw [found]
    rfl
  rw [same]
  split <;> rfl

theorem status_of_isBrokenBy [Machine] {route : Route} {sender : Option String}
    (found : Routing.ofRequest request = .found route)
    (sent : senderFor settings request route = .ok sender) (broken : IsBrokenBy request route) :
    ((respond settings transform request).run world).1.status = 500 := by
  obtain ⟨error, unexpected, failed⟩ :=
    @fails_of_isBrokenBy settings transform request (.ofText? sender) world _ _ broken
  rcases performed : (route.perform settings transform request (.ofText? sender)).perform world with
    ⟨result, after⟩
  rw [performed] at failed
  obtain rfl : result = .error error := failed
  rw [status_respond_of_found found, serve_of_error sent performed,
    status_ofError_of_none unexpected]

def listDeployed : Request where
  method := .post
  target := { path := "api/v1/projects/p1/deploy".toList, args := [] }
  content := .json "application/json" (.arr [.int 1])

end Api

end Sitewright
