import Sitewright.Proofs.Api.Copies

namespace Sitewright.Api

open Time (Instant)

variable {settings : Settings} {transform : Operation.Transform} {request : Request}

/-- No token is added to the authorizations of the request, and none of those is of the bearer
scheme. -/
def Request.isTokenless (request : Request) : Bool :=
  request.token.isNone &&
    match fieldsOf (pieces (fieldsText ((request.header? "Authorization").getD ""))) with
    | .ok fields => (bearerFields fields).isEmpty
    | .error _ => false

theorem isTokenless_of_header?_eq_none (token : request.token = none)
    (header : request.header? "Authorization" = none) : request.isTokenless = true := by
  rw [Request.isTokenless, token, header]
  decide

theorem isAbsence_refusalOf (token : request.isTokenless = true) :
    (refusalOf ((request.header? "Authorization").getD "")).isAbsence = true := by
  rw [Request.isTokenless, Bool.and_eq_true] at token
  obtain ⟨-, others⟩ := token
  unfold refusalOf
  dsimp only
  split
  · rfl
  · revert others
    cases fieldsOf _ with
    | error refusal => exact Bool.noConfusion
    | ok fields =>
      intro others
      simp only [List.isEmpty_iff.mp others]
      rfl

theorem sender_of_isTokenless (required : settings.requireAuth = true)
    (token : request.isTokenless = true) :
    ∃ refusal, refusal.isAbsence = true ∧ sender settings request = .error refusal := by
  have none : request.token = none := by
    rw [Request.isTokenless, Bool.and_eq_true] at token
    exact Option.isNone_iff_eq_none.mp token.1
  have absence := isAbsence_refusalOf token
  refine ⟨_, absence, ?_⟩
  simp only [sender, none]
  rw [sender.settle, absence, required]
  rfl

theorem status_of_isAbsence {refusal : Refusal} (absence : refusal.isAbsence = true) :
    (Response.ofRefusal refusal).status = 401 := by
  cases refusal with
  | missing | otherScheme => rfl
  | _ => cases absence

/-! One request -/

/-- A request is answered from itself alone, and the world stays as it is. -/
def IsDetached [Machine] (settings : Settings) (request : Request) (response : Response) : Prop :=
  ∀ transform world, (respond settings transform request).run world = (response, world)

/-- What is answered to a request, a body included whatever its method. -/
def answerWithBody [Machine] (settings : Settings) (transform : Operation.Transform)
    (request : Request) (world : World) : Response × World :=
  match Routing.ofRequest request with
  | .found route => serve settings transform request route world
  | .options => ({ body := .fixed (some "text/html") }, world)
  | .moved => ({ status := 308, body := .fixed (some "text/html") }, world)
  | .methodNotAllowed => (.methodNotAllowed, world)
  | .noSocket => (.noSocket, world)
  | .notFound => (.notFound, world)

theorem run_respond [Machine] (world : World) :
    (respond settings transform request).run world =
      let (response, after) := answerWithBody settings transform request world
      (if request.method = .head then response.withoutBody else response, after) := by
  unfold respond answerWithBody
  cases Routing.ofRequest request <;> rfl

theorem isDetached_of_answerWithBody [Machine] {response : Response}
    (h : ∀ transform world,
      answerWithBody settings transform request world = (response, world)) :
    ∃ shown, shown.status = response.status ∧ IsDetached settings request shown := by
  refine ⟨if request.method = .head then response.withoutBody else response, ?_, ?_⟩
  · split <;> rfl
  · intro transform world
    rw [run_respond, h]

theorem isDetached_of_found [Machine] {route : Route} (required : settings.requireAuth = true)
    (token : request.isTokenless = true) (found : Routing.ofRequest request = .found route)
    (guarded : route.isPublic = false) :
    ∃ response, response.status = 401 ∧ IsDetached settings request response := by
  obtain ⟨refusal, absence, refused⟩ := sender_of_isTokenless required token
  have refused : senderFor settings request route = .error refusal := by
    rw [senderFor, guarded]
    exact refused
  rw [← status_of_isAbsence absence]
  apply isDetached_of_answerWithBody
  intro transform world
  rw [answerWithBody, found]
  exact serve_of_refusal refused

theorem serve_of_isPublic [Machine] {route : Route} (shown : route.isPublic = true) :
    ∃ response, ∀ transform world,
      serve settings transform request route world = (response, world) := by
  have sent : senderFor settings request route = .ok none := by
    rw [senderFor, shown]
    rfl
  cases route with
  | health => exact ⟨_, fun _ _ => serve_of_ok sent rfl⟩
  | staticFile => exact ⟨_, fun _ _ => serve_of_ok sent rfl⟩
  | description =>
    cases described : Description.response settings.description request with
    | ok response =>
      refine ⟨response, fun transform world => serve_of_ok sent ?_⟩
      rw [Route.perform, described, Action.perform_ofExcept]
    | error error =>
      refine ⟨.ofError error, fun transform world => serve_of_error sent ?_⟩
      rw [Route.perform, described, Action.perform_ofExcept]
  | _ => cases shown

theorem exists_isDetached [Machine] (required : settings.requireAuth = true)
    (token : request.isTokenless = true) : ∃ response, IsDetached settings request response := by
  have other {response : Response}
      (h : ∀ transform world,
        answerWithBody settings transform request world = (response, world)) :
      ∃ response, IsDetached settings request response := by
    obtain ⟨shown, -, detached⟩ := isDetached_of_answerWithBody h
    exact ⟨shown, detached⟩
  cases routing : Routing.ofRequest request with
  | found route =>
    cases shown : route.isPublic with
    | false =>
      obtain ⟨response, -, detached⟩ := isDetached_of_found required token routing shown
      exact ⟨response, detached⟩
    | true =>
      obtain ⟨response, served⟩ := @serve_of_isPublic settings request _ route shown
      apply other
      intro transform world
      rw [answerWithBody, routing]
      exact served transform world
  | _ =>
    apply other
    intro transform world
    rw [answerWithBody, routing]

/-! Requests in turn -/

/-- A request with the time at which it arrives and with what enhancements are done by. -/
structure Arrival where
  clock : Instant
  transform : Operation.Transform
  request : Request

def Arrival.isTokenless (arrival : Arrival) : Bool := arrival.request.isTokenless

def Arrival.enter (arrival : Arrival) (world : World) : World :=
  { world with clock := arrival.clock }

def answers [Machine] (settings : Settings) :
    List Arrival → World → List (Arrival × Response) × World
  | [], world => ([], world)
  | arrival :: rest, world =>
    let (response, after) :=
      (respond settings arrival.transform arrival.request).run (arrival.enter world)
    let (others, last) := answers settings rest after
    ((arrival, response) :: others, last)

theorem answers_cons [Machine] {arrival : Arrival} {world after : World} {response : Response}
    (h : (respond settings arrival.transform arrival.request).run (arrival.enter world) =
      (response, after)) (rest : List Arrival) :
    answers settings (arrival :: rest) world =
      ((arrival, response) :: (answers settings rest after).1,
        (answers settings rest after).2) := by
  rw [answers, h]

def SameButTime (a b : World) : Prop := { a with clock := 0 } = { b with clock := 0 }

theorem SameButTime.enter {a b : World} (same : SameButTime a b) (arrival : Arrival) :
    arrival.enter a = arrival.enter b := by
  have entered := congrArg arrival.enter same
  exact entered

theorem sameButTime_enter (arrival : Arrival) (world : World) :
    SameButTime (arrival.enter world) world := rfl

theorem answers_filter [Machine] (required : settings.requireAuth = true) (arrivals : List Arrival)
    {world other : World} (same : SameButTime world other) :
    let all := answers settings arrivals world
    let kept := answers settings (arrivals.filter (!·.isTokenless)) other
    all.1.filter (!·.1.isTokenless) = kept.1 ∧ SameButTime all.2 kept.2 := by
  induction arrivals generalizing world other with
  | nil => exact ⟨rfl, same⟩
  | cons arrival rest ih =>
    cases token : arrival.isTokenless with
    | true =>
      obtain ⟨response, detached⟩ := exists_isDetached required token
      rw [List.filter_cons_of_neg (by simp [token]), answers_cons (detached _ _)]
      dsimp only
      rw [List.filter_cons_of_neg (by simp [token])]
      exact ih ((sameButTime_enter arrival world).trans same)
    | false =>
      rcases answered : (respond settings arrival.transform arrival.request).run
        (arrival.enter other) with ⟨response, after⟩
      rw [List.filter_cons_of_pos (by simp [token]), answers_cons answered,
        answers_cons (same.enter arrival ▸ answered)]
      dsimp only
      rw [List.filter_cons_of_pos (by simp [token])]
      obtain ⟨others, last⟩ := ih (rfl : SameButTime after after)
      exact ⟨congrArg _ others, last⟩

/-- Who sends no token is refused by every resource that asks for one, whatever the store holds, and
nothing that others are answered and nothing that is stored depends on it. -/
theorem purge_tokenless [Machine] (settings : Settings) (required : settings.requireAuth = true)
    (arrivals : List Arrival) (world : World) :
    (∀ arrival ∈ arrivals, arrival.isTokenless = true → ∀ route,
      Routing.ofRequest arrival.request = .found route → route.isPublic = false →
        ∃ refusal : Response, refusal.status = 401 ∧ ∀ transform world,
          (respond settings transform arrival.request).run world = (refusal, world)) ∧
    let all := answers settings arrivals world
    let kept := answers settings (arrivals.filter (!·.isTokenless)) world
    all.1.filter (!·.1.isTokenless) = kept.1 ∧ all.2.store = kept.2.store := by
  refine ⟨?_, ?_⟩
  · intro arrival _ token route found guarded
    exact isDetached_of_found required token found guarded
  · obtain ⟨others, last⟩ := answers_filter required arrivals (rfl : SameButTime world world)
    have stored := congrArg World.store last
    exact ⟨others, stored⟩

def arrivalOf (method : Method) (path : String) (token : Option Json) : Arrival where
  clock := 0
  transform := fun _ _ => .error .projectRequired
  request := { method, target := { path := path.toList, args := [] }, token }

def anonymousDelete : Arrival := arrivalOf .delete "api/v1/projects/p1" none

def namedList : Arrival := arrivalOf .get "api/v1/projects" (some (.str "ada"))

theorem purge_tokenless_delete :
    let settings : Settings := { requireAuth := true }
    let world : World := { store := { backing := .memory }, clock := 0, random := default }
    let all := answers settings [namedList, anonymousDelete, namedList] world
    let kept := answers settings [namedList, namedList] world
    (∃ refusal : Response, refusal.status = 401 ∧ ∀ transform world,
      (respond settings transform anonymousDelete.request).run world = (refusal, world)) ∧
      all.1.filter (!·.1.isTokenless) = kept.1 ∧ all.2.store = kept.2.store := by
  intro settings world all kept
  have anonymous : anonymousDelete.isTokenless = true := isTokenless_of_header?_eq_none rfl rfl
  have named : namedList.isTokenless = false := rfl
  obtain ⟨refused, same⟩ :=
    purge_tokenless settings rfl [namedList, anonymousDelete, namedList] world
  simp only [List.filter_cons, List.filter_nil, anonymous, named, Bool.not_true, Bool.not_false,
    if_true] at same
  exact ⟨refused anonymousDelete (by simp) anonymous (.deleteProject "p1") rfl rfl, same⟩

/-! What is answered to everybody -/

/-- A request to what asks for a token, by a method that it answers. -/
def Request.IsToGuarded (request : Request) : Prop :=
  ∃ entry ∈ Route.resources (Target.segments request.target.path),
    entry.1.serves request.method = true ∧ entry.2.isPublic = false

def askMethods : Request where
  method := .options
  target := { path := "api/v1/projects".toList, args := [] }

theorem isTokenless_askMethods : askMethods.isTokenless = true :=
  isTokenless_of_header?_eq_none rfl rfl

/-- The methods of a resource are told without a token. -/
theorem options_unguarded :
    ¬ ∀ request : Request, request.isTokenless = true → request.IsToGuarded →
      ∃ refusal : Response, refusal.status = 401 ∧ ∀ transform world,
        (respond { requireAuth := true } transform request).run world = (refusal, world) := by
  intro refused
  have guarded : askMethods.IsToGuarded := ⟨(.get, .projects), .head _, rfl, rfl⟩
  obtain ⟨refusal, status, detached⟩ := refused askMethods isTokenless_askMethods guarded
  have world : World := { store := { backing := .memory }, clock := 0, random := default }
  have answered := detached (fun _ _ => .error .projectRequired) world
  have shown : (respond { requireAuth := true } (fun _ _ => .error .projectRequired)
      askMethods).run world = ({ body := .fixed (some "text/html") }, world) := rfl
  rw [shown] at answered
  cases answered
  cases status

end Sitewright.Api
