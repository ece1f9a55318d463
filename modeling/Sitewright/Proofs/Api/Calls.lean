import Sitewright.Proofs.Api.Tokenless
import Sitewright.Proofs.Api.Unexpected

namespace Sitewright.Api

open Sitewright.Action (Within)
open Operation (Call)

variable {settings : Settings} {transform : Operation.Transform} {request : Request}
  {world : World}

/-- The call that a resource asks for, if it asks for one that may write and the request is
understood. -/
def Route.call? [Machine] (settings : Settings) (transform : Operation.Transform)
    (request : Request) (actor : Json) : Route → Option Call
  | createProject => do
    let body ← (objectBody request).toOption
    return .create (.obj body) actor none
  | deleteProject id => some (.delete id actor)
  | deploy id => do
    let body ← (optionalBody request).toOption
    let message ← (messageIn body).toOption
    return .promote id (Fields.value body "targetEnvironment") message actor none
      settings.historyLimit
  | saveCopy id environment => do
    let body ← (objectBody request).toOption
    let known ← (request.knownTime settings).toOption
    return .save id (.str environment) (projectIn body) actor none known
  | enhance => do
    let body ← (optionalBody request).toOption
    if (Fields.value body "project").asObject?.isNone then none
    else do
      let prompt := Fields.value body "enhancementPrompt"
      let _ ← (Operation.instructionOf prompt).toOption
      let project ← (Project.ofJson (Fields.value body "project")).toOption
      let environment := Fields.value body "environment"
      return .enhance project prompt transform environment.isTruthy environment actor none
  | _ => none

def Request.call? [Machine] (settings : Settings) (transform : Operation.Transform)
    (request : Request) :
    Option Call :=
  match Routing.ofRequest request with
  | .found route =>
    match senderFor settings request route with
    | .ok sender => route.call? settings transform request (.ofText? sender)
    | .error _ => none
  | _ => none

def storeAfter [Machine] (world : World) : Option Call → Store
  | some call => (call.perform.perform world).2.store
  | none => world.store

/-- Of an action that does to a settled store what a call does, or nothing. -/
def AmountsTo [Machine] (action : Action Response) (call? : Option Call) : Prop :=
  ∀ world, world.store.Settled → (action.perform world).2.store = storeAfter world call?

theorem amountsTo_none [Machine] {action : Action Response} (h : Within Store.Unchanged action) :
    AmountsTo action none := h

theorem AmountsTo.after [Machine] {α : Type} {result : Except Error α}
    {action : α → Action Response}
    {call? : α → Option Call} (h : ∀ a, AmountsTo (action a) (call? a)) :
    AmountsTo (Action.ofExcept result >>= action) (result.toOption.bind call?) := by
  cases result with
  | error error => exact amountsTo_none (Action.within_throw error)
  | ok a => exact h a

theorem amountsTo_call [Machine] {α : Type} {operation : Action α} {toJson : α → Json} {call : Call}
    {answer : α → Action Response} (same : call.perform = toJson <$> operation)
    (atomic : Store.Atomic operation) (looks : ∀ a, Within Store.Unchanged (answer a)) :
    AmountsTo (operation >>= answer) (some call) := by
  intro world settled
  have left := (atomic world settled).1
  rw [storeAfter, same, Action.perform_map]
  rcases performed : operation.perform world with ⟨error | a, after⟩
  · rw [Action.perform_bind_of_error performed]
  · rw [performed] at left
    rw [Action.perform_bind_of_ok performed]
    exact looks a after left

theorem amountsTo_enhance [Machine] {actor : Json} :
    AmountsTo (enhance transform request actor)
      (Route.enhance.call? settings transform request actor) := by
  refine .after fun body => ?_
  dsimp only
  split
  · exact amountsTo_none (Action.within_throw _)
  · exact .after fun _ => .after fun project =>
      amountsTo_call rfl (Operation.atomic_enhance _ _ _ _ _ _ _) fun _ => Action.within_pure _

theorem amountsTo_perform [Machine] (route : Route) (actor : Json) :
    AmountsTo (route.perform settings transform request actor)
      (route.call? settings transform request actor) := by
  cases route with
  | health => exact amountsTo_none (Action.within_pure _)
  | description => exact amountsTo_none (unchanged_of_isDocument .description)
  | staticFile => exact amountsTo_none (unchanged_of_isDocument .staticFile)
  | projects => exact amountsTo_none unchanged_listProjects
  | createProject =>
    exact .after fun _ => amountsTo_call rfl (Operation.atomic_createProject _ _ _)
      fun _ => Action.within_pure _
  | exportProject =>
    exact amountsTo_none ((Action.within_ofExcept _).bind fun _ =>
      (Action.within_ofExcept _).bind fun _ => Action.within_pure _)
  | project id =>
    exact amountsTo_none ((Operation.unchanged_getProject id).bind fun _ => Action.within_pure _)
  | deleteProject id =>
    exact amountsTo_call (bind_pure_comp _ _) (Operation.atomic_deleteProject id actor)
      fun _ => Action.within_pure _
  | deploy id =>
    exact .after fun _ => .after fun _ => amountsTo_call (bind_pure_comp _ _)
      (Operation.atomic_promote _ _ _ _ _ _) fun _ => Action.within_pure _
  | deployments id => exact amountsTo_none ((Operation.unchanged_deployments id).map _)
  | copy id environment =>
    exact amountsTo_none ((Operation.unchanged_loadCopy _ _).bind fun _ =>
      unchanged_copyResponse _)
  | saveCopy id environment =>
    exact .after fun _ => .after fun _ => amountsTo_call rfl
      (Operation.atomic_saveCopy _ _ _ _ _ _) fun _ => unchanged_copyResponse _
  | enhance => exact amountsTo_enhance
  | audit => exact amountsTo_none unchanged_audit

theorem store_serve [Machine] (settled : world.store.Settled) (route : Route) :
    (serve settings transform request route world).2.store =
      storeAfter world (match senderFor settings request route with
        | .ok sender => route.call? settings transform request (.ofText? sender)
        | .error _ => none) := by
  rcases sent : senderFor settings request route with refusal | sender
  · rw [serve_of_refusal sent]
    rfl
  have amounts := @amountsTo_perform settings transform request _ route (.ofText? sender) world
    settled
  rcases performed : (route.perform settings transform request (.ofText? sender)).perform world with
    ⟨error | response, after⟩
  · rw [performed] at amounts
    rw [serve_of_error sent performed]
    exact amounts
  · rw [performed] at amounts
    rw [serve_of_ok sent performed]
    exact amounts

/-- After a request the store is as after the call that it asks for, or as it was. -/
theorem store_respond [Machine] (settled : world.store.Settled) :
    ((respond settings transform request).run world).2.store =
      storeAfter world (request.call? settings transform) := by
  rw [run_respond, answerWithBody, Request.call?]
  cases Routing.ofRequest request with
  | found route => exact store_serve settled route
  | _ => rfl

theorem toOption_eq_some {α : Type} {result : Except Error α} {a : α} :
    result.toOption = some a ↔ result = .ok a := by
  cases result with
  | error error => exact iff_of_false nofun nofun
  | ok other => simp [Except.toOption]

theorem Route.hasReadPrior_of_call? [Machine] {route : Route} {actor : Json} {call : Call}
    (asked : route.call? settings transform request actor = some call) : call.HasReadPrior := by
  cases route with
  | createProject =>
    obtain ⟨body, -, ⟨⟩⟩ := Option.bind_eq_some_iff.mp asked
    trivial
  | deleteProject =>
    cases asked
    trivial
  | deploy =>
    obtain ⟨body, -, asked⟩ := Option.bind_eq_some_iff.mp asked
    obtain ⟨message, -, ⟨⟩⟩ := Option.bind_eq_some_iff.mp asked
    trivial
  | saveCopy =>
    obtain ⟨body, -, asked⟩ := Option.bind_eq_some_iff.mp asked
    obtain ⟨known, -, ⟨⟩⟩ := Option.bind_eq_some_iff.mp asked
    trivial
  | enhance =>
    obtain ⟨body, -, asked⟩ := Option.bind_eq_some_iff.mp asked
    split at asked
    · cases asked
    · obtain ⟨instruction, -, asked⟩ := Option.bind_eq_some_iff.mp asked
      obtain ⟨project, read, ⟨⟩⟩ := Option.bind_eq_some_iff.mp asked
      exact ⟨_, toOption_eq_some.mp read⟩
  | _ => cases asked

theorem hasReadPrior_of_call? [Machine] {call : Call}
    (asked : request.call? settings transform = some call) : call.HasReadPrior := by
  unfold Request.call? at asked
  split at asked
  · split at asked
    · exact Route.hasReadPrior_of_call? asked
    · cases asked
  · cases asked

end Sitewright.Api
