import SoapAxum.Request.Head
import SoapAxum.Router.Response
import SoapAxum.Semantics.Coroutine

/-! The parts an endpoint is composed of: guards, middleware, hooks and a target. Each is code of the
application, so all that is fixed is what it sees and what it may answer. For one dispatch each is a
function of what it is given. Whatever else its answer depends on is in that function. -/
namespace SoapAxum.Endpoint
open SoapAxum.Http SoapAxum.Data SoapAxum.Semantics SoapAxum.Request SoapAxum.Router

/-- What hooks see of a response. -/
structure ResponseView where
  status : StatusCode
  headers : HeaderMap
  deriving DecidableEq,Repr

def ResponseView.ofResponse (response : Response) : ResponseView := ⟨response.status,response.headers⟩

section
variable [Platform]

/-- One callback of a hook with its arguments. -/
inductive HookEvent where
  | normalizationRejection (endpoint : EndpointMetadata) (error : SoapError) (response : ResponseView)
  | requestHead (request : RouteRequestHead)
  | guardRejection (request : RouteRequestHead) (error : SoapError) (response : ResponseView)
  | bodyRejection (request : RouteRequestHead) (error : SoapError) (response : ResponseView)
  | timeout (endpoint : EndpointMetadata) (error : SoapError) (response : ResponseView)
  | request (request : RouteRequest)
  | outcome (request : RouteRequest) (outcome : EndpointOutcome)
  | response (request : RouteRequest) (response : ResponseView)

abbrev EndpointGuardResult := Except EndpointGuardRejection Unit

/-- A guard may change the request head before it answers. -/
structure EndpointGuard where
  enforcementCapabilities : List HttpEnforcementCapability
  check : RouteRequestHead → Future (RouteRequestHead × EndpointGuardResult)

/-- What a middleware does once it has seen the request: it answers itself, or it runs the rest of
the pipeline once, which it may also drop at a suspension of its choice. -/
inductive Handling where
  | shortCircuit (request : RouteRequest) (outcome : EndpointOutcome)
  | delegate (request : RouteRequest)
      (after : RouteRequest → EndpointOutcome → Future (RouteRequest × EndpointOutcome))
  | abandon (request : RouteRequest) (polls : ℕ)
      (after : Option (RouteRequest × EndpointOutcome) → Future (RouteRequest × EndpointOutcome))

structure EndpointMiddleware where
  enforcementCapabilities : List HttpEnforcementCapability
  handle : RouteRequest → Future Handling

structure EndpointTarget where
  call : RouteRequest → Future EndpointOutcome

structure EndpointBinding where
  target : EndpointTarget
  guards : List EndpointGuard
  middleware : List EndpointMiddleware
  hooks : List Platform.EndpointHook

/-- What happens during a dispatch, as an observer of all parts would see it. -/
inductive Event where
  | hook (index : ℕ) (event : HookEvent)
  | guardAccepted (guard : EndpointGuard)
  | guardRejected (guard : EndpointGuard)
  | bodyRead (body : Bytes)
  | middlewareEntered (middleware : EndpointMiddleware) (request : RouteRequest)
  | middlewareDelegated (middleware : EndpointMiddleware) (request : RouteRequest)
  | middlewareResumed (middleware : EndpointMiddleware) (request : RouteRequest)
      (outcome : EndpointOutcome)
  | middlewareAbandoned (middleware : EndpointMiddleware)
  | targetCalled (request : RouteRequest)
  | applyingPolicies (response : Response)

/-- A stage of the pipeline works on the request and returns it with the outcome. -/
abbrev Stage := RouteRequest → Coroutine Event (RouteRequest × EndpointOutcome)

def EndpointTarget.stage (target : EndpointTarget) : Stage := fun request => do
  .report (.targetCalled request)
  let outcome ← .await (target.call request)
  pure (request,outcome)

/-- A middleware around the rest of the pipeline. -/
def EndpointMiddleware.around (middleware : EndpointMiddleware) (next : Stage) : Stage :=
  fun request => do
    .report (.middlewareEntered middleware request)
    match ← .await (middleware.handle request) with
    | .shortCircuit request outcome => pure (request,outcome)
    | .delegate request after =>
      .report (.middlewareDelegated middleware request)
      let (request,outcome) ← next request
      .report (.middlewareResumed middleware request outcome)
      .await (after request outcome)
    | .abandon request polls after =>
      .report (.middlewareDelegated middleware request)
      match ← Coroutine.timeout polls (next request) with
      | some (request,outcome) =>
        .report (.middlewareResumed middleware request outcome)
        .await (after (some (request,outcome)))
      | none =>
        .report (.middlewareAbandoned middleware)
        .await (after none)

/-- The remaining middleware, then the target. -/
structure EndpointNext where
  middleware : List EndpointMiddleware
  target : EndpointTarget

def runFrom (target : EndpointTarget) : List EndpointMiddleware → Stage
  | [] => target.stage
  | middleware :: remaining => middleware.around (runFrom target remaining)

def EndpointNext.run (next : EndpointNext) : Stage := runFrom next.target next.middleware

end
end SoapAxum.Endpoint
