import Mathlib.Data.Finset.Insert
import SoapAxum.Data.HashMap
import SoapAxum.Router.Dispatch

/-! What a plugin may register while it is installed. It sees the catalog and what its own calls
return, never what has been registered so far. -/
namespace SoapAxum.Builder
open SoapAxum.Http SoapAxum.Data SoapAxum.Endpoint SoapAxum.Router

/-- The router of the framework as it is put together. Adding a route panics if the path cannot be
parsed or clashes with an earlier one, and then there is no router. A validated catalog may well have
such paths, as two that differ in the names of their parameters only. -/
class Axum [Platform] where
  Router : Type
  new : Router
  route : Router → String → Platform.MethodFilter → EndpointRuntime → Option Router

/-- How a computation ends that gives no value: it returns an error, or it panics. -/
inductive Stop where
  | returned (error : SoapError)
  | panicked
  deriving DecidableEq,Repr

abbrev Attempt := Except Stop

/-- A call that panics where it has no value. -/
def orPanic {α : Type} : Option α → Attempt α
  | some a => .ok a
  | none => .error .panicked

lemma orPanic_eq_ok {α : Type} {o : Option α} {a : α} : orPanic o = .ok a ↔ o = some a := by
  cases o <;> simp [orPanic]

lemma orPanic_eq_error {α : Type} {o : Option α} {stop : Stop} :
    orPanic o = .error stop ↔ o = none ∧ stop = .panicked := by
  cases o <;> simp [orPanic,eq_comm]

section
variable [Platform] [Axum]

/-- Code of a plugin, which may also panic. -/
abbrev RouterTransform := Axum.Router → Attempt Axum.Router

structure PluginContext where
  catalog : EndpointCatalog
  globalGuards : List EndpointGuard
  globalMiddleware : List EndpointMiddleware
  globalHooks : List Platform.EndpointHook
  endpointGuards : HashMap EndpointId (List EndpointGuard)
  endpointMiddleware : HashMap EndpointId (List EndpointMiddleware)
  endpointHooks : HashMap EndpointId (List Platform.EndpointHook)
  routerAugmentations : List RouterTransform
  routerWrappers : List RouterTransform
  routerEnforcementCapabilities : Finset HttpEnforcementCapability

def notDeclared (endpointId : String) : SoapError :=
  .notFound ("endpoint `" ++ endpointId ++ "` is not declared")

/-- The identity of a declared endpoint. -/
def requireEndpoint (catalog : EndpointCatalog) (endpointId : String) : SoapResult EndpointId := do
  let id ← EndpointId.new endpointId
  if (catalog.endpoint id).isNone then
    .error (notDeclared endpointId)
  else
    .ok id

namespace PluginContext

def guard (context : PluginContext) (guard : EndpointGuard) : PluginContext :=
  { context with globalGuards := context.globalGuards ++ [guard] }

def middleware (context : PluginContext) (middleware : EndpointMiddleware) : PluginContext :=
  { context with globalMiddleware := context.globalMiddleware ++ [middleware] }

def hook (context : PluginContext) (hook : Platform.EndpointHook) : PluginContext :=
  { context with globalHooks := context.globalHooks ++ [hook] }

def augmentRouter (context : PluginContext) (augmentation : RouterTransform) : PluginContext :=
  { context with routerAugmentations := context.routerAugmentations ++ [augmentation] }

def wrapRouter (context : PluginContext) (wrapper : RouterTransform) : PluginContext :=
  { context with routerWrappers := context.routerWrappers ++ [wrapper] }

def routerEnforcementCapability (context : PluginContext)
    (capability : HttpEnforcementCapability) : PluginContext :=
  { context with
    routerEnforcementCapabilities := insert capability context.routerEnforcementCapabilities }

def addEndpointMiddleware (context : PluginContext) (endpointId : String)
    (middleware : EndpointMiddleware) : SoapResult PluginContext := do
  let id ← requireEndpoint context.catalog endpointId
  .ok { context with
    endpointMiddleware := context.endpointMiddleware.modifyEntry id [] (· ++ [middleware]) }

def addEndpointGuard (context : PluginContext) (endpointId : String) (guard : EndpointGuard) :
    SoapResult PluginContext := do
  let id ← requireEndpoint context.catalog endpointId
  .ok { context with endpointGuards := context.endpointGuards.modifyEntry id [] (· ++ [guard]) }

def addEndpointHook (context : PluginContext) (endpointId : String)
    (hook : Platform.EndpointHook) : SoapResult PluginContext := do
  let id ← requireEndpoint context.catalog endpointId
  .ok { context with endpointHooks := context.endpointHooks.modifyEntry id [] (· ++ [hook]) }

end PluginContext

/-- A call on the context. -/
inductive PluginCall where
  | guard (guard : EndpointGuard)
  | middleware (middleware : EndpointMiddleware)
  | hook (hook : Platform.EndpointHook)
  | augmentRouter (augmentation : RouterTransform)
  | wrapRouter (wrapper : RouterTransform)
  | routerEnforcementCapability (capability : HttpEnforcementCapability)
  | endpointMiddleware (endpointId : String) (middleware : EndpointMiddleware)
  | endpointGuard (endpointId : String) (guard : EndpointGuard)
  | endpointHook (endpointId : String) (hook : Platform.EndpointHook)

def PluginContext.perform (context : PluginContext) : PluginCall → SoapResult PluginContext
  | .guard guard => .ok (context.guard guard)
  | .middleware middleware => .ok (context.middleware middleware)
  | .hook hook => .ok (context.hook hook)
  | .augmentRouter augmentation => .ok (context.augmentRouter augmentation)
  | .wrapRouter wrapper => .ok (context.wrapRouter wrapper)
  | .routerEnforcementCapability capability =>
    .ok (context.routerEnforcementCapability capability)
  | .endpointMiddleware endpointId middleware =>
    context.addEndpointMiddleware endpointId middleware
  | .endpointGuard endpointId guard => context.addEndpointGuard endpointId guard
  | .endpointHook endpointId hook => context.addEndpointHook endpointId hook

/-- The body of `install`: calls on the context, each of which may depend on what those before it
returned, and then a result of its own. -/
inductive Installation where
  | finish (result : SoapResult Unit)
  | call (call : PluginCall) (next : SoapResult Unit → Installation)

/-- A failed call changes nothing, and the plugin may go on after it. -/
def Installation.run : Installation → PluginContext → SoapResult Unit × PluginContext
  | .finish result,context => (result,context)
  | .call request next,context => match context.perform request with
    | .ok context => (next (.ok ())).run context
    | .error error => (next (.error error)).run context

structure RouterPlugin where
  name : String
  install : EndpointCatalog → Installation

end
end SoapAxum.Builder
