import SoapAxum.Builder.Plugin

/-! The builder of a router: its registration calls, and the checks and the loop of `build`. -/
namespace SoapAxum.Builder
open SoapAxum.Http SoapAxum.Data SoapAxum.Endpoint SoapAxum.Router

section
variable [Platform] [Axum]

def defaultMaxBodyBytes : ℕ := 2*1024*1024

/-- The builder lends a plugin the fields of its context. -/
structure SoapRouterBuilder extends PluginContext where
  bindings : HashMap EndpointId EndpointBinding
  allowedUnenforcedCapabilities : HashMap EndpointId (Finset HttpEnforcementCapability)
  plugins : Finset String
  errorMapper : HttpErrorMapper
  maxBodyBytes : ℕ

/-- A required capability has a provider in its own phase. -/
def providedAtEndpoint (guards : List EndpointGuard) (middleware : List EndpointMiddleware)
    (required : HttpEnforcementCapability) : Bool :=
  match required with
  | .authentication | .rateLimit | .csrf =>
    guards.any fun guard => guard.enforcementCapabilities.contains required
  | .requestValidation =>
    middleware.any fun middleware => middleware.enforcementCapabilities.contains required
  | .cors => false

def missingCapabilities (endpoint : EndpointMetadata) (guards : List EndpointGuard)
    (middleware : List EndpointMiddleware) (routerCapabilities : Finset HttpEnforcementCapability)
    (allowedUnenforced : Option (Finset HttpEnforcementCapability)) :
    List HttpEnforcementCapability :=
  endpoint.requiredEnforcementCapabilities.filter fun required =>
    if allowedUnenforced.any fun allowed => decide (required ∈ allowed) then false
    else !decide (required ∈ routerCapabilities) && !providedAtEndpoint guards middleware required

def validateEnforcementCoverage (endpoint : EndpointMetadata) (guards : List EndpointGuard)
    (middleware : List EndpointMiddleware) (routerCapabilities : Finset HttpEnforcementCapability)
    (allowedUnenforced : Option (Finset HttpEnforcementCapability)) : SoapResult Unit :=
  let missing := missingCapabilities endpoint guards middleware routerCapabilities allowedUnenforced
  if missing.isEmpty then
    .ok ()
  else
    .error (.validation ("endpoint `" ++ endpoint.id.value ++
      "` requires missing HTTP enforcement capabilities: " ++
      ", ".intercalate (missing.map Platform.capabilityName)))

namespace SoapRouterBuilder

def new (catalog : EndpointCatalog) : SoapRouterBuilder :=
  { catalog
    globalGuards := []
    globalMiddleware := []
    globalHooks := []
    endpointGuards := .empty
    endpointMiddleware := .empty
    endpointHooks := .empty
    routerAugmentations := []
    routerWrappers := []
    routerEnforcementCapabilities := ∅
    bindings := .empty
    allowedUnenforcedCapabilities := .empty
    plugins := ∅
    errorMapper := Platform.defaultErrorMapper
    maxBodyBytes := defaultMaxBodyBytes }

def guard (builder : SoapRouterBuilder) (guard : EndpointGuard) : SoapRouterBuilder :=
  { builder with globalGuards := builder.globalGuards ++ [guard] }

def bind (builder : SoapRouterBuilder) (endpointId : String) (binding : EndpointBinding) :
    SoapResult SoapRouterBuilder := do
  let id ← requireEndpoint builder.catalog endpointId
  if (builder.bindings.get id).isSome then
    .error (.conflict ("endpoint `" ++ endpointId ++ "` already has a binding"))
  else
    .ok { builder with bindings := builder.bindings.insert id binding }

def middleware (builder : SoapRouterBuilder) (middleware : EndpointMiddleware) :
    SoapRouterBuilder :=
  { builder with globalMiddleware := builder.globalMiddleware ++ [middleware] }

def hook (builder : SoapRouterBuilder) (hook : Platform.EndpointHook) : SoapRouterBuilder :=
  { builder with globalHooks := builder.globalHooks ++ [hook] }

def plugin (builder : SoapRouterBuilder) (plugin : RouterPlugin) : SoapResult SoapRouterBuilder :=
  if plugin.name ∈ builder.plugins then
    .error (.conflict ("router plugin `" ++ plugin.name ++ "` is already installed"))
  else match (plugin.install builder.catalog).run builder.toPluginContext with
    | (.ok (),context) =>
      .ok { builder with
        toPluginContext := context
        plugins := insert plugin.name builder.plugins }
    | (.error error,_) => .error error

def setErrorMapper (builder : SoapRouterBuilder) (errorMapper : HttpErrorMapper) :
    SoapRouterBuilder := { builder with errorMapper }

def setMaxBodyBytes (builder : SoapRouterBuilder) (maxBodyBytes : ℕ) :
    SoapResult SoapRouterBuilder :=
  if maxBodyBytes = 0 then
    .error (.validation "Axum maximum request body size must be greater than zero")
  else
    .ok { builder with maxBodyBytes }

def allowUnenforced (builder : SoapRouterBuilder) (endpointId : String)
    (capability : HttpEnforcementCapability) : SoapResult SoapRouterBuilder := do
  let id ← requireEndpoint builder.catalog endpointId
  .ok { builder with
    allowedUnenforcedCapabilities :=
      builder.allowedUnenforcedCapabilities.modifyEntry id ∅ (insert capability) }

/-- One pass of the loop of `build`: what was registered for the endpoint is taken out of the maps
of the builder and handed to the runtime behind a new route. -/
def addEndpoint (state : SoapRouterBuilder × Axum.Router) (endpoint : EndpointMetadata) :
    Attempt (SoapRouterBuilder × Axum.Router) :=
  let (builder,router) := state
  match builder.bindings.get endpoint.id with
  | none =>
    .error (.returned (.infrastructure
      "validated endpoint binding disappeared during router construction"))
  | some binding => match Platform.methodFilter endpoint.method with
    | none =>
      .error (.returned (.unsupported
        ("Axum does not support endpoint method `" ++ endpoint.method.name ++ "`")))
    | some filter => do
      let guards := builder.globalGuards ++ (builder.endpointGuards.get endpoint.id).getD [] ++
        binding.guards
      let middleware := builder.globalMiddleware ++
        (builder.endpointMiddleware.get endpoint.id).getD [] ++ binding.middleware
      (validateEnforcementCoverage endpoint guards middleware builder.routerEnforcementCapabilities
        (builder.allowedUnenforcedCapabilities.get endpoint.id)).mapError .returned
      let hooks := builder.globalHooks ++ (builder.endpointHooks.get endpoint.id).getD [] ++
        binding.hooks
      let runtime : EndpointRuntime :=
        { endpoint
          target := binding.target
          guards
          middleware
          hooks
          errorMapper := builder.errorMapper
          maxBodyBytes := builder.maxBodyBytes }
      let router ← orPanic (Axum.route router endpoint.path filter runtime)
      .ok ({ builder with
          bindings := builder.bindings.remove endpoint.id
          endpointGuards := builder.endpointGuards.remove endpoint.id
          endpointMiddleware := builder.endpointMiddleware.remove endpoint.id
          endpointHooks := builder.endpointHooks.remove endpoint.id },
        router)

def missingBindings (builder : SoapRouterBuilder) : List EndpointMetadata :=
  builder.catalog.endpoints.filter fun endpoint => (builder.bindings.get endpoint.id).isNone

def build (builder : SoapRouterBuilder) : Attempt Axum.Router :=
  let missing := builder.missingBindings
  if !missing.isEmpty then
    .error (.returned (.validation ("missing endpoint bindings: " ++
      ", ".intercalate (missing.map (·.id.value)))))
  else do
    let (builder,router) ← builder.catalog.endpoints.foldlM addEndpoint (builder,Axum.new)
    let router ← builder.routerAugmentations.foldlM (fun router augmentation => augmentation router)
      router
    builder.routerWrappers.foldlM (fun router wrapper => wrapper router) router

end SoapRouterBuilder

/-- A call on the builder. -/
inductive BuilderCall where
  | guard (guard : EndpointGuard)
  | bind (endpointId : String) (binding : EndpointBinding)
  | middleware (middleware : EndpointMiddleware)
  | hook (hook : Platform.EndpointHook)
  | plugin (plugin : RouterPlugin)
  | errorMapper (errorMapper : HttpErrorMapper)
  | maxBodyBytes (maxBodyBytes : ℕ)
  | allowUnenforced (endpointId : String) (capability : HttpEnforcementCapability)

def SoapRouterBuilder.perform (builder : SoapRouterBuilder) :
    BuilderCall → SoapResult SoapRouterBuilder
  | .guard guard => .ok (builder.guard guard)
  | .bind endpointId binding => builder.bind endpointId binding
  | .middleware middleware => .ok (builder.middleware middleware)
  | .hook hook => .ok (builder.hook hook)
  | .plugin plugin => builder.plugin plugin
  | .errorMapper errorMapper => .ok (builder.setErrorMapper errorMapper)
  | .maxBodyBytes maxBodyBytes => builder.setMaxBodyBytes maxBodyBytes
  | .allowUnenforced endpointId capability => builder.allowUnenforced endpointId capability

/-- A chain of calls, which ends at the first that fails. -/
def configure (catalog : EndpointCatalog) (calls : List BuilderCall) :
    SoapResult SoapRouterBuilder :=
  calls.foldlM SoapRouterBuilder.perform (.new catalog)

end
end SoapAxum.Builder
