import SoapAxum.Builder.History
import SoapAxum.Endpoint.Binding
import SoapAxum.Router.Exits

/-! What `build` makes of a history: every endpoint gets the runtime its registrations compose, and
the transforms are applied to the router of all routes. -/
namespace SoapAxum.Builder
open SoapAxum.Http SoapAxum.Data SoapAxum.Semantics SoapAxum.Endpoint SoapAxum.Router

section
variable [Platform] [Axum]

structure Route where
  path : String
  filter : Platform.MethodFilter
  runtime : EndpointRuntime

def Route.mount (router : Axum.Router) (route : Route) : Option Axum.Router :=
  Axum.route router route.path route.filter route.runtime

/-- The router of all routes, if the framework takes one after the other. -/
def Route.mountAll (routes : List Route) : Option Axum.Router := routes.foldlM Route.mount Axum.new

namespace History

/-- Global registrations come first, then those for the endpoint, then those of its binding. -/
def runtime (history : History) (endpoint : EndpointMetadata) (binding : EndpointBinding) :
    EndpointRuntime :=
  { endpoint
    target := binding.target
    guards := history.globalGuards ++ history.endpointGuards endpoint.id ++ binding.guards
    middleware :=
      history.globalMiddleware ++ history.endpointMiddleware endpoint.id ++ binding.middleware
    hooks := history.globalHooks ++ history.endpointHooks endpoint.id ++ binding.hooks
    errorMapper := history.errorMapper
    maxBodyBytes := history.maxBodyBytes }

def route (history : History) (endpoint : EndpointMetadata) : Option Route := do
  let binding ← (history.bindings endpoint.id).head?
  let filter ← Platform.methodFilter endpoint.method
  some ⟨endpoint.path,filter,history.runtime endpoint binding⟩

def routes (history : History) (catalog : EndpointCatalog) : List Route :=
  catalog.endpoints.filterMap history.route

/-- All augmentations, then all wrappers, each to what the one before it returned. -/
def transform (history : History) (router : Axum.Router) : Attempt Axum.Router :=
  (history.augmentations ++ history.wrappers).foldlM (fun router transform => transform router) router

end History

/-- A capability is provided by a guard if it is about admission, and by middleware if it is about
the request. -/
inductive ProvidedInPhase (runtime : EndpointRuntime) (capability : HttpEnforcementCapability) :
    Prop
  | byGuard (admission : capability ∈ [.authentication,.rateLimit,.csrf]) (guard : EndpointGuard)
      (member : guard ∈ runtime.guards) (declared : capability ∈ guard.enforcementCapabilities)
  | byMiddleware (validation : capability = .requestValidation) (middleware : EndpointMiddleware)
      (member : middleware ∈ runtime.middleware)
      (declared : capability ∈ middleware.enforcementCapabilities)

/-- Every required capability is opted out for this very endpoint, or it is provided. -/
def Covered (history : History) (runtime : EndpointRuntime) : Prop :=
  ∀ capability ∈ runtime.endpoint.requiredEnforcementCapabilities,
    .allowUnenforced runtime.endpoint.id capability ∈ history ∨
    .routerEnforcementCapability capability ∈ history ∨ ProvidedInPhase runtime capability

/-- The endpoint is bound, its method is supported and its capabilities are covered. -/
def Buildable (history : History) (endpoint : EndpointMetadata) : Prop :=
  ∃ binding, history.bindings endpoint.id = [binding] ∧
    (Platform.methodFilter endpoint.method).isSome ∧ Covered history (history.runtime endpoint binding)

/-- The route of an endpoint is what its registrations compose. -/
structure Composes (history : History) (endpoint : EndpointMetadata) (route : Route) : Prop where
  path : route.path = endpoint.path
  filter : Platform.methodFilter endpoint.method = some route.filter
  runtime : ∃ binding, history.bindings endpoint.id = [binding] ∧
    route.runtime = history.runtime endpoint binding

omit [Axum] in
theorem providedAtEndpoint_iff {runtime : EndpointRuntime} {capability : HttpEnforcementCapability} :
    providedAtEndpoint runtime.guards runtime.middleware capability = true ↔
      ProvidedInPhase runtime capability := by
  constructor
  · intro h
    cases capability with
    | requestValidation =>
      obtain ⟨middleware,hm,hc⟩ := List.any_eq_true.mp h
      exact .byMiddleware rfl middleware hm (List.contains_iff_mem.mp hc)
    | cors => contradiction
    | _ =>
      obtain ⟨guard,hm,hc⟩ := List.any_eq_true.mp h
      exact .byGuard (by decide) guard hm (List.contains_iff_mem.mp hc)
  · rintro (⟨ha,guard,hm,hc⟩ | ⟨rfl,middleware,hm,hc⟩)
    · have hany : runtime.guards.any (fun guard => guard.enforcementCapabilities.contains capability)
          = true := List.any_eq_true.mpr ⟨guard,hm,List.contains_iff_mem.mpr hc⟩
      cases capability with
      | requestValidation => exact absurd ha (by decide)
      | cors => exact absurd ha (by decide)
      | _ => exact hany
    · exact List.any_eq_true.mpr ⟨middleware,hm,List.contains_iff_mem.mpr hc⟩

theorem validateEnforcementCoverage_eq_ok {catalog : EndpointCatalog} {history : History}
    {builder : SoapRouterBuilder} (runtime : EndpointRuntime) (h : Records catalog history builder) :
    validateEnforcementCoverage runtime.endpoint runtime.guards runtime.middleware
        builder.routerEnforcementCapabilities
        (builder.allowedUnenforcedCapabilities.get runtime.endpoint.id) = .ok () ↔
      Covered history runtime := by
  have hmissing : validateEnforcementCoverage runtime.endpoint runtime.guards runtime.middleware
      builder.routerEnforcementCapabilities
      (builder.allowedUnenforcedCapabilities.get runtime.endpoint.id) = .ok () ↔
      missingCapabilities runtime.endpoint runtime.guards runtime.middleware
        builder.routerEnforcementCapabilities
        (builder.allowedUnenforcedCapabilities.get runtime.endpoint.id) = [] := by
    rw [validateEnforcementCoverage]
    simp
  rw [hmissing,missingCapabilities,List.filter_eq_nil_iff]
  refine forall₂_congr fun capability _ => ?_
  rw [← h.allowedUnenforcedCapabilities,← h.routerEnforcementCapabilities,← providedAtEndpoint_iff]
  cases builder.allowedUnenforcedCapabilities.get runtime.endpoint.id with
  | none => simp [imp_iff_not_or]
  | some allowed => by_cases ha : capability ∈ allowed <;> simp [ha,imp_iff_not_or]

/-- The builder in the loop, with the maps emptied at the endpoints that are done. -/
def SoapRouterBuilder.drained (builder : SoapRouterBuilder) (ids : List EndpointId) :
    SoapRouterBuilder :=
  { builder with
    bindings := builder.bindings.removeAll ids
    endpointGuards := builder.endpointGuards.removeAll ids
    endpointMiddleware := builder.endpointMiddleware.removeAll ids
    endpointHooks := builder.endpointHooks.removeAll ids }

lemma drained_nil (builder : SoapRouterBuilder) : builder.drained [] = builder := by
  simp [SoapRouterBuilder.drained]

/-- What a pass composes of the fields of the builder is what the history says. -/
theorem runtime_of_drained {catalog : EndpointCatalog} {history : History}
    {builder : SoapRouterBuilder} {ids : List EndpointId} {endpoint : EndpointMetadata}
    (h : Records catalog history builder) (hid : endpoint.id ∉ ids) (binding : EndpointBinding) :
    history.runtime endpoint binding =
      { endpoint
        target := binding.target
        guards := builder.globalGuards ++
          ((builder.drained ids).endpointGuards.get endpoint.id).getD [] ++ binding.guards
        middleware := builder.globalMiddleware ++
          ((builder.drained ids).endpointMiddleware.get endpoint.id).getD [] ++ binding.middleware
        hooks := builder.globalHooks ++
          ((builder.drained ids).endpointHooks.get endpoint.id).getD [] ++ binding.hooks
        errorMapper := builder.errorMapper
        maxBodyBytes := builder.maxBodyBytes } := by
  simp only [SoapRouterBuilder.drained,HashMap.get_removeAll,if_neg hid,h.globalGuards,
    h.globalMiddleware,h.globalHooks,h.endpointGuards,h.endpointMiddleware,h.endpointHooks,
    h.errorMapper,h.maxBodyBytes,History.runtime]

/-- A pass over an endpoint that is bound and not done yet checks what it requires, and then mounts
its route. -/
lemma addEndpoint_of_bound {catalog : EndpointCatalog} {history : History}
    {builder : SoapRouterBuilder} {ids : List EndpointId} {router : Axum.Router}
    {endpoint : EndpointMetadata} {binding : EndpointBinding} {filter : Platform.MethodFilter}
    (h : Records catalog history builder) (hid : endpoint.id ∉ ids)
    (hb : builder.bindings.get endpoint.id = some binding)
    (hf : Platform.methodFilter endpoint.method = some filter) :
    let route : Route := ⟨endpoint.path,filter,history.runtime endpoint binding⟩
    SoapRouterBuilder.addEndpoint (builder.drained ids,router) endpoint = (do
      (validateEnforcementCoverage route.runtime.endpoint route.runtime.guards
        route.runtime.middleware builder.routerEnforcementCapabilities
        (builder.allowedUnenforcedCapabilities.get route.runtime.endpoint.id)).mapError .returned
      let router ← orPanic (route.mount router)
      .ok (builder.drained (endpoint.id :: ids),router)) := by
  intro route
  have hget : (builder.drained ids).bindings.get endpoint.id = some binding := by
    rw [← hb]
    exact if_neg hid
  have hnext : builder.drained (endpoint.id :: ids) =
      { builder.drained ids with
        bindings := (builder.drained ids).bindings.remove endpoint.id
        endpointGuards := (builder.drained ids).endpointGuards.remove endpoint.id
        endpointMiddleware := (builder.drained ids).endpointMiddleware.remove endpoint.id
        endpointHooks := (builder.drained ids).endpointHooks.remove endpoint.id } := by
    simp only [SoapRouterBuilder.drained,HashMap.remove_removeAll]
  have hroute : route = ⟨endpoint.path,filter,history.runtime endpoint binding⟩ := rfl
  rw [SoapRouterBuilder.addEndpoint,hget,hf,hnext,hroute,runtime_of_drained h hid binding]
  rfl

/-- What has been served has no binding left. -/
lemma addEndpoint_of_served {builder : SoapRouterBuilder} {ids : List EndpointId}
    {router : Axum.Router} {endpoint : EndpointMetadata} (hid : endpoint.id ∈ ids) :
    SoapRouterBuilder.addEndpoint (builder.drained ids,router) endpoint =
      .error (.returned (.infrastructure
        "validated endpoint binding disappeared during router construction")) := by
  have hget : (builder.drained ids).bindings.get endpoint.id = none := if_pos hid
  rw [SoapRouterBuilder.addEndpoint,hget]

lemma addEndpoint_of_unsupported {builder : SoapRouterBuilder} {ids : List EndpointId}
    {router : Axum.Router} {endpoint : EndpointMetadata} {binding : EndpointBinding}
    (hid : endpoint.id ∉ ids) (hb : builder.bindings.get endpoint.id = some binding)
    (hf : Platform.methodFilter endpoint.method = none) :
    SoapRouterBuilder.addEndpoint (builder.drained ids,router) endpoint =
      .error (.returned (.unsupported
        ("Axum does not support endpoint method `" ++ endpoint.method.name ++ "`"))) := by
  have hget : (builder.drained ids).bindings.get endpoint.id = some binding := (if_neg hid).trans hb
  rw [SoapRouterBuilder.addEndpoint,hget,hf]

section
variable {history : History} {endpoint : EndpointMetadata} {binding : EndpointBinding}
  {filter : Platform.MethodFilter}

lemma route_of_bound (hone : history.bindings endpoint.id = [binding])
    (hf : Platform.methodFilter endpoint.method = some filter) :
    history.route endpoint = some ⟨endpoint.path,filter,history.runtime endpoint binding⟩ := by
  rw [History.route,hone,hf]
  rfl

/-- Bound and supported, an endpoint lacks nothing but what it requires. -/
lemma buildable_iff_covered (hone : history.bindings endpoint.id = [binding])
    (hf : Platform.methodFilter endpoint.method = some filter) :
    Buildable history endpoint ↔ Covered history (history.runtime endpoint binding) := by
  constructor
  · rintro ⟨binding',hone',-,hc⟩
    obtain rfl := List.singleton_inj.mp (hone.symm.trans hone')
    exact hc
  · intro hc
    exact ⟨binding,hone,by simp [hf],hc⟩

end

/-- One pass serves an endpoint that is not done yet, with the runtime its registrations compose, if
the framework takes the route. -/
theorem addEndpoint_eq_ok {catalog : EndpointCatalog} {history : History}
    {builder next : SoapRouterBuilder} {ids : List EndpointId} {router router' : Axum.Router}
    {endpoint : EndpointMetadata} (h : Records catalog history builder) :
    SoapRouterBuilder.addEndpoint (builder.drained ids,router) endpoint = .ok (next,router') ↔
      endpoint.id ∉ ids ∧ Buildable history endpoint ∧ next = builder.drained (endpoint.id :: ids) ∧
        ∃ route, history.route endpoint = some route ∧ route.mount router = some router' := by
  have hbound := h.bindings endpoint.id
  by_cases hid : endpoint.id ∈ ids
  · rw [addEndpoint_of_served hid]
    exact iff_of_false nofun fun hs => hs.1 hid
  cases hb : builder.bindings.get endpoint.id with
  | none =>
    have hget : (builder.drained ids).bindings.get endpoint.id = none := (if_neg hid).trans hb
    rw [SoapRouterBuilder.addEndpoint,hget]
    rw [hb] at hbound
    exact iff_of_false nofun fun ⟨_,⟨binding,hone,_⟩,_⟩ => nomatch hbound.trans hone
  | some binding =>
    cases hf : Platform.methodFilter endpoint.method with
    | none =>
      rw [addEndpoint_of_unsupported hid hb hf]
      exact iff_of_false nofun fun ⟨_,⟨_,_,hsome,_⟩,_⟩ => by simp [hf] at hsome
    | some filter =>
      rw [hb] at hbound
      rw [addEndpoint_of_bound h hid hb hf,Fallible.bind_eq_ok,
        buildable_iff_covered hbound.symm hf,route_of_bound hbound.symm hf,
        ← validateEnforcementCoverage_eq_ok _ h]
      constructor
      · rintro ⟨u,hu,hs⟩
        obtain ⟨mounted,hmount,hs⟩ := Fallible.bind_eq_ok.mp hs
        obtain ⟨rfl,rfl⟩ := Prod.mk.inj (Except.ok.inj hs)
        exact ⟨hid,Fallible.mapError_eq_ok.mp hu,rfl,_,rfl,orPanic_eq_ok.mp hmount⟩
      · rintro ⟨-,hu,rfl,_,⟨⟩,hmount⟩
        exact ⟨(),Fallible.mapError_eq_ok.mpr hu,
          Fallible.bind_eq_ok.mpr ⟨router',orPanic_eq_ok.mpr hmount,rfl⟩⟩

lemma exists_route {history : History} {endpoint : EndpointMetadata}
    (hb : Buildable history endpoint) : ∃ route, history.route endpoint = some route ∧
      Composes history endpoint route ∧ Covered history route.runtime := by
  obtain ⟨binding,hone,hsome,hc⟩ := hb
  obtain ⟨filter,hf⟩ := Option.isSome_iff_exists.mp hsome
  exact ⟨_,route_of_bound hone hf,⟨rfl,hf,binding,hone,rfl⟩,hc⟩

/-- The routes of the first endpoint and of the others are mounted one after the other. -/
lemma foldlM_mount_cons {history : History} {endpoint : EndpointMetadata}
    {endpoints : List EndpointMetadata} {route : Route} {router last : Axum.Router}
    (hroute : history.route endpoint = some route) :
    ((endpoint :: endpoints).filterMap history.route).foldlM Route.mount router = some last ↔
      ∃ mid, route.mount router = some mid ∧
        (endpoints.filterMap history.route).foldlM Route.mount mid = some last := by
  rw [List.filterMap_cons_some hroute,List.foldlM_cons]
  exact Option.bind_eq_some_iff

/-- The loop serves every endpoint once, in catalog order. -/
theorem foldlM_addEndpoint_eq_ok {catalog : EndpointCatalog} {history : History}
    {builder next : SoapRouterBuilder} {endpoints : List EndpointMetadata} {ids : List EndpointId}
    {router last : Axum.Router} (h : Records catalog history builder) :
    endpoints.foldlM SoapRouterBuilder.addEndpoint (builder.drained ids,router) = .ok (next,last) ↔
      (endpoints.map EndpointMetadata.id).Nodup ∧ (∀ endpoint ∈ endpoints, endpoint.id ∉ ids) ∧
      (∀ endpoint ∈ endpoints, Buildable history endpoint) ∧
      next = builder.drained ((endpoints.map EndpointMetadata.id).reverse ++ ids) ∧
      (endpoints.filterMap history.route).foldlM Route.mount router = some last := by
  induction endpoints generalizing ids router with
  | nil =>
    rw [List.foldlM_nil]
    constructor
    · intro hs
      obtain ⟨rfl,rfl⟩ := Prod.mk.inj (Except.ok.inj hs)
      exact ⟨List.nodup_nil,by simp,by simp,rfl,rfl⟩
    · rintro ⟨-,-,-,rfl,hlast⟩
      obtain rfl := Option.some.inj hlast
      rfl
  | cons endpoint endpoints ih =>
    have hids : ((endpoint :: endpoints).map EndpointMetadata.id).reverse ++ ids =
        (endpoints.map EndpointMetadata.id).reverse ++ endpoint.id :: ids := by simp
    rw [List.foldlM_cons,Fallible.bind_eq_ok,hids]
    constructor
    · rintro ⟨⟨mid,served⟩,hmid,hs⟩
      obtain ⟨hid,hb,rfl,route,hroute,hmount⟩ := (addEndpoint_eq_ok h).mp hmid
      obtain ⟨hn,hd,hbs,rfl,hrest⟩ := ih.mp hs
      have hnew : endpoint.id ∉ endpoints.map EndpointMetadata.id := by
        intro hm
        obtain ⟨e,he,hei⟩ := List.mem_map.mp hm
        exact hd e he (hei ▸ List.mem_cons_self)
      have hfresh : ∀ e ∈ endpoints, e.id ∉ ids := by
        intro e he hm
        exact hd e he (List.mem_cons_of_mem _ hm)
      exact ⟨List.nodup_cons.mpr ⟨hnew,hn⟩,List.forall_mem_cons.mpr ⟨hid,hfresh⟩,
        List.forall_mem_cons.mpr ⟨hb,hbs⟩,rfl,(foldlM_mount_cons hroute).mpr ⟨served,hmount,hrest⟩⟩
    · rintro ⟨hn,hd,hbs,rfl,hmounted⟩
      obtain ⟨hnew,hn⟩ := List.nodup_cons.mp hn
      obtain ⟨hid,hd⟩ := List.forall_mem_cons.mp hd
      obtain ⟨hb,hbs⟩ := List.forall_mem_cons.mp hbs
      obtain ⟨route,hroute,-,-⟩ := exists_route hb
      obtain ⟨served,hmount,hrest⟩ := (foldlM_mount_cons hroute).mp hmounted
      have hfresh : ∀ e ∈ endpoints, e.id ∉ endpoint.id :: ids := by
        intro e he hm
        rcases List.mem_cons.mp hm with hei | hm
        · exact hnew (List.mem_map.mpr ⟨e,he,hei⟩)
        · exact hd e he hm
      exact ⟨_,(addEndpoint_eq_ok h).mpr ⟨hid,hb,rfl,route,hroute,hmount⟩,
        ih.mpr ⟨hn,hfresh,hbs,rfl,hrest⟩⟩

theorem forall₂_composes {endpoints : List EndpointMetadata} {history : History}
    (hb : ∀ endpoint ∈ endpoints, Buildable history endpoint) :
    List.Forall₂ (Composes history) endpoints (endpoints.filterMap history.route) := by
  induction endpoints with
  | nil => exact .nil
  | cons endpoint endpoints ih =>
    obtain ⟨hb,hbs⟩ := List.forall_mem_cons.mp hb
    obtain ⟨route,hroute,hcomposes,-⟩ := exists_route hb
    rw [List.filterMap_cons_some hroute]
    exact .cons hcomposes (ih hbs)

lemma covered_of_mem_routes {catalog : EndpointCatalog} {history : History} {route : Route}
    (hb : ∀ endpoint ∈ catalog.endpoints, Buildable history endpoint)
    (h : route ∈ history.routes catalog) : Covered history route.runtime := by
  obtain ⟨endpoint,he,hroute⟩ := List.mem_filterMap.mp h
  obtain ⟨route',hroute',-,hc⟩ := exists_route (hb endpoint he)
  obtain rfl := Option.some.inj (hroute.symm.trans hroute')
  exact hc

/-- The transforms that the builder holds are those of the history. -/
lemma transform_of_records {catalog : EndpointCatalog} {history : History}
    {builder : SoapRouterBuilder} (h : Records catalog history builder) (start : Axum.Router) :
    history.transform start = (do
      let router ← builder.routerAugmentations.foldlM (fun router augmentation => augmentation router)
        start
      builder.routerWrappers.foldlM (fun router wrapper => wrapper router) router) := by
  rw [History.transform,List.foldlM_append,h.routerAugmentations,h.routerWrappers]

/-- Building succeeds exactly if every endpoint is served once, the framework takes their routes and
every transform accepts the router. -/
theorem build_eq_ok {catalog : EndpointCatalog} {history : History} {builder : SoapRouterBuilder}
    {router : Axum.Router} (h : Records catalog history builder) :
    builder.build = .ok router ↔ (catalog.endpoints.map EndpointMetadata.id).Nodup ∧
      (∀ endpoint ∈ catalog.endpoints, Buildable history endpoint) ∧
      ∃ start, Route.mountAll (history.routes catalog) = some start ∧
        history.transform start = .ok router := by
  have hstart : catalog.endpoints.foldlM SoapRouterBuilder.addEndpoint (builder,Axum.new) =
      catalog.endpoints.foldlM SoapRouterBuilder.addEndpoint (builder.drained [],Axum.new) := by
    rw [drained_nil]
  rw [SoapRouterBuilder.build,h.catalog,hstart]
  constructor
  · intro hs
    split_ifs at hs
    obtain ⟨⟨next,start⟩,hloop,hs⟩ := Fallible.bind_eq_ok.mp hs
    obtain ⟨hn,-,hb,rfl,hmounted⟩ := (foldlM_addEndpoint_eq_ok h).mp hloop
    exact ⟨hn,hb,start,hmounted,(transform_of_records h start).trans hs⟩
  · rintro ⟨hn,hb,start,hmounted,hs⟩
    have hmissing : builder.missingBindings = [] := by
      rw [SoapRouterBuilder.missingBindings,h.catalog,List.filter_eq_nil_iff]
      intro endpoint he
      obtain ⟨binding,hone,-⟩ := hb endpoint he
      rw [← h.bindings] at hone
      cases hg : builder.bindings.get endpoint.id <;> simp [hg] at hone ⊢
    rw [hmissing,if_neg (by simp)]
    exact Fallible.bind_eq_ok.mpr ⟨_,(foldlM_addEndpoint_eq_ok h).mpr ⟨hn,by simp,hb,rfl,hmounted⟩,
      (transform_of_records h start).symm.trans hs⟩

/-- What the registrations promise of a build: it succeeds exactly if every endpoint is bound, supported
and covered and no transform refuses the router it is given, and then every route has the runtime that
the registrations for its endpoint compose in call order, those of a binding included, and all
augmentations come before all wrappers. -/
structure BuildsRegistrations (catalog : EndpointCatalog) (calls : List BuilderCall)
    (builder : SoapRouterBuilder) : Prop where
  ok_iff : (∃ router, builder.build = .ok router) ↔
    (∀ endpoint ∈ catalog.endpoints, Buildable (registered catalog calls) endpoint) ∧
      ∀ start, Route.mountAll ((registered catalog calls).routes catalog) = some start →
        ∃ router, (registered catalog calls).transform start = .ok router
  composes : ∀ router, builder.build = .ok router → ∃ routes start,
    List.Forall₂ (Composes (registered catalog calls)) catalog.endpoints routes ∧
      Route.mountAll routes = some start ∧ (registered catalog calls).transform start = .ok router
  bindings : ∀ target bindingCalls, EndpointBinding.assemble target bindingCalls =
    ⟨target,BindingCall.guards bindingCalls,BindingCall.middlewares bindingCalls,
      BindingCall.hooks bindingCalls⟩

/-- Whatever the interleaving of successful calls, a build keeps its promise exactly if the framework
takes the routes of the endpoints one after the other, unless some endpoint is not bound, not supported
or not covered. Where it does not take them, the build panics. -/
theorem build_composes_registrations (catalog : EndpointCatalog) (calls : List BuilderCall)
    (builder : SoapRouterBuilder) (hids : (catalog.endpoints.map EndpointMetadata.id).Nodup)
    (hcalls : configure catalog calls = .ok builder) :
    BuildsRegistrations catalog calls builder ↔
      ((∀ endpoint ∈ catalog.endpoints, Buildable (registered catalog calls) endpoint) →
        ∃ start, Route.mountAll ((registered catalog calls).routes catalog) = some start) := by
  have hok : ∀ router, builder.build = .ok router ↔ _ :=
    fun router => build_eq_ok (records_configure hcalls)
  constructor
  · intro h hb
    by_contra hclash
    obtain ⟨router,hrouter⟩ := h.ok_iff.mpr ⟨hb,fun start hstart => absurd ⟨start,hstart⟩ hclash⟩
    obtain ⟨-,-,start,hstart,-⟩ := (hok router).mp hrouter
    exact hclash ⟨start,hstart⟩
  · intro h
    refine ⟨⟨?_,?_⟩,?_,EndpointBinding.assemble_eq⟩
    · rintro ⟨router,hrouter⟩
      obtain ⟨-,hb,start,hstart,ht⟩ := (hok router).mp hrouter
      refine ⟨hb,fun start' hstart' => ⟨router,?_⟩⟩
      rwa [← Option.some.inj (hstart.symm.trans hstart')]
    · rintro ⟨hb,ht⟩
      obtain ⟨start,hstart⟩ := h hb
      obtain ⟨router,hrouter⟩ := ht start hstart
      exact ⟨router,(hok router).mpr ⟨hids,hb,start,hstart,hrouter⟩⟩
    · intro router hrouter
      obtain ⟨-,hb,start,hstart,ht⟩ := (hok router).mp hrouter
      exact ⟨_,start,forall₂_composes hb,hstart,ht⟩

end

section
local instance compositionPlatform : Platform := referencePlatform

/-- A path without the names of its parameters. -/
def shape : Bool → List Char → List Char
  | _,[] => []
  | inside,c :: path =>
    if c = '\x7b' then c :: shape true path
    else if c = '\x7d' then c :: shape false path
    else if inside then shape inside path
    else c :: shape inside path

/-- Two routes clash if they are for one method of one path, or for paths that differ only in the
names of their parameters. -/
def clashes (path path' : String) (method method' : Method) : Bool :=
  if path = path' then method = method'
  else shape false path.toList = shape false path'.toList

/-- A router that is the list of its routes, none of which clash. -/
@[reducible] def referenceAxum : Axum where
  Router := List (String × Method × EndpointRuntime)
  new := []
  route router path filter runtime :=
    if router.any fun mounted => clashes mounted.1 path mounted.2.1 filter then none
    else some (router ++ [(path,filter,runtime)])

local instance compositionAxum : Axum := referenceAxum

/-- Only signed-in readers of the right origin get the article. -/
def protectedEndpoint : EndpointMetadata :=
  { cachedEndpoint with requiredEnforcementCapabilities := [.authentication,.cors] }

def articleCatalog : EndpointCatalog := ⟨[protectedEndpoint]⟩

def signInGuard : EndpointGuard := ⟨[.authentication],fun head => .done (head,.ok ())⟩

def signInPlugin : RouterPlugin :=
  { name := "sign-in"
    install := fun _ => .call (.endpointGuard "article.get" signInGuard) fun _ =>
      .call (.routerEnforcementCapability .cors) fun _ => .finish (.ok ()) }

def articleBinding : EndpointBinding :=
  .assemble ⟨fun _ => .done (varyOutcome [])⟩ [.hook ()]

def articleCalls : List BuilderCall :=
  [.bind "article.get" articleBinding,.maxBodyBytes 1024,.plugin signInPlugin]

lemma registered_article : registered articleCatalog articleCalls =
    [.bind ⟨"article.get"⟩ articleBinding,.maxBodyBytes 1024,
      .endpointGuard ⟨"article.get"⟩ signInGuard,.routerEnforcementCapability .cors] := rfl

/-- The history of these calls covers what the article requires. -/
theorem buildable_article : ∀ endpoint ∈ articleCatalog.endpoints,
    Buildable (registered articleCatalog articleCalls) endpoint := by
  intro endpoint he
  obtain rfl := List.mem_singleton.mp he
  refine ⟨articleBinding,rfl,rfl,?_⟩
  intro capability hc
  rcases List.mem_pair.mp hc with rfl | rfl
  · exact Or.inr (Or.inr (.byGuard (by decide) signInGuard (List.mem_singleton_self _)
      (List.mem_singleton_self _)))
  · exact Or.inr (Or.inl (by simp [registered_article]))

theorem build_composes_registrations_article : ∃ builder,
    configure articleCatalog articleCalls = .ok builder ∧
    BuildsRegistrations articleCatalog articleCalls builder :=
  ⟨_,rfl,(build_composes_registrations articleCatalog articleCalls _ (by decide) rfl).mpr
    fun _ => ⟨_,rfl⟩⟩

/-- A user is read and written under paths that name their parameter differently. -/
def readUser : EndpointMetadata :=
  { cachedEndpoint with id := ⟨"user.get"⟩,path := "/users/\x7bid\x7d" }

def writeUser : EndpointMetadata :=
  { cachedEndpoint with
    id := ⟨"user.put"⟩
    method := ⟨"PUT"⟩
    path := "/users/\x7buser_id\x7d" }

def userCatalog : EndpointCatalog := ⟨[readUser,writeUser]⟩

def userCalls : List BuilderCall :=
  [.bind "user.get" articleBinding,.bind "user.put" articleBinding]

/-- Every user endpoint is bound, supported and covered, but the build panics. -/
theorem build_panics_on_clash : ∃ builder, configure userCatalog userCalls = .ok builder ∧
    (∀ endpoint ∈ userCatalog.endpoints, Buildable (registered userCatalog userCalls) endpoint) ∧
    builder.build = .error .panicked ∧ ¬ BuildsRegistrations userCatalog userCalls builder := by
  have hbuildable : ∀ endpoint ∈ userCatalog.endpoints,
      Buildable (registered userCatalog userCalls) endpoint := by
    intro endpoint he
    rcases List.mem_pair.mp he with rfl | rfl
    · exact ⟨articleBinding,rfl,rfl,by simp [Covered,History.runtime,readUser,cachedEndpoint]⟩
    · exact ⟨articleBinding,rfl,rfl,by simp [Covered,History.runtime,writeUser,cachedEndpoint]⟩
  refine ⟨_,rfl,hbuildable,rfl,fun h => ?_⟩
  obtain ⟨router,hrouter⟩ := h.ok_iff.mpr ⟨hbuildable,fun start hstart => by cases hstart⟩
  cases hrouter

end
end SoapAxum.Builder
