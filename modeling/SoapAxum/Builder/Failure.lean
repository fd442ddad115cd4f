import SoapAxum.Builder.Composition

/-! Why a router cannot be built: what is wrong with the registrations is found before any transform
is applied, and the error names it in full. Only a route that the framework does not take gives no
error. -/
namespace SoapAxum.Builder
open SoapAxum.Http SoapAxum.Data SoapAxum.Semantics SoapAxum.Endpoint SoapAxum.Router

section
variable [Platform] [Axum]

/-- The capability is opted out for this very endpoint, or it is provided. -/
def CoveredBy (history : History) (runtime : EndpointRuntime)
    (capability : HttpEnforcementCapability) : Prop :=
  .allowUnenforced runtime.endpoint.id capability ∈ history ∨
    .routerEnforcementCapability capability ∈ history ∨ ProvidedInPhase runtime capability

namespace History

/-- The endpoints without a binding, in catalog order. -/
def unbound (history : History) (catalog : EndpointCatalog) : List EndpointMetadata :=
  catalog.endpoints.filter fun endpoint => (history.bindings endpoint.id).isEmpty

open Classical in
/-- The required capabilities that nothing covers, in the order of the contract. -/
noncomputable def uncovered (history : History) (runtime : EndpointRuntime) :
    List HttpEnforcementCapability :=
  runtime.endpoint.requiredEnforcementCapabilities.filter fun capability =>
    ¬ CoveredBy history runtime capability

end History

def missingBindingsError (endpoints : List EndpointMetadata) : SoapError :=
  .validation ("missing endpoint bindings: " ++ ", ".intercalate (endpoints.map (·.id.value)))

def missingCapabilitiesError (endpoint : EndpointMetadata)
    (missing : List HttpEnforcementCapability) : SoapError :=
  .validation ("endpoint `" ++ endpoint.id.value ++
    "` requires missing HTTP enforcement capabilities: " ++
    ", ".intercalate (missing.map Platform.capabilityName))

/-- Why a bound endpoint is not served after those in `done`. -/
inductive Unservable (history : History) (done : List EndpointId) (endpoint : EndpointMetadata) :
    SoapError → Prop
  | servedBefore (member : endpoint.id ∈ done) : Unservable history done endpoint
      (.infrastructure "validated endpoint binding disappeared during router construction")
  | unsupported (fresh : endpoint.id ∉ done) (method : Platform.methodFilter endpoint.method = none) :
      Unservable history done endpoint
        (.unsupported ("Axum does not support endpoint method `" ++ endpoint.method.name ++ "`"))
  | uncovered (binding : EndpointBinding) (fresh : endpoint.id ∉ done)
      (bound : history.bindings endpoint.id = [binding])
      (method : (Platform.methodFilter endpoint.method).isSome)
      (missing : history.uncovered (history.runtime endpoint binding) ≠ []) :
      Unservable history done endpoint
        (missingCapabilitiesError endpoint (history.uncovered (history.runtime endpoint binding)))

/-- How the pass over a bound endpoint stops after those in `done`: it is not served, or the framework
does not take its route behind those that `router` already has. -/
inductive Stops (history : History) (done : List EndpointId) (router : Axum.Router)
    (endpoint : EndpointMetadata) : Stop → Prop
  | unservable (error : SoapError) (refused : Unservable history done endpoint error) :
      Stops history done router endpoint (.returned error)
  | clash (route : Route) (fresh : endpoint.id ∉ done) (served : Buildable history endpoint)
      (routed : history.route endpoint = some route) (clash : route.mount router = none) :
      Stops history done router endpoint .panicked

/-- Why building fails: endpoints are not bound, or the first of them that cannot be served behind the
routes of those before it, or a transform, once all of them are served. -/
inductive BuildFails (catalog : EndpointCatalog) (history : History) : Stop → Prop
  | unbound (missing : history.unbound catalog ≠ []) :
      BuildFails catalog history (.returned (missingBindingsError (history.unbound catalog)))
  | endpoint (before after : List EndpointMetadata) (endpoint : EndpointMetadata)
      (router : Axum.Router) (stop : Stop) (bound : history.unbound catalog = [])
      (split : catalog.endpoints = before ++ endpoint :: after)
      (distinct : (before.map EndpointMetadata.id).Nodup)
      (served : ∀ earlier ∈ before, Buildable history earlier)
      (mounted : Route.mountAll (before.filterMap history.route) = some router)
      (stops : Stops history (before.map EndpointMetadata.id) router endpoint stop) :
      BuildFails catalog history stop
  | transform (start : Axum.Router) (stop : Stop)
      (distinct : (catalog.endpoints.map EndpointMetadata.id).Nodup)
      (served : ∀ endpoint ∈ catalog.endpoints, Buildable history endpoint)
      (mounted : Route.mountAll (history.routes catalog) = some start)
      (refused : history.transform start = .error stop) : BuildFails catalog history stop

lemma Unservable.congr {history : History} {done done' : List EndpointId}
    {endpoint : EndpointMetadata} {error : SoapError} (h : Unservable history done endpoint error)
    (hdone : ∀ id, id ∈ done ↔ id ∈ done') : Unservable history done' endpoint error := by
  cases h with
  | servedBefore member => exact .servedBefore ((hdone _).mp member)
  | unsupported fresh method => exact .unsupported (mt (hdone _).mpr fresh) method
  | uncovered binding fresh bound method missing =>
    exact .uncovered binding (mt (hdone _).mpr fresh) bound method missing

lemma Stops.congr {history : History} {done done' : List EndpointId} {router : Axum.Router}
    {endpoint : EndpointMetadata} {stop : Stop} (h : Stops history done router endpoint stop)
    (hdone : ∀ id, id ∈ done ↔ id ∈ done') : Stops history done' router endpoint stop := by
  cases h with
  | unservable error refused => exact .unservable error (refused.congr hdone)
  | clash route fresh served routed clash =>
    exact .clash route (mt (hdone _).mpr fresh) served routed clash

variable {catalog : EndpointCatalog} {history : History} {builder : SoapRouterBuilder}

open Classical in
/-- What the builder finds missing is what the history does not cover. -/
theorem missingCapabilities_eq (runtime : EndpointRuntime) (h : Records catalog history builder) :
    missingCapabilities runtime.endpoint runtime.guards runtime.middleware
      builder.routerEnforcementCapabilities
      (builder.allowedUnenforcedCapabilities.get runtime.endpoint.id) = history.uncovered runtime := by
  rw [missingCapabilities,History.uncovered]
  refine List.filter_congr fun capability _ => ?_
  rw [Bool.eq_iff_iff,decide_eq_true_eq,CoveredBy,← h.allowedUnenforcedCapabilities,
    ← h.routerEnforcementCapabilities,← providedAtEndpoint_iff]
  cases builder.allowedUnenforcedCapabilities.get runtime.endpoint.id with
  | none => simp
  | some allowed => by_cases ha : capability ∈ allowed <;> simp [ha]

lemma missingBindings_eq (h : Records catalog history builder) :
    builder.missingBindings = history.unbound catalog := by
  rw [SoapRouterBuilder.missingBindings,History.unbound,h.catalog]
  refine List.filter_congr fun endpoint _ => ?_
  rw [← h.bindings]
  cases builder.bindings.get endpoint.id <;> rfl

theorem validateEnforcementCoverage_eq_error {error : SoapError} (runtime : EndpointRuntime)
    (h : Records catalog history builder) :
    validateEnforcementCoverage runtime.endpoint runtime.guards runtime.middleware
        builder.routerEnforcementCapabilities
        (builder.allowedUnenforcedCapabilities.get runtime.endpoint.id) = .error error ↔
      history.uncovered runtime ≠ [] ∧
        error = missingCapabilitiesError runtime.endpoint (history.uncovered runtime) := by
  rw [validateEnforcementCoverage,missingCapabilities_eq runtime h]
  cases history.uncovered runtime with
  | nil => exact iff_of_false Fallible.ok_ne_error fun hn => hn.1 rfl
  | cons first rest =>
    constructor
    · intro he
      exact ⟨List.cons_ne_nil _ _,(Except.error.inj he).symm⟩
    · rintro ⟨-,rfl⟩
      rfl

/-- A bound and supported endpoint stops the pass for what it requires, or else for its route. -/
theorem stops_iff {ids : List EndpointId} {router : Axum.Router} {endpoint : EndpointMetadata}
    {stop : Stop} {binding : EndpointBinding} {filter : Platform.MethodFilter}
    (hid : endpoint.id ∉ ids) (hone : history.bindings endpoint.id = [binding])
    (hf : Platform.methodFilter endpoint.method = some filter) :
    let route : Route := ⟨endpoint.path,filter,history.runtime endpoint binding⟩
    Stops history ids router endpoint stop ↔
      (history.uncovered route.runtime ≠ [] ∧
        stop = .returned (missingCapabilitiesError endpoint (history.uncovered route.runtime))) ∨
      (Covered history route.runtime ∧ route.mount router = none ∧ stop = .panicked) := by
  have hsome : (Platform.methodFilter endpoint.method).isSome := by simp [hf]
  constructor
  · intro hs
    cases hs with
    | unservable error refused =>
      cases refused with
      | servedBefore member => exact absurd member hid
      | unsupported _ method => cases hf.symm.trans method
      | uncovered binding' _ bound _ missing =>
        obtain rfl := List.singleton_inj.mp (hone.symm.trans bound)
        exact Or.inl ⟨missing,rfl⟩
    | clash route _ served routed clash =>
      obtain rfl := Option.some.inj ((route_of_bound hone hf).symm.trans routed)
      exact Or.inr ⟨(buildable_iff_covered hone hf).mp served,clash,rfl⟩
  · rintro (⟨missing,rfl⟩ | ⟨covered,clash,rfl⟩)
    · exact .unservable _ (.uncovered binding hid hone hsome missing)
    · exact .clash _ hid ⟨binding,hone,hsome,covered⟩ (route_of_bound hone hf) clash

/-- A pass over a bound endpoint stops for one of the reasons. -/
theorem addEndpoint_eq_error {ids : List EndpointId} {router : Axum.Router}
    {endpoint : EndpointMetadata} {stop : Stop} (h : Records catalog history builder)
    (hbound : history.bindings endpoint.id ≠ []) :
    SoapRouterBuilder.addEndpoint (builder.drained ids,router) endpoint = .error stop ↔
      Stops history ids router endpoint stop := by
  by_cases hid : endpoint.id ∈ ids
  · rw [addEndpoint_of_served hid]
    constructor
    · intro he
      exact Except.error.inj he ▸ .unservable _ (.servedBefore hid)
    · rintro (⟨error,_ | fresh | ⟨_,fresh⟩⟩ | ⟨_,fresh⟩)
      · rfl
      · exact absurd hid fresh
      · exact absurd hid fresh
      · exact absurd hid fresh
  cases hb : builder.bindings.get endpoint.id with
  | none =>
    rw [← h.bindings,hb] at hbound
    exact absurd rfl hbound
  | some binding =>
    have hone := h.bindings endpoint.id
    rw [hb,Option.toList_some] at hone
    cases hf : Platform.methodFilter endpoint.method with
    | none =>
      rw [addEndpoint_of_unsupported hid hb hf]
      constructor
      · intro he
        exact Except.error.inj he ▸ .unservable _ (.unsupported hid hf)
      · rintro (⟨error,member | _ | ⟨_,_,_,method⟩⟩ | ⟨_,_,⟨_,_,method,_⟩⟩)
        · exact absurd member hid
        · rfl
        · simp [hf] at method
        · simp [hf] at method
    | some filter =>
      rw [addEndpoint_of_bound h hid hb hf,Fallible.bind_eq_error]
      refine (or_congr ?_ ?_).trans (stops_iff hid hone.symm hf).symm
      · rw [Fallible.mapError_eq_error]
        constructor
        · rintro ⟨error,hrefused,rfl⟩
          obtain ⟨missing,rfl⟩ := (validateEnforcementCoverage_eq_error _ h).mp hrefused
          exact ⟨missing,rfl⟩
        · rintro ⟨missing,rfl⟩
          exact ⟨_,(validateEnforcementCoverage_eq_error _ h).mpr ⟨missing,rfl⟩,rfl⟩
      · rw [← validateEnforcementCoverage_eq_ok _ h]
        constructor
        · rintro ⟨u,hv,he⟩
          exact ⟨Fallible.mapError_eq_ok.mp hv,
            orPanic_eq_error.mp (Fallible.bind_ok_eq_error.mp he)⟩
        · rintro ⟨hv,hpanic⟩
          exact ⟨(),Fallible.mapError_eq_ok.mpr hv,
            Fallible.bind_ok_eq_error.mpr (orPanic_eq_error.mpr hpanic)⟩

/-- The loop stops at the first endpoint that cannot be served. -/
theorem foldlM_addEndpoint_eq_error {endpoints : List EndpointMetadata} {stop : Stop}
    (h : Records catalog history builder)
    (hbound : ∀ endpoint ∈ endpoints, history.bindings endpoint.id ≠ []) :
    endpoints.foldlM SoapRouterBuilder.addEndpoint (builder,Axum.new) = .error stop ↔
      ∃ before endpoint after router, endpoints = before ++ endpoint :: after ∧
        (before.map EndpointMetadata.id).Nodup ∧ (∀ earlier ∈ before, Buildable history earlier) ∧
        Route.mountAll (before.filterMap history.route) = some router ∧
        Stops history (before.map EndpointMetadata.id) router endpoint stop := by
  have hstart : (builder,Axum.new) = (builder.drained [],Axum.new) := by rw [drained_nil]
  have hdone : ∀ (before : List EndpointMetadata) (id : EndpointId),
      id ∈ (before.map EndpointMetadata.id).reverse ++ [] ↔ id ∈ before.map EndpointMetadata.id := by
    intro before id
    rw [List.append_nil,List.mem_reverse]
  rw [Fallible.foldlM_eq_error,hstart]
  constructor
  · rintro ⟨before,endpoint,after,⟨next,router⟩,rfl,hmid,hstop⟩
    obtain ⟨hn,-,hb,rfl,hmounted⟩ := (foldlM_addEndpoint_eq_ok h).mp hmid
    have hone := hbound endpoint (by simp)
    have hstops := ((addEndpoint_eq_error h hone).mp hstop).congr (hdone before)
    exact ⟨before,endpoint,after,router,rfl,hn,hb,hmounted,hstops⟩
  · rintro ⟨before,endpoint,after,router,rfl,hn,hb,hmounted,hstops⟩
    have hone := hbound endpoint (by simp)
    refine ⟨before,endpoint,after,_,rfl,
      (foldlM_addEndpoint_eq_ok h).mpr ⟨hn,by simp,hb,rfl,hmounted⟩,?_⟩
    exact (addEndpoint_eq_error h hone).mpr (hstops.congr fun id => (hdone before id).symm)

lemma unbound_eq_nil : history.unbound catalog = [] ↔
    ∀ endpoint ∈ catalog.endpoints, history.bindings endpoint.id ≠ [] := by
  simp [History.unbound,List.filter_eq_nil_iff]

theorem build_eq_error {stop : Stop} (h : Records catalog history builder) :
    builder.build = .error stop ↔ BuildFails catalog history stop := by
  rw [SoapRouterBuilder.build,missingBindings_eq h,h.catalog]
  cases hmissing : history.unbound catalog with
  | cons first rest =>
    constructor
    · intro he
      rw [← Except.error.inj he]
      change BuildFails catalog history (.returned (missingBindingsError (first :: rest)))
      rw [← hmissing]
      exact .unbound (by simp [hmissing])
    · intro hf
      cases hf with
      | unbound =>
        rw [hmissing]
        rfl
      | endpoint _ _ _ _ _ bound => cases hmissing.symm.trans bound
      | transform _ _ _ served =>
        have hbound : ∀ endpoint ∈ catalog.endpoints, history.bindings endpoint.id ≠ [] := by
          intro endpoint he
          obtain ⟨binding,hone,-⟩ := served endpoint he
          simp [hone]
        have hnone := unbound_eq_nil.mpr hbound
        cases hmissing.symm.trans hnone
  | nil =>
    have hbound := unbound_eq_nil.mp hmissing
    have hstops : ∀ s, catalog.endpoints.foldlM SoapRouterBuilder.addEndpoint (builder,Axum.new) =
        .error s ↔ _ := fun s => foldlM_addEndpoint_eq_error h hbound
    have hstart : (builder,Axum.new) = (builder.drained [],Axum.new) := by rw [drained_nil]
    rw [if_neg (by simp),Fallible.bind_eq_error]
    constructor
    · rintro (hloop | ⟨⟨next,start⟩,hloop,he⟩)
      · obtain ⟨before,endpoint,after,router,hsplit,hn,hb,hmounted,hs⟩ := (hstops stop).mp hloop
        exact .endpoint before after endpoint router stop hmissing hsplit hn hb hmounted hs
      · rw [hstart] at hloop
        obtain ⟨hn,-,hb,rfl,hmounted⟩ := (foldlM_addEndpoint_eq_ok h).mp hloop
        exact .transform start stop hn hb hmounted ((transform_of_records h start).trans he)
    · intro hf
      cases hf with
      | unbound missing => exact absurd hmissing missing
      | endpoint before after endpoint router _ _ split distinct served mounted stops =>
        exact Or.inl ((hstops stop).mpr
          ⟨before,endpoint,after,router,split,distinct,served,mounted,stops⟩)
      | transform start _ distinct served mounted refused =>
        have hnew : ∀ endpoint ∈ catalog.endpoints, endpoint.id ∉ [] := by simp
        rw [hstart]
        exact Or.inr ⟨_,(foldlM_addEndpoint_eq_ok h).mpr ⟨distinct,hnew,served,rfl,mounted⟩,
          (transform_of_records h start).symm.trans refused⟩

/-- Building fails exactly for one of these reasons: endpoints have no binding, or some first endpoint in
catalog order cannot be served, for its method or for what it requires, or the framework does not take
its route, or a transform does not accept the router of all routes. The error names what is wrong, and
a route that is not taken makes the build panic. -/
theorem build_fails_iff (catalog : EndpointCatalog) (calls : List BuilderCall)
    (builder : SoapRouterBuilder) (stop : Stop)
    (hcalls : configure catalog calls = .ok builder) :
    builder.build = .error stop ↔ BuildFails catalog (registered catalog calls) stop :=
  build_eq_error (records_configure hcalls)

end
section
local instance failurePlatform : Platform := referencePlatform
local instance failureAxum : Axum := referenceAxum

/-- Sign-in alone does not cover the origin of the readers. -/
def uncoveredCalls : List BuilderCall :=
  [.bind "article.get" articleBinding,.plugin
    { name := "sign-in"
      install := fun _ => .call (.endpointGuard "article.get" signInGuard) fun _ => .finish (.ok ()) }]

/-- What nothing provides is named, and a clash of two routes is a reason of its own. -/
theorem build_fails_iff_article :
    BuildFails articleCatalog (registered articleCatalog uncoveredCalls)
        (.returned (missingCapabilitiesError protectedEndpoint [.cors])) ∧
      BuildFails userCatalog (registered userCatalog userCalls) .panicked :=
  ⟨(build_fails_iff articleCatalog uncoveredCalls _ _ rfl).mp rfl,
    (build_fails_iff userCatalog userCalls _ _ rfl).mp rfl⟩

end
end SoapAxum.Builder
