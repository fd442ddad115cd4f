import SoapAxum.Builder.Builder
import SoapAxum.Semantics.Fallible

/-! The builder is a summary of its history: whatever the interleaving of calls and of the plugins
they install, each of its fields says what the history says. -/
namespace SoapAxum.Builder
open SoapAxum.Http SoapAxum.Data SoapAxum.Semantics SoapAxum.Endpoint SoapAxum.Router

section
variable [Platform] [Axum]

/-- One registration that took effect, no matter through which surface. -/
inductive Registration where
  | guard (guard : EndpointGuard)
  | middleware (middleware : EndpointMiddleware)
  | hook (hook : Platform.EndpointHook)
  | bind (id : EndpointId) (binding : EndpointBinding)
  | endpointGuard (id : EndpointId) (guard : EndpointGuard)
  | endpointMiddleware (id : EndpointId) (middleware : EndpointMiddleware)
  | endpointHook (id : EndpointId) (hook : Platform.EndpointHook)
  | augmentRouter (augmentation : RouterTransform)
  | wrapRouter (wrapper : RouterTransform)
  | routerEnforcementCapability (capability : HttpEnforcementCapability)
  | allowUnenforced (id : EndpointId) (capability : HttpEnforcementCapability)
  | errorMapper (errorMapper : HttpErrorMapper)
  | maxBodyBytes (maxBodyBytes : ℕ)

/-- All registrations, in call order. -/
abbrev History := List Registration

def PluginCall.registration (catalog : EndpointCatalog) : PluginCall → SoapResult Registration
  | .guard g => .ok (.guard g)
  | .middleware m => .ok (.middleware m)
  | .hook h => .ok (.hook h)
  | .augmentRouter t => .ok (.augmentRouter t)
  | .wrapRouter t => .ok (.wrapRouter t)
  | .routerEnforcementCapability c => .ok (.routerEnforcementCapability c)
  | .endpointMiddleware endpointId m =>
    (requireEndpoint catalog endpointId).map (.endpointMiddleware · m)
  | .endpointGuard endpointId g => (requireEndpoint catalog endpointId).map (.endpointGuard · g)
  | .endpointHook endpointId h => (requireEndpoint catalog endpointId).map (.endpointHook · h)

/-- What a plugin registers. The calls that fail register nothing. -/
def Installation.registrations (catalog : EndpointCatalog) : Installation → History
  | .finish _ => []
  | .call request next => match request.registration catalog with
    | .ok registration => registration :: (next (.ok ())).registrations catalog
    | .error error => (next (.error error)).registrations catalog

/-- What a successful call on the builder registers. -/
def BuilderCall.registrations (catalog : EndpointCatalog) : BuilderCall → History
  | .guard g => [.guard g]
  | .bind endpointId binding =>
    (requireEndpoint catalog endpointId).toOption.toList.map (.bind · binding)
  | .middleware m => [.middleware m]
  | .hook h => [.hook h]
  | .plugin p => (p.install catalog).registrations catalog
  | .errorMapper mapper => [.errorMapper mapper]
  | .maxBodyBytes bytes => [.maxBodyBytes bytes]
  | .allowUnenforced endpointId capability =>
    (requireEndpoint catalog endpointId).toOption.toList.map (.allowUnenforced · capability)

def registered (catalog : EndpointCatalog) (calls : List BuilderCall) : History :=
  calls.flatMap (BuilderCall.registrations catalog)

namespace History

variable (history : History) (id : EndpointId)

def globalGuards : List EndpointGuard := history.filterMap fun
  | .guard g => some g
  | _ => none

def globalMiddleware : List EndpointMiddleware := history.filterMap fun
  | .middleware m => some m
  | _ => none

def globalHooks : List Platform.EndpointHook := history.filterMap fun
  | .hook h => some h
  | _ => none

def bindings : List EndpointBinding := history.filterMap fun
  | .bind j binding => if j = id then some binding else none
  | _ => none

def endpointGuards : List EndpointGuard := history.filterMap fun
  | .endpointGuard j g => if j = id then some g else none
  | _ => none

def endpointMiddleware : List EndpointMiddleware := history.filterMap fun
  | .endpointMiddleware j m => if j = id then some m else none
  | _ => none

def endpointHooks : List Platform.EndpointHook := history.filterMap fun
  | .endpointHook j h => if j = id then some h else none
  | _ => none

def augmentations : List RouterTransform := history.filterMap fun
  | .augmentRouter t => some t
  | _ => none

def wrappers : List RouterTransform := history.filterMap fun
  | .wrapRouter t => some t
  | _ => none

/-- The last mapper, or the default. -/
def errorMapper : HttpErrorMapper := (history.filterMap fun
  | .errorMapper mapper => some mapper
  | _ => none).getLast?.getD Platform.defaultErrorMapper

/-- The last body cap, or the default. -/
def maxBodyBytes : ℕ := (history.filterMap fun
  | .maxBodyBytes bytes => some bytes
  | _ => none).getLast?.getD defaultMaxBodyBytes

end History

/-- The fields of the builder say what the history says. -/
structure Records (catalog : EndpointCatalog) (history : History) (builder : SoapRouterBuilder) :
    Prop where
  catalog : builder.catalog = catalog
  globalGuards : builder.globalGuards = history.globalGuards
  globalMiddleware : builder.globalMiddleware = history.globalMiddleware
  globalHooks : builder.globalHooks = history.globalHooks
  bindings : ∀ id, (builder.bindings.get id).toList = history.bindings id
  endpointGuards : ∀ id, (builder.endpointGuards.get id).getD [] = history.endpointGuards id
  endpointMiddleware : ∀ id,
    (builder.endpointMiddleware.get id).getD [] = history.endpointMiddleware id
  endpointHooks : ∀ id, (builder.endpointHooks.get id).getD [] = history.endpointHooks id
  routerAugmentations : builder.routerAugmentations = history.augmentations
  routerWrappers : builder.routerWrappers = history.wrappers
  routerEnforcementCapabilities : ∀ capability, capability ∈ builder.routerEnforcementCapabilities ↔
    .routerEnforcementCapability capability ∈ history
  allowedUnenforcedCapabilities : ∀ id capability,
    capability ∈ (builder.allowedUnenforcedCapabilities.get id).getD ∅ ↔
      .allowUnenforced id capability ∈ history
  errorMapper : builder.errorMapper = history.errorMapper
  maxBodyBytes : builder.maxBodyBytes = history.maxBodyBytes

lemma records_new (catalog : EndpointCatalog) : Records catalog [] (.new catalog) := by
  constructor <;> simp [SoapRouterBuilder.new,History.globalGuards,History.globalMiddleware,
    History.globalHooks,History.bindings,History.endpointGuards,History.endpointMiddleware,
    History.endpointHooks,History.augmentations,History.wrappers,History.errorMapper,
    History.maxBodyBytes]

/-- What one registration does to the builder. -/
def SoapRouterBuilder.record (builder : SoapRouterBuilder) : Registration → SoapRouterBuilder
  | .guard g => { builder with globalGuards := builder.globalGuards ++ [g] }
  | .middleware m => { builder with globalMiddleware := builder.globalMiddleware ++ [m] }
  | .hook h => { builder with globalHooks := builder.globalHooks ++ [h] }
  | .bind id binding => { builder with bindings := builder.bindings.insert id binding }
  | .endpointGuard id g =>
    { builder with endpointGuards := builder.endpointGuards.modifyEntry id [] (· ++ [g]) }
  | .endpointMiddleware id m =>
    { builder with endpointMiddleware := builder.endpointMiddleware.modifyEntry id [] (· ++ [m]) }
  | .endpointHook id h =>
    { builder with endpointHooks := builder.endpointHooks.modifyEntry id [] (· ++ [h]) }
  | .augmentRouter t => { builder with routerAugmentations := builder.routerAugmentations ++ [t] }
  | .wrapRouter t => { builder with routerWrappers := builder.routerWrappers ++ [t] }
  | .routerEnforcementCapability c =>
    { builder with
      routerEnforcementCapabilities := insert c builder.routerEnforcementCapabilities }
  | .allowUnenforced id c =>
    { builder with
      allowedUnenforcedCapabilities :=
        builder.allowedUnenforcedCapabilities.modifyEntry id ∅ (insert c) }
  | .errorMapper errorMapper => { builder with errorMapper }
  | .maxBodyBytes maxBodyBytes => { builder with maxBodyBytes }

/-- One more registration is recorded, provided it binds no endpoint for a second time. -/
theorem Records.record {catalog : EndpointCatalog} {history : History} {builder : SoapRouterBuilder}
    (h : Records catalog history builder) (registration : Registration)
    (hfresh : ∀ id binding, registration = .bind id binding → builder.bindings.get id = none) :
    Records catalog (history ++ [registration]) (builder.record registration) where
  catalog := by cases registration <;> exact h.catalog
  globalGuards := by
    rw [History.globalGuards,List.filterMap_append,← History.globalGuards,← h.globalGuards]
    cases registration with
    | guard g => rfl
    | _ => exact (List.append_nil _).symm
  globalMiddleware := by
    rw [History.globalMiddleware,List.filterMap_append,← History.globalMiddleware,← h.globalMiddleware]
    cases registration with
    | middleware m => rfl
    | _ => exact (List.append_nil _).symm
  globalHooks := by
    rw [History.globalHooks,List.filterMap_append,← History.globalHooks,← h.globalHooks]
    cases registration with
    | hook _ => rfl
    | _ => exact (List.append_nil _).symm
  bindings id := by
    rw [History.bindings,List.filterMap_append,← History.bindings,← h.bindings]
    cases registration with
    | bind j binding =>
      change ((builder.bindings.insert j binding).get id).toList = _
      rw [HashMap.get_insert]
      by_cases hj : id = j
      · subst hj
        simp [hfresh id binding rfl]
      · simp [hj,Ne.symm hj]
    | _ => exact (List.append_nil _).symm
  endpointGuards id := by
    rw [History.endpointGuards,List.filterMap_append,← History.endpointGuards,← h.endpointGuards]
    cases registration with
    | endpointGuard j g =>
      change ((builder.endpointGuards.modifyEntry j [] (· ++ [g])).get id).getD [] = _
      rw [HashMap.getD_modifyEntry_append]
      by_cases hj : j = id <;> simp [hj]
    | _ => exact (List.append_nil _).symm
  endpointMiddleware id := by
    rw [History.endpointMiddleware,List.filterMap_append,← History.endpointMiddleware,← h.endpointMiddleware]
    cases registration with
    | endpointMiddleware j m =>
      change ((builder.endpointMiddleware.modifyEntry j [] (· ++ [m])).get id).getD [] = _
      rw [HashMap.getD_modifyEntry_append]
      by_cases hj : j = id <;> simp [hj]
    | _ => exact (List.append_nil _).symm
  endpointHooks id := by
    rw [History.endpointHooks,List.filterMap_append,← History.endpointHooks,← h.endpointHooks]
    cases registration with
    | endpointHook j hook =>
      change ((builder.endpointHooks.modifyEntry j [] (· ++ [hook])).get id).getD [] = _
      rw [HashMap.getD_modifyEntry_append]
      by_cases hj : j = id <;> simp [hj]
    | _ => exact (List.append_nil _).symm
  routerAugmentations := by
    rw [History.augmentations,List.filterMap_append,← History.augmentations,← h.routerAugmentations]
    cases registration with
    | augmentRouter _ => rfl
    | _ => exact (List.append_nil _).symm
  routerWrappers := by
    rw [History.wrappers,List.filterMap_append,← History.wrappers,← h.routerWrappers]
    cases registration with
    | wrapRouter _ => rfl
    | _ => exact (List.append_nil _).symm
  routerEnforcementCapabilities capability := by
    rw [List.mem_append,← h.routerEnforcementCapabilities,List.mem_singleton]
    cases registration with
    | routerEnforcementCapability c =>
      change capability ∈ insert c builder.routerEnforcementCapabilities ↔ _
      simp [or_comm]
    | _ => exact (or_iff_left nofun).symm
  allowedUnenforcedCapabilities id capability := by
    rw [List.mem_append,← h.allowedUnenforcedCapabilities,List.mem_singleton]
    cases registration with
    | allowUnenforced j c =>
      change capability ∈ ((builder.allowedUnenforcedCapabilities.modifyEntry j ∅ (insert c)).get
        id).getD ∅ ↔ _
      rw [HashMap.getD_modifyEntry]
      by_cases hj : id = j
      · simp [hj,or_comm]
      · simp [hj]
    | _ => exact (or_iff_left nofun).symm
  errorMapper := by
    rw [History.errorMapper,List.filterMap_append]
    cases registration with
    | errorMapper mapper => simp [SoapRouterBuilder.record]
    | _ => exact h.errorMapper.trans (congrArg (·.getLast?.getD Platform.defaultErrorMapper)
        (List.append_nil _).symm)
  maxBodyBytes := by
    rw [History.maxBodyBytes,List.filterMap_append]
    cases registration with
    | maxBodyBytes bytes => simp [SoapRouterBuilder.record]
    | _ => exact h.maxBodyBytes.trans (congrArg (·.getLast?.getD defaultMaxBodyBytes)
        (List.append_nil _).symm)

/-- A call of a plugin either registers something or fails for want of the endpoint. -/
theorem perform_pluginCall (builder : SoapRouterBuilder) (call : PluginCall) :
    builder.toPluginContext.perform call = (call.registration builder.catalog).map fun registration =>
      (builder.record registration).toPluginContext := by
  cases call with
  | endpointMiddleware endpointId _ | endpointGuard endpointId _ | endpointHook endpointId _ =>
    simp only [PluginContext.perform,PluginContext.addEndpointMiddleware,
      PluginContext.addEndpointGuard,PluginContext.addEndpointHook,PluginCall.registration]
    cases requireEndpoint builder.catalog endpointId <;> rfl
  | _ => rfl

/-- A plugin cannot reach the fields of the builder outside its context, and so binds nothing. -/
theorem record_of_pluginCall (builder : SoapRouterBuilder) {catalog : EndpointCatalog}
    {call : PluginCall} {registration : Registration}
    (h : call.registration catalog = .ok registration) :
    { builder with toPluginContext := (builder.record registration).toPluginContext } =
      builder.record registration ∧ ∀ id binding, registration ≠ .bind id binding := by
  cases call with
  | endpointMiddleware endpointId _ | endpointGuard endpointId _ | endpointHook endpointId _ =>
    rw [PluginCall.registration] at h
    cases hid : requireEndpoint catalog endpointId with
    | error error =>
      rw [hid] at h
      contradiction
    | ok id =>
      rw [hid] at h
      obtain rfl := Except.ok.inj h
      exact ⟨rfl,nofun⟩
  | _ =>
    cases h
    exact ⟨rfl,nofun⟩

theorem Records.run {catalog : EndpointCatalog} {installation : Installation} {history : History}
    {builder : SoapRouterBuilder} {result : SoapResult Unit} {context : PluginContext}
    (h : Records catalog history builder)
    (hrun : installation.run builder.toPluginContext = (result,context)) :
    Records catalog (history ++ installation.registrations catalog)
      { builder with toPluginContext := context } := by
  induction installation generalizing history builder with
  | finish finished =>
    obtain ⟨-,rfl⟩ := Prod.mk.inj hrun
    rwa [Installation.registrations,List.append_nil]
  | call request next ih =>
    rw [Installation.run,perform_pluginCall,h.catalog] at hrun
    rw [Installation.registrations]
    cases hr : request.registration catalog with
    | error error =>
      rw [hr] at hrun
      exact ih _ h hrun
    | ok registration =>
      rw [hr] at hrun
      obtain ⟨hcontext,hbind⟩ := record_of_pluginCall builder hr
      have hnext := h.record registration fun id binding he => absurd he (hbind id binding)
      rw [← hcontext] at hnext
      have hdone := ih _ hnext hrun
      rwa [List.append_assoc] at hdone

/-- Every successful call is recorded. -/
theorem Records.perform {catalog : EndpointCatalog} {history : History}
    {builder builder' : SoapRouterBuilder} {call : BuilderCall}
    (h : Records catalog history builder) (hcall : builder.perform call = .ok builder') :
    Records catalog (history ++ call.registrations catalog) builder' := by
  cases call with
  | guard g => exact Except.ok.inj hcall ▸ h.record (.guard g) (by simp)
  | middleware m => exact Except.ok.inj hcall ▸ h.record (.middleware m) (by simp)
  | hook hook => exact Except.ok.inj hcall ▸ h.record (.hook hook) (by simp)
  | errorMapper mapper => exact Except.ok.inj hcall ▸ h.record (.errorMapper mapper) (by simp)
  | maxBodyBytes bytes =>
    rw [SoapRouterBuilder.perform,SoapRouterBuilder.setMaxBodyBytes] at hcall
    split_ifs at hcall
    exact Except.ok.inj hcall ▸ h.record (.maxBodyBytes bytes) (by simp)
  | allowUnenforced endpointId capability =>
    rw [SoapRouterBuilder.perform,SoapRouterBuilder.allowUnenforced,h.catalog] at hcall
    obtain ⟨id,hid,hcall⟩ := Fallible.bind_eq_ok.mp hcall
    rw [BuilderCall.registrations,hid]
    exact Except.ok.inj hcall ▸ h.record (.allowUnenforced id capability) (by simp)
  | bind endpointId binding =>
    rw [SoapRouterBuilder.perform,SoapRouterBuilder.bind,h.catalog] at hcall
    obtain ⟨id,hid,hcall⟩ := Fallible.bind_eq_ok.mp hcall
    rw [BuilderCall.registrations,hid]
    split_ifs at hcall with hbound
    refine Except.ok.inj hcall ▸ h.record (.bind id binding) ?_
    rintro _ _ ⟨⟩
    simpa using hbound
  | plugin p =>
    rw [SoapRouterBuilder.perform,SoapRouterBuilder.plugin] at hcall
    split_ifs at hcall
    rw [h.catalog] at hcall
    cases hrun : (p.install catalog).run builder.toPluginContext with
    | mk result context =>
      rw [hrun] at hcall
      cases result with
      | error error => contradiction
      | ok u =>
        obtain rfl := Except.ok.inj hcall
        exact { h.run hrun with }

/-- The history of all calls describes the builder they lead to. -/
theorem records_configure {catalog : EndpointCatalog} {calls : List BuilderCall}
    {builder : SoapRouterBuilder} (h : configure catalog calls = .ok builder) :
    Records catalog (registered catalog calls) builder :=
  Fallible.foldlM_log (fun _ _ _ _ hr hc => hr.perform hc) (records_new catalog) h

end
end SoapAxum.Builder
