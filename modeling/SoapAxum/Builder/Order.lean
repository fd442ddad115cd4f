import SoapAxum.Builder.Calls
import SoapAxum.Builder.Failure

/-! The order of registrations matters within one slot of the builder only, and that of the calls for
nothing else. -/
namespace SoapAxum.Builder
open SoapAxum.Http SoapAxum.Data SoapAxum.Semantics SoapAxum.Endpoint SoapAxum.Router

/-- Where a registration goes. -/
inductive Slot where
  | guard
  | middleware
  | hook
  | bind (id : EndpointId)
  | endpointGuard (id : EndpointId)
  | endpointMiddleware (id : EndpointId)
  | endpointHook (id : EndpointId)
  | augmentRouter
  | wrapRouter
  | routerEnforcementCapability (capability : HttpEnforcementCapability)
  | allowUnenforced (id : EndpointId) (capability : HttpEnforcementCapability)
  | errorMapper
  | maxBodyBytes
  deriving DecidableEq

section
variable [Platform] [Axum]

def Registration.slot : Registration → Slot
  | .guard _ => .guard
  | .middleware _ => .middleware
  | .hook _ => .hook
  | .bind id _ => .bind id
  | .endpointGuard id _ => .endpointGuard id
  | .endpointMiddleware id _ => .endpointMiddleware id
  | .endpointHook id _ => .endpointHook id
  | .augmentRouter _ => .augmentRouter
  | .wrapRouter _ => .wrapRouter
  | .routerEnforcementCapability capability => .routerEnforcementCapability capability
  | .allowUnenforced id capability => .allowUnenforced id capability
  | .errorMapper _ => .errorMapper
  | .maxBodyBytes _ => .maxBodyBytes

def History.inSlot (history : History) (slot : Slot) : History :=
  history.filter fun registration => registration.slot = slot

/-- Every slot has got the same, in the same order. -/
def SameInEverySlot (history history' : History) : Prop :=
  ∀ slot, history.inSlot slot = history'.inSlot slot

lemma inSlot_append (history history' : History) (slot : Slot) :
    History.inSlot (history ++ history') slot = history.inSlot slot ++ history'.inSlot slot :=
  List.filter_append ..

/-- What reads a single slot does not see the rest of the history. -/
theorem filterMap_inSlot {α : Type} {f : Registration → Option α} {slot : Slot}
    (hf : ∀ registration, registration.slot ≠ slot → f registration = none) (history : History) :
    (history.inSlot slot).filterMap f = history.filterMap f := by
  rw [History.inSlot,List.filterMap_filter]
  refine List.filterMap_congr fun registration _ => ?_
  by_cases hs : registration.slot = slot
  · rw [if_pos (decide_eq_true hs)]
  · rw [if_neg (by simpa using hs),hf registration hs]

lemma mem_inSlot {history : History} {registration : Registration} :
    registration ∈ history ↔ registration ∈ history.inSlot registration.slot := by
  simp [History.inSlot]

namespace SameInEverySlot

variable {history history' : History}

lemma filterMap_eq {α : Type} {f : Registration → Option α} (h : SameInEverySlot history history')
    (slot : Slot) (hf : ∀ registration, registration.slot ≠ slot → f registration = none) :
    history.filterMap f = history'.filterMap f := by
  rw [← filterMap_inSlot hf,h slot,filterMap_inSlot hf]

lemma mem_iff (h : SameInEverySlot history history') (registration : Registration) :
    registration ∈ history ↔ registration ∈ history' := by
  rw [mem_inSlot,h,← mem_inSlot]

lemma symm (h : SameInEverySlot history history') : SameInEverySlot history' history :=
  fun slot => (h slot).symm

lemma bindings_eq (h : SameInEverySlot history history') (id : EndpointId) :
    history.bindings id = history'.bindings id := by
  refine h.filterMap_eq (.bind id) fun registration hs => ?_
  cases registration with
  | bind j _ => exact if_neg fun hj => hs (congrArg Slot.bind hj)
  | _ => rfl

lemma globalGuards_eq (h : SameInEverySlot history history') :
    history.globalGuards = history'.globalGuards := by
  refine h.filterMap_eq .guard fun registration hs => ?_
  cases registration with
  | guard _ => exact absurd rfl hs
  | _ => rfl

lemma globalMiddleware_eq (h : SameInEverySlot history history') :
    history.globalMiddleware = history'.globalMiddleware := by
  refine h.filterMap_eq .middleware fun registration hs => ?_
  cases registration with
  | middleware _ => exact absurd rfl hs
  | _ => rfl

lemma globalHooks_eq (h : SameInEverySlot history history') :
    history.globalHooks = history'.globalHooks := by
  refine h.filterMap_eq .hook fun registration hs => ?_
  cases registration with
  | hook _ => exact absurd rfl hs
  | _ => rfl

lemma endpointGuards_eq (h : SameInEverySlot history history') (id : EndpointId) :
    history.endpointGuards id = history'.endpointGuards id := by
  refine h.filterMap_eq (.endpointGuard id) fun registration hs => ?_
  cases registration with
  | endpointGuard j _ => exact if_neg fun hj => hs (congrArg Slot.endpointGuard hj)
  | _ => rfl

lemma endpointMiddleware_eq (h : SameInEverySlot history history') (id : EndpointId) :
    history.endpointMiddleware id = history'.endpointMiddleware id := by
  refine h.filterMap_eq (.endpointMiddleware id) fun registration hs => ?_
  cases registration with
  | endpointMiddleware j _ => exact if_neg fun hj => hs (congrArg Slot.endpointMiddleware hj)
  | _ => rfl

lemma endpointHooks_eq (h : SameInEverySlot history history') (id : EndpointId) :
    history.endpointHooks id = history'.endpointHooks id := by
  refine h.filterMap_eq (.endpointHook id) fun registration hs => ?_
  cases registration with
  | endpointHook j _ => exact if_neg fun hj => hs (congrArg Slot.endpointHook hj)
  | _ => rfl

lemma augmentations_eq (h : SameInEverySlot history history') :
    history.augmentations = history'.augmentations := by
  refine h.filterMap_eq .augmentRouter fun registration hs => ?_
  cases registration with
  | augmentRouter _ => exact absurd rfl hs
  | _ => rfl

lemma wrappers_eq (h : SameInEverySlot history history') :
    history.wrappers = history'.wrappers := by
  refine h.filterMap_eq .wrapRouter fun registration hs => ?_
  cases registration with
  | wrapRouter _ => exact absurd rfl hs
  | _ => rfl

lemma errorMapper_eq (h : SameInEverySlot history history') :
    history.errorMapper = history'.errorMapper := by
  refine congrArg (·.getLast?.getD Platform.defaultErrorMapper) (h.filterMap_eq .errorMapper fun registration hs => ?_)
  cases registration with
  | errorMapper _ => exact absurd rfl hs
  | _ => rfl

lemma maxBodyBytes_eq (h : SameInEverySlot history history') :
    history.maxBodyBytes = history'.maxBodyBytes := by
  refine congrArg (·.getLast?.getD defaultMaxBodyBytes) (h.filterMap_eq .maxBodyBytes fun registration hs => ?_)
  cases registration with
  | maxBodyBytes _ => exact absurd rfl hs
  | _ => rfl

/-- A runtime is composed of slots. -/
theorem runtime_eq (h : SameInEverySlot history history') (endpoint : EndpointMetadata)
    (binding : EndpointBinding) :
    history.runtime endpoint binding = history'.runtime endpoint binding := by
  rw [History.runtime,History.runtime,h.globalGuards_eq,h.globalMiddleware_eq,h.globalHooks_eq,
    h.endpointGuards_eq,h.endpointMiddleware_eq,h.endpointHooks_eq,h.errorMapper_eq,h.maxBodyBytes_eq]

lemma transform_eq (h : SameInEverySlot history history') :
    history.transform = history'.transform := by
  funext router
  rw [History.transform,History.transform,h.augmentations_eq,h.wrappers_eq]

lemma route_eq (h : SameInEverySlot history history') : history.route = history'.route := by
  funext endpoint
  rw [History.route,History.route,h.bindings_eq]
  simp only [h.runtime_eq]

lemma coveredBy_iff (h : SameInEverySlot history history') {runtime : EndpointRuntime}
    {capability : HttpEnforcementCapability} :
    CoveredBy history runtime capability ↔ CoveredBy history' runtime capability := by
  rw [CoveredBy,CoveredBy,h.mem_iff,h.mem_iff]

open Classical in
lemma uncovered_eq (h : SameInEverySlot history history') (runtime : EndpointRuntime) :
    history.uncovered runtime = history'.uncovered runtime := by
  refine List.filter_congr fun capability _ => ?_
  rw [decide_eq_decide,h.coveredBy_iff]

lemma buildable_iff (h : SameInEverySlot history history') {endpoint : EndpointMetadata} :
    Buildable history endpoint ↔ Buildable history' endpoint := by
  refine exists_congr fun binding => ?_
  rw [h.bindings_eq,h.runtime_eq]
  refine and_congr_right fun _ => and_congr_right fun _ => ?_
  exact forall₂_congr fun capability _ => h.coveredBy_iff

theorem unservable {done : List EndpointId} {endpoint : EndpointMetadata} {error : SoapError}
    (h : SameInEverySlot history history') (hu : Unservable history done endpoint error) :
    Unservable history' done endpoint error := by
  cases hu with
  | servedBefore member => exact .servedBefore member
  | unsupported fresh method => exact .unsupported fresh method
  | uncovered binding fresh bound method missing =>
    rw [h.runtime_eq,h.uncovered_eq] at missing ⊢
    rw [h.bindings_eq] at bound
    exact .uncovered binding fresh bound method missing

lemma stops {done : List EndpointId} {router : Axum.Router} {endpoint : EndpointMetadata} {stop : Stop}
    (h : SameInEverySlot history history') (hs : Stops history done router endpoint stop) :
    Stops history' done router endpoint stop := by
  cases hs with
  | unservable error refused => exact .unservable error (h.unservable refused)
  | clash route fresh served routed clash =>
    rw [h.route_eq] at routed
    exact .clash route fresh (h.buildable_iff.mp served) routed clash

theorem buildFails {catalog : EndpointCatalog} {stop : Stop}
    (h : SameInEverySlot history history') (hf : BuildFails catalog history stop) :
    BuildFails catalog history' stop := by
  have hunbound : history.unbound catalog = history'.unbound catalog :=
    List.filter_congr fun endpoint _ => by rw [h.bindings_eq]
  cases hf with
  | unbound missing =>
    rw [hunbound] at missing ⊢
    exact .unbound missing
  | endpoint before after endpoint router _ bound split distinct served mounted stops =>
    rw [hunbound] at bound
    rw [h.route_eq] at mounted
    exact .endpoint before after endpoint router stop bound split distinct
      (fun earlier he => h.buildable_iff.mp (served earlier he)) mounted (h.stops stops)
  | transform start _ distinct served mounted refused =>
    rw [h.transform_eq] at refused
    rw [History.routes,h.route_eq] at mounted
    exact .transform start stop distinct (fun e he => h.buildable_iff.mp (served e he)) mounted refused

/-- What is built is read off the slots, and so is why nothing is. -/
theorem build_eq {catalog : EndpointCatalog} {builder builder' : SoapRouterBuilder}
    (h : SameInEverySlot history history') (hb : Records catalog history builder)
    (hb' : Records catalog history' builder') : builder.build = builder'.build := by
  cases hr : builder.build with
  | error stop => exact ((build_eq_error hb').mpr (h.buildFails ((build_eq_error hb).mp hr))).symm
  | ok router =>
    obtain ⟨hn,hserved,start,hmounted,ht⟩ := (build_eq_ok hb).mp hr
    rw [h.transform_eq] at ht
    rw [History.routes,h.route_eq] at hmounted
    exact ((build_eq_ok hb').mpr
      ⟨hn,fun e he => h.buildable_iff.mp (hserved e he),start,hmounted,ht⟩).symm

end SameInEverySlot

/-- Two neighbouring calls may be swapped if they register nothing in a slot of both. -/
theorem sameInEverySlot_swap {catalog : EndpointCatalog} {before after : List BuilderCall}
    {first second : BuilderCall} (h : ∀ registration ∈ first.registrations catalog,
      ∀ registration' ∈ second.registrations catalog, registration.slot ≠ registration'.slot) :
    SameInEverySlot (registered catalog (before ++ first :: second :: after))
      (registered catalog (before ++ second :: first :: after)) := by
  intro slot
  have hpair : History.inSlot (first.registrations catalog) slot = [] ∨
      History.inSlot (second.registrations catalog) slot = [] := by
    rw [History.inSlot,List.filter_eq_nil_iff,History.inSlot,List.filter_eq_nil_iff]
    by_contra hboth
    push Not at hboth
    obtain ⟨⟨r,hr,hs⟩,r',hr',hs'⟩ := hboth
    exact h r hr r' hr' ((of_decide_eq_true hs).trans (of_decide_eq_true hs').symm)
  simp only [registered,List.flatMap_append,List.flatMap_cons,inSlot_append]
  rcases hpair with hnil | hnil <;> simp [hnil]

/-- Chains of the same calls succeed together in whatever order, and if every slot of the builder gets
the same in the same order, then they build the same router or fail to in the same way. -/
theorem call_order_is_irrelevant (catalog : EndpointCatalog) (calls calls' : List BuilderCall)
    (hcalls : calls.Perm calls') :
    ((∃ builder, configure catalog calls = .ok builder) ↔
      ∃ builder, configure catalog calls' = .ok builder) ∧
    (SameInEverySlot (registered catalog calls) (registered catalog calls') →
      ∀ builder builder', configure catalog calls = .ok builder →
        configure catalog calls' = .ok builder' → builder.build = builder'.build) := by
  constructor
  · rw [exists_configure_iff,exists_configure_iff]
    exact ⟨Consistent.perm hcalls,Consistent.perm hcalls.symm⟩
  · intro hslots builder builder' hb hb'
    exact hslots.build_eq (records_configure hb) (records_configure hb')

end

section
local instance orderPlatform : Platform := referencePlatform
local instance orderAxum : Axum := referenceAxum

/-- The plugin may as well be installed before the body cap is set. -/
theorem call_order_is_irrelevant_article : ∃ builder,
    configure articleCatalog [.bind "article.get" articleBinding,.plugin signInPlugin,
      .maxBodyBytes 1024] = .ok builder ∧
    ∀ builder', configure articleCatalog articleCalls = .ok builder' →
      builder'.build = builder.build := by
  have hswap : ∀ registration ∈ (BuilderCall.maxBodyBytes 1024).registrations articleCatalog,
      ∀ registration' ∈ (BuilderCall.plugin signInPlugin).registrations articleCatalog,
        registration.slot ≠ registration'.slot := by
    intro registration hr registration' hr'
    obtain rfl := List.mem_singleton.mp hr
    rcases List.mem_pair.mp hr' with rfl | rfl <;> nofun
  have hperm : articleCalls.Perm [.bind "article.get" articleBinding,.plugin signInPlugin,
      .maxBodyBytes 1024] := .cons _ (.swap _ _ [])
  have hslots : SameInEverySlot (registered articleCatalog articleCalls)
      (registered articleCatalog [.bind "article.get" articleBinding,.plugin signInPlugin,
        .maxBodyBytes 1024]) :=
    @sameInEverySlot_swap _ _ articleCatalog [.bind "article.get" articleBinding] [] _ _ hswap
  have hsame := call_order_is_irrelevant articleCatalog articleCalls _ hperm
  obtain ⟨builder,hb⟩ := hsame.1.mp ⟨_,rfl⟩
  exact ⟨builder,hb,fun builder' hb' => hsame.2 hslots builder' builder hb' hb⟩

end
end SoapAxum.Builder
