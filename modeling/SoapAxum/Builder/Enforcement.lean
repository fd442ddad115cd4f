import SoapAxum.Builder.Composition
import SoapAxum.Router.Admission

/-! Enforcement fails closed: what an endpoint requires has been enforced by the time its target is
called, on every router that was built and for every request. -/
namespace SoapAxum.Builder
open SoapAxum.Http SoapAxum.Text SoapAxum.Semantics SoapAxum.Request SoapAxum.Endpoint SoapAxum.Router

section
variable [Platform] [Axum]

/-- How a capability is enforced, given what has been reported: at the router, by a guard that
accepted before the body was read, or by a middleware that was entered and delegated. -/
inductive Enforced (history : History) (runtime : EndpointRuntime) (before : List Event)
    (capability : HttpEnforcementCapability) : Prop
  | atRouter (declared : .routerEnforcementCapability capability ∈ history)
  | byGuard (admission : capability ∈ [.authentication,.rateLimit,.csrf]) (guard : EndpointGuard)
      (member : guard ∈ runtime.guards) (declared : capability ∈ guard.enforcementCapabilities)
      (accepted : ∃ s body t, before = s ++ .bodyRead body :: t ∧ .guardAccepted guard ∈ s)
  | byMiddleware (validation : capability = .requestValidation) (middleware : EndpointMiddleware)
      (member : middleware ∈ runtime.middleware)
      (declared : capability ∈ middleware.enforcementCapabilities)
      (delegated : ∃ request left s t, before =
        s ++ .middlewareEntered middleware request :: .middlewareDelegated middleware left :: t)

/-- A provider in the right phase has done its part once everything in front of the target has been
passed. -/
theorem enforced_of_admitted {history : History} {runtime : EndpointRuntime} {before : List Event}
    {capability : HttpEnforcementCapability} (hp : ProvidedInPhase runtime capability)
    (ha : runtime.Admitted before) : Enforced history runtime before capability := by
  obtain ⟨head,admitted,bytes,inner,-,-,hentered⟩ := ha
  cases hp with
  | byGuard hadmission guard hm hd =>
    refine .byGuard hadmission guard hm hd ⟨_,bytes,_,rfl,?_⟩
    exact List.mem_append_right _ (List.mem_map_of_mem hm)
  | byMiddleware hvalidation middleware hm hd =>
    obtain ⟨request,left,s,t,rfl⟩ := hentered.exists_of_mem hm
    exact .byMiddleware hvalidation middleware hm hd ⟨request,left,_,t,by
      rw [← List.append_assoc,← List.cons_append,← List.append_assoc]⟩

/-- On a built router, a target is only called after every guard of its endpoint has accepted, the
body has been read within its limits and every middleware has delegated, so that each capability
which the endpoint requires and was not opted out for it has been enforced in its own phase. -/
theorem enforcement_fails_closed (catalog : EndpointCatalog) (calls : List BuilderCall)
    (builder : SoapRouterBuilder) (router : Axum.Router)
    (hcalls : configure catalog calls = .ok builder) (hbuild : builder.build = .ok router) :
    let history := registered catalog calls
    ∃ routes start, List.Forall₂ (Composes history) catalog.endpoints routes ∧
      Route.mountAll routes = some start ∧ history.transform start = .ok router ∧
      ∀ route ∈ routes, ∀ clock params request before seen,
        (route.runtime.dispatch clock params request).Reaches before (.targetCalled seen) →
          route.runtime.Admitted before ∧
          ∀ capability ∈ route.runtime.endpoint.requiredEnforcementCapabilities,
            .allowUnenforced route.runtime.endpoint.id capability ∉ history →
              Enforced history route.runtime before capability := by
  intro history
  obtain ⟨-,hb,start,hstart,ht⟩ := (build_eq_ok (records_configure hcalls)).mp hbuild
  refine ⟨history.routes catalog,start,forall₂_composes hb,hstart,ht,?_⟩
  intro route hroute clock params request before seen hreach
  have hadmitted := EndpointRuntime.admitted_of_reaches_dispatch hreach
  refine ⟨hadmitted,fun capability hrequired hopt => ?_⟩
  rcases covered_of_mem_routes hb hroute capability hrequired with ho | hr | hp
  · exact absurd ho hopt
  · exact .atRouter hr
  · exact enforced_of_admitted hp hadmitted

end

section
local instance enforcementPlatform : Platform := referencePlatform
local instance enforcementAxum : Axum := referenceAxum

theorem enforcement_fails_closed_article :
    let history := registered articleCatalog articleCalls
    let runtime := history.runtime protectedEndpoint articleBinding
    ∃ before seen, (runtime.dispatch (fun _ => 0) articleParams articleRequest).Reaches before
        (.targetCalled seen) ∧
      runtime.Admitted before ∧ Enforced history runtime before .authentication := by
  intro history runtime
  have hcalls : configure articleCatalog articleCalls =
      .ok ((configure articleCatalog articleCalls).toOption.get (by decide)) := rfl
  have hbuild := (build_eq_ok (records_configure hcalls)).mpr
    ⟨by decide,buildable_article,_,rfl,rfl⟩
  obtain ⟨routes,-,hroutes,-,-,h⟩ :=
    enforcement_fails_closed articleCatalog articleCalls _ _ hcalls hbuild
  obtain ⟨route,_,⟨-,-,binding,hone,hruntime⟩,_,rfl⟩ := List.forall₂_cons_left_iff.mp hroutes
  obtain rfl : articleBinding = binding := List.singleton_inj.mp hone
  change route.runtime = runtime at hruntime
  have hreach : ∃ seen, (runtime.dispatch (fun _ => 0) articleParams articleRequest).Reaches
      ((runtime.dispatch (fun _ => 0) articleParams articleRequest).trace.take 4) (.targetCalled seen) :=
    ⟨_,_,rfl⟩
  obtain ⟨seen,hreach⟩ := hreach
  obtain ⟨hadmitted,henforced⟩ := h route List.mem_cons_self (fun _ => 0) articleParams
    articleRequest _ seen (by rwa [hruntime])
  rw [hruntime] at hadmitted henforced
  exact ⟨_,seen,hreach,hadmitted,henforced .authentication (by decide) (by
    simp [registered_article])⟩

end
end SoapAxum.Builder
