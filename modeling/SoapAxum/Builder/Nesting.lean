import SoapAxum.Builder.Composition
import SoapAxum.Endpoint.Onion

/-! Middleware on a built router: an onion with the global middleware outermost and that of the
binding innermost. -/
namespace SoapAxum.Builder
open SoapAxum.Http SoapAxum.Data SoapAxum.Semantics SoapAxum.Request SoapAxum.Endpoint SoapAxum.Router

section
variable [Platform] [Axum]

/-- Global middleware is around the installed, which is around that of the binding. -/
def Nests (history : History) (endpoint : EndpointMetadata) (route : Route) : Prop :=
  ∃ binding, history.bindings endpoint.id = [binding] ∧
    EndpointNext.run ⟨route.runtime.middleware,route.runtime.target⟩ =
      history.globalMiddleware.foldr EndpointMiddleware.around
        ((history.endpointMiddleware endpoint.id).foldr EndpointMiddleware.around
          (binding.middleware.foldr EndpointMiddleware.around binding.target.stage))

lemma nests_of_composes {history : History} {endpoint : EndpointMetadata} {route : Route}
    (h : Composes history endpoint route) : Nests history endpoint route := by
  obtain ⟨-,-,binding,hone,hruntime⟩ := h
  refine ⟨binding,hone,?_⟩
  rw [EndpointNext.run_eq_foldr,hruntime,History.runtime,List.foldr_append,List.foldr_append]

/-- Running the pipeline folds the middleware over the target, so what returns is an onion of
middleware that answer or delegate, and on a built router the registrations nest from the global
ones inwards. -/
theorem middleware_onion (middleware : List EndpointMiddleware) (target : EndpointTarget) :
    EndpointNext.run ⟨middleware,target⟩ =
      middleware.foldr EndpointMiddleware.around target.stage ∧
    ((∀ m ∈ middleware, m.AnswersOrDelegates) → ∀ request trace result,
      Coroutine.Returns (EndpointNext.run ⟨middleware,target⟩ request) trace result ↔
        Onion target middleware request trace result) ∧
    ∀ catalog calls builder router, configure catalog calls = .ok builder →
      builder.build = .ok router → ∃ routes start, Route.mountAll routes = some start ∧
        (registered catalog calls).transform start = .ok router ∧
        List.Forall₂ (Nests (registered catalog calls)) catalog.endpoints routes := by
  refine ⟨EndpointNext.run_eq_foldr target middleware,fun hm _ _ _ => returns_run hm,?_⟩
  intro catalog calls builder router hcalls hbuild
  obtain ⟨-,hb,start,hstart,ht⟩ := (build_eq_ok (records_configure hcalls)).mp hbuild
  exact ⟨_,start,hstart,ht,(forall₂_composes hb).imp fun _ _ => nests_of_composes⟩

end

section
local instance nestingPlatform : Platform := referencePlatform
local instance nestingAxum : Axum := referenceAxum

/-- A middleware that hands everything on as it is. -/
def passOn : EndpointMiddleware :=
  ⟨[],fun request => .done (.delegate request fun request outcome => .done (request,outcome))⟩

/-- A middleware that answers every request itself. -/
def answerItself : EndpointMiddleware :=
  ⟨[],fun request => .done (.shortCircuit request (varyOutcome []))⟩

/-- Only what is outside the middleware that answers is entered and resumed. -/
theorem middleware_onion_article :
    let request : RouteRequest := ⟨cachedEndpoint,⟨.new ⟨"GET"⟩
      { path := "/articles/7".toList,query := none } Multimap.empty ∅ ∅ ∅,[]⟩,()⟩
    Onion articleBinding.target [passOn,answerItself,passOn] request
      [.middlewareEntered passOn request,.middlewareDelegated passOn request,
        .middlewareEntered answerItself request,.middlewareResumed passOn request (varyOutcome [])]
      (request,varyOutcome []) := by
  intro request
  refine ((middleware_onion [passOn,answerItself,passOn] articleBinding.target).2.1 ?_ _ _ _).mp
    ⟨rfl,rfl⟩
  have hpass : passOn.AnswersOrDelegates := fun _ _ _ _ h => nomatch Option.some.inj h
  have hanswer : answerItself.AnswersOrDelegates := fun _ _ _ _ h => nomatch Option.some.inj h
  simp [hpass,hanswer]

end
end SoapAxum.Builder
