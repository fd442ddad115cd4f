import SoapAxum.Endpoint.TypedRoute
import SoapAxum.Router.Reach

/-! The operation behind an endpoint in the course of a dispatch: how often it is started, and on which
input. -/
namespace SoapAxum.Router
open SoapAxum.Http SoapAxum.Text SoapAxum.Data SoapAxum.Semantics SoapAxum.Request SoapAxum.Endpoint

section
variable [Platform] {I O : Type}

/-- The inputs on which calls of the target start its operation. -/
def startedOn (routeIo : RouteIo I O) (operation : RouteRequest → I → Future (SoapResult O))
    (trace : List Event) : List I := trace.flatMap fun
  | .targetCalled request => (invoke routeIo operation request).trace
  | _ => []

theorem length_startedOn_le (routeIo : RouteIo I O)
    (operation : RouteRequest → I → Future (SoapResult O)) (trace : List Event) :
    (startedOn routeIo operation trace).length ≤ trace.countP Event.isTargetCalled := by
  induction trace with
  | nil => exact Nat.le_refl 0
  | cons e trace ih =>
    rw [startedOn,List.flatMap_cons,List.length_append,List.countP_cons,Nat.add_comm]
    refine Nat.add_le_add ih ?_
    cases e with
    | targetCalled request =>
      change (invoke routeIo operation request).trace.length ≤ 1
      rw [trace_invoke]
      exact Option.length_toList_le
    | _ => exact Nat.zero_le _

/-- An input comes from a request that the target was called with. -/
theorem mem_startedOn {routeIo : RouteIo I O}
    {operation : RouteRequest → I → Future (SoapResult O)} {trace : List Event} {input : I} :
    input ∈ startedOn routeIo operation trace ↔
      ∃ seen, .targetCalled seen ∈ trace ∧ routeIo.mapRequest seen = .ok input := by
  have hinvoke : ∀ seen, input ∈ (invoke routeIo operation seen).trace ↔
      routeIo.mapRequest seen = .ok input := by
    intro seen
    rw [trace_invoke]
    cases routeIo.mapRequest seen <;> simp [Except.toOption,eq_comm]
  rw [startedOn,List.mem_flatMap]
  constructor
  · rintro ⟨e,he,hi⟩
    cases e with
    | targetCalled seen => exact ⟨seen,he,(hinvoke seen).mp hi⟩
    | _ => exact absurd hi List.not_mem_nil
  · rintro ⟨seen,hs,hi⟩
    exact ⟨_,hs,(hinvoke seen).mpr hi⟩

/-- A dispatch starts the operation behind its endpoint at most once, also if it is dropped halfway,
and only on the input of a request that has passed the guards, the body limit and every middleware. -/
theorem operation_started_at_most_once (runtime : EndpointRuntime) (clock : Duration → ℕ)
    (params : List (Str × Str)) (request : IncomingRequest) (routeIo : RouteIo I O)
    (operation : RouteRequest → I → Future (SoapResult O)) :
    let served := { runtime with target := mappedTarget routeIo operation }
    let dispatched := served.dispatch clock params request
    (startedOn routeIo operation dispatched.trace).length ≤ 1 ∧
      (∀ trace, dispatched.SuspendsAt trace → (startedOn routeIo operation trace).length ≤ 1) ∧
      ∀ input ∈ startedOn routeIo operation dispatched.trace,
        ∃ seen, served.Receives params request seen ∧ routeIo.mapRequest seen = .ok input := by
  intro served dispatched
  have honce := served.occurrences_dispatch_le clock params request
  refine ⟨(length_startedOn_le _ _ _).trans honce,?_,?_⟩
  · intro trace htrace
    exact (length_startedOn_le _ _ _).trans ((Coroutine.countP_le_of_suspendsAt htrace).trans honce)
  · intro input hinput
    obtain ⟨seen,hseen,hmap⟩ := mem_startedOn.mp hinput
    obtain ⟨t,after,ht⟩ := List.append_of_mem hseen
    exact ⟨seen,EndpointRuntime.receives_of_reaches_dispatch ⟨after,ht⟩,hmap⟩

end
end SoapAxum.Router
