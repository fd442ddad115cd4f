import SoapAxum.Router.Exits
import SoapAxum.Semantics.Erasure

/-! Hooks are observers, and the body of a request is nothing to those who refuse it. Neither changes
what the rest of a dispatch does, nor when. -/
namespace SoapAxum.Router
open SoapAxum.Http SoapAxum.Text SoapAxum.Data SoapAxum.Semantics SoapAxum.Request SoapAxum.Endpoint

section
variable [Platform]

/-- The callback of a hook. -/
def isHookEvent : Event → Bool
  | .hook _ _ => true
  | _ => false

lemma without_stage (target : EndpointTarget) (request : RouteRequest) :
    (target.stage request).without isHookEvent = target.stage request := by
  rw [EndpointTarget.stage,Coroutine.without_bind,Coroutine.without_report rfl]
  refine congrArg _ (funext fun _ => ?_)
  rw [Coroutine.without_bind,Coroutine.without_await]
  rfl

theorem without_around (middleware : EndpointMiddleware) {next : Stage}
    (hnext : ∀ request, (next request).without isHookEvent = next request) (request : RouteRequest) :
    (middleware.around next request).without isHookEvent = middleware.around next request := by
  rw [EndpointMiddleware.around,Coroutine.without_bind,Coroutine.without_report rfl]
  refine congrArg _ (funext fun _ => ?_)
  rw [Coroutine.without_bind,Coroutine.without_await]
  refine congrArg _ (funext fun handling => ?_)
  cases handling with
  | shortCircuit seen outcome => rfl
  | delegate left after =>
    rw [Coroutine.without_bind,Coroutine.without_report rfl]
    refine congrArg _ (funext fun _ => ?_)
    rw [Coroutine.without_bind,hnext]
    refine congrArg _ (funext fun result => ?_)
    rw [Coroutine.without_bind,Coroutine.without_report rfl]
    refine congrArg _ (funext fun _ => ?_)
    exact Coroutine.without_await _
  | abandon left polls after =>
    rw [Coroutine.without_bind,Coroutine.without_report rfl]
    refine congrArg _ (funext fun _ => ?_)
    rw [Coroutine.without_bind,Coroutine.without_timeout,hnext]
    refine congrArg _ (funext fun result => ?_)
    cases result with
    | none =>
      rw [Coroutine.without_bind,Coroutine.without_report rfl]
      refine congrArg _ (funext fun _ => ?_)
      exact Coroutine.without_await _
    | some result =>
      rw [Coroutine.without_bind,Coroutine.without_report rfl]
      refine congrArg _ (funext fun _ => ?_)
      exact Coroutine.without_await _

lemma without_run (next : EndpointNext) (request : RouteRequest) :
    (next.run request).without isHookEvent = next.run request := by
  obtain ⟨middleware,target⟩ := next
  change (runFrom target middleware request).without isHookEvent = runFrom target middleware request
  induction middleware generalizing request with
  | nil => exact without_stage target request
  | cons first rest ih => exact without_around first ih request

namespace EndpointRuntime

theorem without_checkGuards (guards : List EndpointGuard) (head : RouteRequestHead) :
    (checkGuards guards head).without isHookEvent = checkGuards guards head := by
  induction guards generalizing head with
  | nil => rfl
  | cons guard guards ih =>
    rw [checkGuards,Coroutine.without_bind,Coroutine.without_await]
    refine congrArg _ (funext fun checked => ?_)
    obtain ⟨left,result⟩ := checked
    cases result with
    | error rejection =>
      rw [Coroutine.without_bind,Coroutine.without_report rfl]
      rfl
    | ok u =>
      rw [Coroutine.without_bind,Coroutine.without_report rfl]
      exact congrArg _ (funext fun _ => ih left)

/-- The runtime of the same endpoint without any hooks. -/
def unobserved (runtime : EndpointRuntime) : EndpointRuntime := { runtime with hooks := [] }

lemma without_notify (runtime : EndpointRuntime) (event : HookEvent) :
    (runtime.notify event).without isHookEvent = runtime.unobserved.notify event := by
  refine Coroutine.without_reportAll fun e he => ?_
  obtain ⟨index,-,rfl⟩ := List.mem_map.mp he
  rfl

theorem without_finish (runtime : EndpointRuntime) (before : Response)
    (event : ResponseView → HookEvent) :
    Coroutine.without isHookEvent (do
      let response ← runtime.applyPolicies before
      runtime.notify (event (.ofResponse response))
      pure response) = (do
      let response ← runtime.unobserved.applyPolicies before
      runtime.unobserved.notify (event (.ofResponse response))
      pure response) := by
  rw [Coroutine.without_bind,applyPolicies,Coroutine.without_bind,Coroutine.without_report rfl]
  refine congrArg _ (funext fun response => ?_)
  rw [Coroutine.without_bind,without_notify]
  rfl

theorem without_respond (runtime : EndpointRuntime) (request : RouteRequest) :
    (runtime.respond request).without isHookEvent = runtime.unobserved.respond request := by
  rw [respond,Coroutine.without_bind,without_notify]
  refine congrArg _ (funext fun _ => ?_)
  rw [Coroutine.without_bind,without_run]
  refine congrArg _ (funext fun result => ?_)
  rw [Coroutine.without_bind,without_notify]
  refine congrArg _ (funext fun _ => ?_)
  exact without_finish runtime _ (.response result.1)

theorem without_readAndRespond (runtime : EndpointRuntime) (head : RouteRequestHead) (body : Body) :
    (runtime.readAndRespond head body).without isHookEvent =
      runtime.unobserved.readAndRespond head body := by
  rw [readAndRespond,Coroutine.without_bind,Coroutine.without_await]
  refine congrArg _ (funext fun result => ?_)
  cases result with
  | error error => exact without_finish runtime _ (.bodyRejection head error)
  | ok bytes =>
    rw [Coroutine.without_bind,Coroutine.without_report rfl]
    exact congrArg _ (funext fun _ => without_respond runtime _)

theorem without_dispatchPipeline (runtime : EndpointRuntime) (params : List (Str × Str))
    (request : IncomingRequest) : (runtime.dispatchPipeline params request).without isHookEvent =
      runtime.unobserved.dispatchPipeline params request := by
  have hn : runtime.unobserved.normalizeHead params request = runtime.normalizeHead params request :=
    rfl
  rw [dispatchPipeline,dispatchPipeline,hn]
  cases runtime.normalizeHead params request with
  | error error => exact without_finish runtime _ (.normalizationRejection runtime.endpoint error)
  | ok normalized =>
    obtain ⟨head,body⟩ := normalized
    rw [Coroutine.without_bind,without_notify]
    refine congrArg _ (funext fun _ => ?_)
    rw [Coroutine.without_bind,without_checkGuards]
    refine congrArg _ (funext fun checked => ?_)
    obtain ⟨seen,rejected⟩ := checked
    cases rejected with
    | none => exact without_readAndRespond runtime seen body
    | some rejection => exact without_finish runtime _ (.guardRejection seen rejection.error)

theorem without_dispatch (runtime : EndpointRuntime) (clock : Duration → ℕ) (params : List (Str × Str))
    (request : IncomingRequest) : (runtime.dispatch clock params request).without isHookEvent =
      runtime.unobserved.dispatch clock params request := by
  rw [dispatch,dispatch]
  have hd : runtime.unobserved.endpoint.timeout = runtime.endpoint.timeout := rfl
  rw [hd]
  cases runtime.endpoint.timeout with
  | none => exact runtime.without_dispatchPipeline params request
  | some timeout =>
    rw [Coroutine.without_bind,Coroutine.without_timeout,runtime.without_dispatchPipeline]
    refine congrArg _ (funext fun result => ?_)
    cases result with
    | some response => rfl
    | none => exact runtime.without_finish _ (.timeout runtime.endpoint _)

end EndpointRuntime

/-- But for the callbacks themselves, a dispatch with hooks is the dispatch without them: the same
steps at the same times, the same deadline and the same answer. -/
theorem hooks_only_observe (runtime : EndpointRuntime) (clock : Duration → ℕ)
    (params : List (Str × Str)) (request : IncomingRequest) :
    let dispatched := runtime.dispatch clock params request
    let unobserved := runtime.unobserved.dispatch clock params request
    dispatched.without isHookEvent = unobserved ∧
      dispatched.trace.filter (fun event => !isHookEvent event) = unobserved.trace ∧
      dispatched.value = unobserved.value ∧ dispatched.suspensions = unobserved.suspensions := by
  intro dispatched unobserved
  have hwithout : dispatched.without isHookEvent = unobserved :=
    runtime.without_dispatch clock params request
  refine ⟨hwithout,?_,?_,?_⟩
  · rw [← Coroutine.trace_without,hwithout]
  · rw [← @Coroutine.value_without _ _ isHookEvent,hwithout]
  · rw [← @Coroutine.suspensions_without _ _ isHookEvent,hwithout]

/-- The head of the request is normalized and every guard accepts it. -/
def AdmittedAs (runtime : EndpointRuntime) (params : List (Str × Str)) (request : IncomingRequest)
    (seen : RouteRequestHead) : Prop :=
  ∃ head body, runtime.normalizeHead params request = .ok (head,body) ∧
    EndpointRuntime.Accepts runtime.guards head seen

theorem dispatchPipeline_of_refused {runtime : EndpointRuntime} {params : List (Str × Str)}
    {request : IncomingRequest} (h : ¬ ∃ seen, AdmittedAs runtime params request seen) (body : Body) :
    runtime.dispatchPipeline params { request with body } = runtime.dispatchPipeline params request := by
  have hnormalize : runtime.normalizeHead params { request with body } =
      (runtime.normalizeHead params request).map fun normalized => (normalized.1,body) := by
    rw [EndpointRuntime.normalizeHead,EndpointRuntime.normalizeHead]
    cases parseCookies request.headers with
    | error error => rfl
    | ok cookies => cases parseQuery request.uri.query <;> rfl
  rw [EndpointRuntime.dispatchPipeline,EndpointRuntime.dispatchPipeline,hnormalize]
  cases hn : runtime.normalizeHead params request with
  | error error => rfl
  | ok normalized =>
    obtain ⟨head,own⟩ := normalized
    refine congrArg _ (funext fun _ => Coroutine.bind_congr_value fun checked hchecked => ?_)
    obtain ⟨seen,rejected⟩ := checked
    cases rejected with
    | some rejection => rfl
    | none =>
      rcases EndpointRuntime.returns_checkGuards ⟨rfl,hchecked⟩ with ⟨-,ha,-⟩ |
        ⟨_,_,_,_,_,-,hnone,-⟩
      · exact absurd ⟨seen,head,own,hn,ha⟩ h
      · cases hnone

/-- A request that is not admitted is dispatched in the same way whatever its body is, even if it is
endless: not a byte of it is waited for. -/
theorem refused_without_body (runtime : EndpointRuntime) (clock : Duration → ℕ)
    (params : List (Str × Str)) (request : IncomingRequest) :
    (∃ seen, AdmittedAs runtime params request seen) ∨
      ∀ body, runtime.dispatch clock params { request with body } =
        runtime.dispatch clock params request := by
  refine or_iff_not_imp_left.mpr fun h body => ?_
  rw [EndpointRuntime.dispatch,EndpointRuntime.dispatch,dispatchPipeline_of_refused h]

end
end SoapAxum.Router
