import SoapAxum.Router.Lifecycle

/-! The pipeline against its phases. The first phase that does not let a request through decides the
exit, and each exit is reached exactly on the requests that get to it. -/
namespace SoapAxum.Router
open SoapAxum.Http SoapAxum.Text SoapAxum.Data SoapAxum.Semantics SoapAxum.Request SoapAxum.Endpoint

section
variable [Platform]

namespace EndpointRuntime

lemma returns_checkGuards_of_accepts {guards : List EndpointGuard}
    {head seen : RouteRequestHead} (h : Accepts guards head seen) :
    Coroutine.Returns (checkGuards guards head) (guards.map .guardAccepted) (seen,none) := by
  induction h with
  | nil head => exact ⟨rfl,rfl⟩
  | cons guard guards head left seen accepted rest ih =>
    rw [checkGuards,Coroutine.returns_await_bind]
    exact ⟨_,accepted,Coroutine.returns_report_bind.mpr ⟨_,rfl,ih⟩⟩

/-- The guards after one that rejects are not checked. -/
theorem returns_checkGuards_of_rejects {accepted rest : List EndpointGuard} {guard : EndpointGuard}
    {head mid seen : RouteRequestHead} {rejection : EndpointGuardRejection}
    (h : Accepts accepted head mid) (hr : (guard.check mid).value = some (seen,.error rejection)) :
    Coroutine.Returns (checkGuards (accepted ++ guard :: rest) head)
      (accepted.map .guardAccepted ++ [.guardRejected guard]) (seen,some rejection) := by
  induction h with
  | nil head =>
    rw [List.nil_append,checkGuards,Coroutine.returns_await_bind]
    refine ⟨_,hr,Coroutine.returns_report_bind.mpr ⟨[],rfl,?_⟩⟩
    exact Coroutine.returns_pure.mpr ⟨rfl,rfl⟩
  | cons first guards head left mid accepted _ ih =>
    rw [List.cons_append,checkGuards,Coroutine.returns_await_bind]
    exact ⟨_,accepted,Coroutine.returns_report_bind.mpr ⟨_,rfl,ih hr⟩⟩

theorem returns_respond_of_run {runtime : EndpointRuntime} {request left : RouteRequest}
    {inner : List Event} {outcome : EndpointOutcome}
    (h : Coroutine.Returns (EndpointNext.run ⟨runtime.middleware,runtime.target⟩ request) inner
      (left,outcome)) :
    Coroutine.Returns (runtime.respond request)
      (runtime.hookEvents (.request request) ++ (inner ++
        (runtime.hookEvents (.outcome left outcome) ++ runtime.tail (.response left outcome))))
      ((Exit.response left outcome).final runtime) := by
  refine returns_notify_bind.mpr ⟨_,rfl,?_⟩
  refine Coroutine.returns_bind.mpr ⟨_,_,_,h,?_,rfl⟩
  refine returns_notify_bind.mpr ⟨_,rfl,?_⟩
  exact returns_finish.mpr ⟨rfl,rfl⟩

/-- Once the guards have accepted, the rest of the pipeline is what follows the head. -/
theorem returns_dispatchPipeline_of_accepts {runtime : EndpointRuntime} {params : List (Str × Str)}
    {request : IncomingRequest} {head seen : RouteRequestHead} {body : Body} {t : List Event}
    {response : Response} (hn : runtime.normalizeHead params request = .ok (head,body))
    (ha : Accepts runtime.guards head seen)
    (h : Coroutine.Returns (runtime.readAndRespond seen body) t response) :
    Coroutine.Returns (runtime.dispatchPipeline params request)
      (runtime.hookEvents (.requestHead head) ++ (runtime.guards.map .guardAccepted ++ t))
      response := by
  rw [dispatchPipeline,hn]
  refine returns_notify_bind.mpr ⟨_,rfl,?_⟩
  exact Coroutine.returns_bind.mpr ⟨_,_,_,returns_checkGuards_of_accepts ha,h,rfl⟩

/-- Each exit is reached by the requests that get to it. -/
theorem returns_of_front {runtime : EndpointRuntime} {params : List (Str × Str)}
    {request : IncomingRequest} {exit : Exit} {front : List Event}
    (h : runtime.Front params request exit front) (hne : exit ≠ .timeout) :
    Coroutine.Returns (runtime.dispatchPipeline params request) (front ++ runtime.tail exit)
      (exit.final runtime) := by
  cases h with
  | normalizationRejection error normalized =>
    rw [dispatchPipeline,normalized]
    exact returns_finish.mpr ⟨rfl,rfl⟩
  | guardRejection head mid seen body accepted rest guard rejection normalized guards accepts
      rejects =>
    rw [dispatchPipeline,normalized,List.append_assoc,List.append_assoc]
    refine returns_notify_bind.mpr ⟨_,rfl,?_⟩
    have hg : Coroutine.Returns (checkGuards (accepted ++ guard :: rest) head)
        (accepted.map .guardAccepted ++ [.guardRejected guard]) (seen,some rejection) :=
      returns_checkGuards_of_rejects accepts rejects
    rw [← guards] at hg
    refine Coroutine.returns_bind.mpr ⟨_,_,_,hg,?_,(List.append_assoc _ _ _).symm⟩
    exact returns_finish.mpr ⟨rfl,rfl⟩
  | bodyRejection head seen body error normalized accepts read =>
    rw [List.append_assoc]
    refine returns_dispatchPipeline_of_accepts normalized accepts ?_
    refine Coroutine.returns_await_bind.mpr ⟨_,read,?_⟩
    exact returns_finish.mpr ⟨rfl,rfl⟩
  | response head seen body bytes inner left outcome normalized accepts read run =>
    have hresponds : Coroutine.Returns (runtime.readAndRespond seen body)
        (.bodyRead bytes :: _) ((Exit.response left outcome).final runtime) :=
      Coroutine.returns_await_bind.mpr ⟨_,read,
        Coroutine.returns_report_bind.mpr ⟨_,rfl,returns_respond_of_run run⟩⟩
    have hpipeline := returns_dispatchPipeline_of_accepts normalized accepts hresponds
    simpa using hpipeline
  | timeoutBeforeBody => exact absurd rfl hne
  | timeoutAfterBody => exact absurd rfl hne

/-- A pipeline that returns has passed the phases in front of its exit. -/
theorem front_of_returns {runtime : EndpointRuntime} {params : List (Str × Str)}
    {request : IncomingRequest} {response : Response}
    (h : (runtime.dispatchPipeline params request).value = some response) :
    ∃ exit front, runtime.Front params request exit front ∧ exit ≠ .timeout := by
  rw [dispatchPipeline] at h
  cases hn : runtime.normalizeHead params request with
  | error error => exact ⟨_,_,.normalizationRejection error hn,by simp⟩
  | ok normalized =>
    obtain ⟨head,body⟩ := normalized
    simp only [hn,Coroutine.value_bind,Option.bind_eq_some_iff] at h
    obtain ⟨-,-,⟨seen,rejected⟩,hg,h⟩ := h
    rcases returns_checkGuards ⟨rfl,hg⟩ with ⟨rfl,ha,-⟩ |
      ⟨accepted,guard,rest,mid,rejection,hgs,rfl,ha,hbad,-⟩
    · have h : (runtime.readAndRespond seen body).value = some response := h
      rw [readAndRespond,Coroutine.value_bind,Coroutine.value_await,Option.bind_eq_some_iff] at h
      obtain ⟨result,hb,h⟩ := h
      cases result with
      | error error => exact ⟨_,_,.bodyRejection head seen body error hn ha hb,by simp⟩
      | ok bytes =>
        rw [Coroutine.value_bind,Coroutine.value_report,Option.bind_some] at h
        obtain ⟨inner,left,outcome,hrun,-,-⟩ := returns_respond ⟨rfl,h⟩
        exact ⟨_,_,.response head seen body bytes inner left outcome hn ha hb hrun,by simp⟩
    · exact ⟨_,_,.guardRejection head mid seen body accepted rest guard rejection hn hgs ha hbad,by simp⟩

end EndpointRuntime

/-- The pipeline returns exactly by the exits whose phases it has passed, with what is reported in
front of the exit and at it. -/
theorem pipeline_returns_iff (runtime : EndpointRuntime) (params : List (Str × Str))
    (request : IncomingRequest) (trace : List Event) (response : Response) :
    Coroutine.Returns (runtime.dispatchPipeline params request) trace response ↔
      ∃ exit front, exit ≠ .timeout ∧ runtime.Front params request exit front ∧
        trace = front ++ runtime.tail exit ∧ response = exit.final runtime := by
  constructor
  · rintro ⟨rfl,hv⟩
    obtain ⟨exit,front,hfront,hne⟩ := EndpointRuntime.front_of_returns hv
    obtain ⟨ht,hr⟩ := EndpointRuntime.returns_of_front hfront hne
    rw [hv] at hr
    exact ⟨exit,front,hne,hfront,ht,Option.some.inj hr⟩
  · rintro ⟨exit,front,hne,hfront,rfl,rfl⟩
    exact EndpointRuntime.returns_of_front hfront hne

end
end SoapAxum.Router
