import SoapAxum.Endpoint.Pipeline

/-! What middleware and target report while they run: nothing but their own events, and the target
only once every middleware has been entered and has delegated. -/
namespace SoapAxum.Endpoint
open SoapAxum.Http SoapAxum.Data SoapAxum.Semantics SoapAxum.Request SoapAxum.Router

section
variable [Platform]

/-- An event of the middleware or the target. -/
def Event.IsInner : Event → Prop
  | .middlewareEntered _ _ => True
  | .middlewareDelegated _ _ => True
  | .middlewareResumed _ _ _ => True
  | .middlewareAbandoned _ => True
  | .targetCalled _ => True
  | _ => False

/-- The middleware have been entered one after the other, and each has delegated. -/
def Entered : List EndpointMiddleware → List Event → Prop
  | [],trace => trace = []
  | middleware :: remaining,trace => ∃ request left rest,
      trace = .middlewareEntered middleware request :: .middlewareDelegated middleware left :: rest ∧
        Entered remaining rest

/-- Each of them has been entered and has then delegated. -/
theorem Entered.exists_of_mem {middleware : List EndpointMiddleware} {t : List Event}
    {m : EndpointMiddleware} (h : Entered middleware t) (hm : m ∈ middleware) :
    ∃ request left s rest, t = s ++ .middlewareEntered m request :: .middlewareDelegated m left ::
      rest := by
  induction middleware generalizing t with
  | nil => exact absurd hm List.not_mem_nil
  | cons first remaining ih =>
    obtain ⟨request,left,rest,rfl,hrest⟩ := h
    rcases List.mem_cons.mp hm with rfl | hm
    · exact ⟨request,left,[],rest,rfl⟩
    · obtain ⟨request',left',s,rest',rfl⟩ := ih hrest hm
      exact ⟨request',left',_ :: _ :: s,rest',rfl⟩

lemma trace_stage (target : EndpointTarget) (request : RouteRequest) :
    (target.stage request).trace = [.targetCalled request] := by
  simp only [EndpointTarget.stage,Coroutine.trace_bind,Coroutine.trace_report,
    Coroutine.value_report,Coroutine.trace_await,Coroutine.value_await,Coroutine.trace_pure]
  cases (target.call request).value <;> rfl

/-- A middleware adds only its own events to those of the next stage. -/
theorem isInner_of_mem_around {middleware : EndpointMiddleware} {next : Stage}
    (hnext : ∀ request, ∀ e ∈ (next request).trace, e.IsInner) (request : RouteRequest) :
    ∀ e ∈ (middleware.around next request).trace, e.IsInner := by
  rw [EndpointMiddleware.around]
  refine Coroutine.forall_mem_trace_bind (by simp [Event.IsInner]) fun _ _ =>
    Coroutine.forall_mem_trace_bind (by simp) fun handling _ => ?_
  cases handling with
  | shortCircuit seen outcome => simp
  | delegate left after =>
    refine Coroutine.forall_mem_trace_bind (by simp [Event.IsInner]) fun _ _ =>
      Coroutine.forall_mem_trace_bind (hnext left) fun _ _ => ?_
    exact Coroutine.forall_mem_trace_bind (by simp [Event.IsInner]) fun _ _ => by simp
  | abandon left polls after =>
    refine Coroutine.forall_mem_trace_bind (by simp [Event.IsInner]) fun _ _ =>
      Coroutine.forall_mem_trace_bind (fun e he => hnext left e
        ((Coroutine.timeout_trace_prefix polls (next left)).subset he)) fun result _ => ?_
    cases result with
    | none => exact Coroutine.forall_mem_trace_bind (by simp [Event.IsInner]) fun _ _ => by simp
    | some r => exact Coroutine.forall_mem_trace_bind (by simp [Event.IsInner]) fun _ _ => by simp

/-- Middleware and target report only their own events. -/
theorem isInner_of_mem_run {target : EndpointTarget} {middleware : List EndpointMiddleware}
    {request : RouteRequest} : ∀ e ∈ (EndpointNext.run ⟨middleware,target⟩ request).trace,
      e.IsInner := by
  change ∀ e ∈ (runFrom target middleware request).trace,e.IsInner
  induction middleware generalizing request with
  | nil => simp [runFrom,trace_stage,Event.IsInner]
  | cons first rest ih => exact isInner_of_mem_around (fun _ => ih) request

/-- Through a middleware, the target is only reached once that has delegated. -/
theorem reaches_around {middleware : EndpointMiddleware} {next : Stage} {request seen : RouteRequest}
    {t : List Event} (h : (middleware.around next request).Reaches t (.targetCalled seen)) :
    ∃ left rest, t = .middlewareEntered middleware request ::
      .middlewareDelegated middleware left :: rest ∧ (next left).Reaches rest (.targetCalled seen) := by
  rw [EndpointMiddleware.around] at h
  obtain ⟨s,rfl,hs⟩ := (Coroutine.reaches_report_bind (by simp)).mp h
  obtain ⟨handling,-,hh⟩ := Coroutine.reaches_await_bind.mp hs
  cases handling with
  | shortCircuit seen outcome => exact absurd hh Coroutine.reaches_pure
  | delegate left after =>
    obtain ⟨u,rfl,hu⟩ := (Coroutine.reaches_report_bind (by simp)).mp hh
    rcases Coroutine.reaches_bind.mp hu with hn | ⟨r,v,-,-,hv⟩
    · exact ⟨left,u,rfl,hn⟩
    · obtain ⟨w,-,hw⟩ := (Coroutine.reaches_report_bind (by simp)).mp hv
      exact absurd hw Coroutine.not_reaches_await
  | abandon left polls after =>
    obtain ⟨u,rfl,hu⟩ := (Coroutine.reaches_report_bind (by simp)).mp hh
    rcases Coroutine.reaches_bind.mp hu with hn | ⟨result,v,-,-,hv⟩
    · exact ⟨left,u,rfl,Coroutine.reaches_of_reaches_timeout hn⟩
    · cases result with
      | none =>
        obtain ⟨w,-,hw⟩ := (Coroutine.reaches_report_bind (by simp)).mp hv
        exact absurd hw Coroutine.not_reaches_await
      | some r =>
        obtain ⟨w,-,hw⟩ := (Coroutine.reaches_report_bind (by simp)).mp hv
        exact absurd hw Coroutine.not_reaches_await

/-- When the target is called, every middleware has been entered and has delegated. -/
theorem entered_of_reaches {target : EndpointTarget} {middleware : List EndpointMiddleware}
    {request seen : RouteRequest} {t : List Event}
    (h : (EndpointNext.run ⟨middleware,target⟩ request).Reaches t (.targetCalled seen)) :
    Entered middleware t := by
  change (runFrom target middleware request).Reaches t _ at h
  induction middleware generalizing request t with
  | nil =>
    obtain ⟨after,ha⟩ := h
    rw [runFrom,trace_stage] at ha
    cases t with
    | nil => rfl
    | cons e t => simp at ha
  | cons first rest ih =>
    obtain ⟨left,inner,rfl,hn⟩ := reaches_around h
    exact ⟨request,left,inner,rfl,ih hn⟩

end
end SoapAxum.Endpoint
