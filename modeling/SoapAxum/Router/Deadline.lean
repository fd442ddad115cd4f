import SoapAxum.Router.Exits
import SoapAxum.Semantics.Deadline

/-! The deadline of an endpoint. Guards, body, middleware and target may hang, the endpoint answers
all the same, and in time everything is as without the deadline. -/
namespace SoapAxum.Router
open SoapAxum.Http SoapAxum.Text SoapAxum.Data SoapAxum.Semantics SoapAxum.Request SoapAxum.Endpoint

section
variable [Platform] {runtime : EndpointRuntime} {clock : Duration → ℕ} {params : List (Str × Str)}
variable {request : IncomingRequest} {deadline : Duration}

namespace EndpointRuntime

lemma returns_timeoutResponse (runtime : EndpointRuntime) :
    Coroutine.Returns runtime.timeoutResponse (runtime.tail .timeout)
      (Exit.timeout.final runtime) := by
  rw [timeoutResponse]
  exact returns_finish.mpr ⟨rfl,rfl⟩

lemma suspensions_timeoutResponse (runtime : EndpointRuntime) :
    runtime.timeoutResponse.suspensions = 0 := by
  rw [Coroutine.suspensions_eq_zero]
  intro t
  exact not_suspendsAt_finish

/-- In time, a dispatch is its pipeline. -/
theorem dispatch_in_time (hd : runtime.endpoint.timeout = some deadline)
    (ht : (runtime.dispatchPipeline params request).suspensions ≤ clock deadline) :
    (runtime.dispatch clock params request).trace = (runtime.dispatchPipeline params request).trace ∧
      (runtime.dispatch clock params request).value =
        (runtime.dispatchPipeline params request).value := by
  simp only [dispatch,hd,Coroutine.trace_bind,Coroutine.value_bind,Coroutine.trace_timeout,
    Coroutine.value_timeout,Coroutine.reportedAt_of_suspensions_le ht,if_pos ht]
  cases hv : (runtime.dispatchPipeline params request).value with
  | none =>
    rw [← Coroutine.suspensions_eq_top] at hv
    simp [hv] at ht
  | some response => exact ⟨by simp,rfl⟩

/-- Too late, what the pipeline has reported is followed by the answer to a timeout. -/
theorem dispatch_too_late (hd : runtime.endpoint.timeout = some deadline)
    (ht : clock deadline < (runtime.dispatchPipeline params request).suspensions) :
    Coroutine.Returns (runtime.dispatch clock params request)
      ((runtime.dispatchPipeline params request).reportedAt (clock deadline) ++
        runtime.tail .timeout) (Exit.timeout.final runtime) := by
  have hn : Coroutine.Returns
      (Coroutine.timeout (clock deadline) (runtime.dispatchPipeline params request))
      ((runtime.dispatchPipeline params request).reportedAt (clock deadline)) none := by
    refine ⟨Coroutine.trace_timeout _ _,?_⟩
    rw [Coroutine.value_timeout,if_neg (not_le.mpr ht)]
  rw [dispatch,hd]
  exact Coroutine.returns_bind.mpr ⟨_,_,_,hn,returns_timeoutResponse runtime,rfl⟩

theorem suspensions_dispatch (hd : runtime.endpoint.timeout = some deadline) :
    (runtime.dispatch clock params request).suspensions =
      min (runtime.dispatchPipeline params request).suspensions (clock deadline) := by
  rw [dispatch,hd]
  simp only [Coroutine.suspensions_bind,Coroutine.suspensions_timeout,Coroutine.value_timeout,
    Option.elim_some]
  split
  · exact add_zero _
  · rw [suspensions_timeoutResponse,add_zero]

end EndpointRuntime

/-- An endpoint with a deadline always answers, and is suspended no longer than that. The answer is
that of the pipeline if it needs no more time. Otherwise the pipeline stops where the deadline finds
it, and the answer is that to a timeout. -/
theorem dispatch_answers_within_deadline (runtime : EndpointRuntime) (clock : Duration → ℕ)
    (params : List (Str × Str)) (request : IncomingRequest) (deadline : Duration)
    (hd : runtime.endpoint.timeout = some deadline) :
    let pipeline := runtime.dispatchPipeline params request
    let dispatched := runtime.dispatch clock params request
    dispatched.suspensions = min pipeline.suspensions (clock deadline) ∧
      ∃ trace response, Coroutine.Returns dispatched trace response ∧
        ((pipeline.suspensions ≤ clock deadline ∧ Coroutine.Returns pipeline trace response) ∨
          (clock deadline < pipeline.suspensions ∧
            trace = pipeline.reportedAt (clock deadline) ++ runtime.tail .timeout ∧
            response = Exit.timeout.final runtime)) := by
  refine ⟨EndpointRuntime.suspensions_dispatch hd,?_⟩
  by_cases ht : (runtime.dispatchPipeline params request).suspensions ≤ clock deadline
  · obtain ⟨htrace,hvalue⟩ := EndpointRuntime.dispatch_in_time hd ht
    cases hv : (runtime.dispatchPipeline params request).value with
    | none =>
      rw [← Coroutine.suspensions_eq_top] at hv
      simp [hv] at ht
    | some response =>
      exact ⟨_,response,⟨htrace,hvalue.trans hv⟩,Or.inl ⟨ht,rfl,hv⟩⟩
  · have hlate := EndpointRuntime.dispatch_too_late hd (not_le.mp ht)
    exact ⟨_,_,hlate,Or.inr ⟨not_le.mp ht,rfl,rfl⟩⟩

/-- More time never changes an answer that was given in time. Where it does change the answer, the
shorter deadline had passed, and what was reported until then is reported again. -/
theorem longer_deadline_extends (runtime : EndpointRuntime) (clock clock' : Duration → ℕ)
    (params : List (Str × Str)) (request : IncomingRequest) (deadline : Duration)
    (hd : runtime.endpoint.timeout = some deadline) (hle : clock deadline ≤ clock' deadline) :
    let dispatched := runtime.dispatch clock params request
    let dispatched' := runtime.dispatch clock' params request
    (dispatched'.trace = dispatched.trace ∧ dispatched'.value = dispatched.value) ∨
      ∃ reported, reported <+: dispatched'.trace ∧
        Coroutine.Returns dispatched (reported ++ runtime.tail .timeout)
          (Exit.timeout.final runtime) := by
  by_cases ht : (runtime.dispatchPipeline params request).suspensions ≤ clock deadline
  · have ht' : (runtime.dispatchPipeline params request).suspensions ≤ clock' deadline :=
      ht.trans (Nat.cast_le.mpr hle)
    obtain ⟨htrace,hvalue⟩ := EndpointRuntime.dispatch_in_time hd ht
    obtain ⟨htrace',hvalue'⟩ := EndpointRuntime.dispatch_in_time hd ht'
    exact Or.inl ⟨htrace'.trans htrace.symm,hvalue'.trans hvalue.symm⟩
  · refine Or.inr ⟨_,?_,EndpointRuntime.dispatch_too_late hd (not_le.mp ht)⟩
    have hprefix := Coroutine.reportedAt_prefix hle (runtime.dispatchPipeline params request)
    by_cases ht' : (runtime.dispatchPipeline params request).suspensions ≤ clock' deadline
    · rw [(EndpointRuntime.dispatch_in_time hd ht').1,← Coroutine.reportedAt_of_suspensions_le ht']
      exact hprefix
    · rw [(EndpointRuntime.dispatch_too_late hd (not_le.mp ht')).1]
      exact hprefix.trans (List.prefix_append _ _)

end

section
local instance deadlinePlatform : Platform := referencePlatform

/-- An endpoint with a deadline of a second whose target never answers. -/
def hangingRuntime : EndpointRuntime :=
  { articleRuntime { cachedEndpoint with timeout := some ⟨1,0⟩ } (varyOutcome []) with
    target := ⟨fun _ => .stalled⟩ }

theorem dispatch_answers_within_deadline_article :
    (hangingRuntime.dispatch (fun _ => 3) articleParams articleRequest).suspensions = 3 ∧
      ∃ trace, Coroutine.Returns (hangingRuntime.dispatch (fun _ => 3) articleParams articleRequest)
        trace (Exit.timeout.final hangingRuntime) := by
  have hlate : (hangingRuntime.dispatchPipeline articleParams articleRequest).suspensions = ⊤ :=
    Coroutine.suspensions_eq_top.mpr rfl
  obtain ⟨htime,trace,response,hreturns,hin | ⟨-,-,rfl⟩⟩ :=
    dispatch_answers_within_deadline hangingRuntime (fun _ => 3) articleParams articleRequest ⟨1,0⟩ rfl
  · simp [hlate] at hin
  · rw [hlate] at htime
    exact ⟨htime.trans (min_top_left _),trace,hreturns⟩

theorem longer_deadline_extends_article :
    let dispatched := hangingRuntime.dispatch (fun _ => 3) articleParams articleRequest
    let dispatched' := hangingRuntime.dispatch (fun _ => 5) articleParams articleRequest
    (dispatched'.trace = dispatched.trace ∧ dispatched'.value = dispatched.value) ∨
      ∃ reported, reported <+: dispatched'.trace ∧
        Coroutine.Returns dispatched (reported ++ hangingRuntime.tail .timeout)
          (Exit.timeout.final hangingRuntime) :=
  longer_deadline_extends hangingRuntime (fun _ => 3) (fun _ => 5) articleParams articleRequest ⟨1,0⟩
    rfl (by decide)

end
end SoapAxum.Router
