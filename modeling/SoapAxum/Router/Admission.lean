import SoapAxum.Router.Lifecycle

/-! What has happened by the time a target is called: every guard has accepted, the body has been
read within its limit, and every middleware has delegated. -/
namespace SoapAxum.Router
open SoapAxum.Http SoapAxum.Text SoapAxum.Data SoapAxum.Semantics SoapAxum.Request SoapAxum.Endpoint

/-- A collected body keeps within the limit. -/
theorem length_toBytes_le {limit : ℕ} {body : Body} {bytes : Bytes}
    (h : (toBytes limit body).value = some (.ok bytes)) : bytes.length ≤ limit := by
  induction body generalizing limit bytes with
  | done =>
    obtain rfl := Except.ok.inj (Option.some.inj h)
    exact Nat.zero_le limit
  | data chunk rest ih =>
    rw [toBytes] at h
    split_ifs at h with hlt
    · exact nomatch Option.some.inj h
    · rw [Coroutine.value_bind,Option.bind_eq_some_iff] at h
      obtain ⟨result,hr,hv⟩ := h
      cases result with
      | error error => exact nomatch Option.some.inj hv
      | ok rest' =>
        obtain rfl := Except.ok.inj (Option.some.inj hv)
        have hrest := ih hr
        rw [List.length_append]
        omega
  | failed error => exact nomatch Option.some.inj h
  | pending rest ih => exact ih h
  | stalled => exact nomatch h

section
variable [Platform]

namespace EndpointRuntime

theorem length_readBody_le {runtime : EndpointRuntime} {body : Body} {bytes : Bytes}
    (h : (runtime.readBody body).value = some (.ok bytes)) : bytes.length ≤ runtime.bodyLimit := by
  rw [readBody,Coroutine.value_bind,Option.bind_eq_some_iff] at h
  obtain ⟨result,hr,hv⟩ := h
  cases result with
  | error error => cases error <;> exact nomatch Option.some.inj hv
  | ok read =>
    obtain rfl := Except.ok.inj (Option.some.inj hv)
    exact length_toBytes_le hr

/-- The limit is that of the endpoint and the global cap, whichever is lower. -/
def WithinLimits (runtime : EndpointRuntime) (bytes : Bytes) : Prop :=
  bytes.length ≤ runtime.maxBodyBytes ∧
    ∀ policy, runtime.endpoint.bodyLimit = some policy → bytes.length ≤ policy.maxBytes

lemma bodyLimit_le_policy {runtime : EndpointRuntime} {policy : BodyLimitPolicy}
    (h : runtime.endpoint.bodyLimit = some policy) : runtime.bodyLimit ≤ policy.maxBytes := by
  rw [bodyLimit,h]
  refine (Nat.min_le_left _ _).trans ?_
  change (if _ then _ else _) ≤ _
  split_ifs with hle
  · exact le_rfl
  · exact (Nat.lt_of_not_ge hle).le

lemma withinLimits_of_readBody {runtime : EndpointRuntime} {body : Body} {bytes : Bytes}
    (h : (runtime.readBody body).value = some (.ok bytes)) : runtime.WithinLimits bytes :=
  ⟨(length_readBody_le h).trans (Nat.min_le_right _ _),fun _ hp =>
    (length_readBody_le h).trans (bodyLimit_le_policy hp)⟩

lemma targetCalled_not_mem_hookEvents {runtime : EndpointRuntime} {event : HookEvent}
    {seen : RouteRequest} : .targetCalled seen ∉ runtime.hookEvents event := by
  simp [hookEvents]

theorem not_reaches_finish {runtime : EndpointRuntime} {before : Response}
    {event : ResponseView → HookEvent} {t : List Event} {seen : RouteRequest} :
    ¬ (do
      let response ← runtime.applyPolicies before
      runtime.notify (event (.ofResponse response))
      pure response : Coroutine Event Response).Reaches t (.targetCalled seen) := by
  rw [applyPolicies,Coroutine.bind_assoc,Coroutine.reaches_report_bind (by simp)]
  rintro ⟨s,-,h⟩
  obtain ⟨u,-,h⟩ := (Coroutine.reaches_reportAll_bind targetCalled_not_mem_hookEvents).mp h
  exact Coroutine.reaches_pure h

theorem not_reaches_checkGuards {guards : List EndpointGuard} {head : RouteRequestHead}
    {t : List Event} {seen : RouteRequest} :
    ¬ (checkGuards guards head).Reaches t (.targetCalled seen) := by
  induction guards generalizing head t with
  | nil => exact Coroutine.reaches_pure
  | cons guard guards ih =>
    intro h
    rw [checkGuards] at h
    obtain ⟨⟨head',result⟩,-,h⟩ := Coroutine.reaches_await_bind.mp h
    cases result with
    | error rejection =>
      obtain ⟨s,-,hs⟩ := (Coroutine.reaches_report_bind (by simp)).mp h
      exact Coroutine.reaches_pure hs
    | ok u =>
      obtain ⟨s,-,hs⟩ := (Coroutine.reaches_report_bind (by simp)).mp h
      exact ih hs

/-- All that is reported before the target is called. -/
inductive Admitted (runtime : EndpointRuntime) : List Event → Prop
  | mk (head admitted : RouteRequestHead) (bytes : Bytes) (inner : List Event)
      (accepts : Accepts runtime.guards head admitted)
      (limited : runtime.WithinLimits bytes) (entered : Entered runtime.middleware inner) :
      Admitted runtime
        (runtime.hookEvents (.requestHead head) ++ runtime.guards.map .guardAccepted ++
          .bodyRead bytes :: (runtime.hookEvents (.request (admitted.withBody bytes)) ++ inner))

theorem entered_of_reaches_respond {runtime : EndpointRuntime} {request seen : RouteRequest}
    {t : List Event} (h : (runtime.respond request).Reaches t (.targetCalled seen)) :
    ∃ inner, t = runtime.hookEvents (.request request) ++ inner ∧
      Entered runtime.middleware inner := by
  obtain ⟨s,rfl,hs⟩ := (Coroutine.reaches_reportAll_bind targetCalled_not_mem_hookEvents).mp h
  rcases Coroutine.reaches_bind.mp hs with hrun | ⟨⟨left,outcome⟩,u,-,-,hu⟩
  · exact ⟨s,rfl,entered_of_reaches hrun⟩
  · obtain ⟨v,-,hv⟩ := (Coroutine.reaches_reportAll_bind targetCalled_not_mem_hookEvents).mp hu
    exact absurd hv not_reaches_finish

theorem admitted_of_reaches_dispatchPipeline {runtime : EndpointRuntime} {params : List (Str × Str)}
    {request : IncomingRequest} {t : List Event} {seen : RouteRequest}
    (h : (runtime.dispatchPipeline params request).Reaches t (.targetCalled seen)) :
    runtime.Admitted t := by
  rw [dispatchPipeline] at h
  cases hn : runtime.normalizeHead params request with
  | error error =>
    rw [hn] at h
    exact absurd h not_reaches_finish
  | ok normalized =>
    obtain ⟨head,body⟩ := normalized
    rw [hn] at h
    obtain ⟨s,rfl,hs⟩ := (Coroutine.reaches_reportAll_bind targetCalled_not_mem_hookEvents).mp h
    rcases Coroutine.reaches_bind.mp hs with hg | ⟨⟨admitted,rejected⟩,u,hv,rfl,hu⟩
    · exact absurd hg not_reaches_checkGuards
    · rcases returns_checkGuards ⟨rfl,hv⟩ with ⟨rfl,ha,ht⟩ |
        ⟨_,_,_,_,rejection,-,rfl,-⟩
      · obtain ⟨result,hb,hr⟩ := Coroutine.reaches_await_bind.mp hu
        cases result with
        | error error => exact absurd hr not_reaches_finish
        | ok bytes =>
          obtain ⟨v,rfl,hv⟩ := (Coroutine.reaches_report_bind (by simp)).mp hr
          obtain ⟨inner,rfl,he⟩ := entered_of_reaches_respond hv
          rw [ht,← List.append_assoc]
          exact .mk head admitted bytes inner ha (withinLimits_of_readBody hb) he
      · exact absurd hu not_reaches_finish

/-- No dispatch calls its target before everything in front of it has been passed. -/
theorem admitted_of_reaches_dispatch {runtime : EndpointRuntime} {clock : Duration → ℕ}
    {params : List (Str × Str)} {request : IncomingRequest} {t : List Event} {seen : RouteRequest}
    (h : (runtime.dispatch clock params request).Reaches t (.targetCalled seen)) :
    runtime.Admitted t := by
  rw [dispatch] at h
  cases hd : runtime.endpoint.timeout with
  | none =>
    rw [hd] at h
    exact admitted_of_reaches_dispatchPipeline h
  | some timeout =>
    rw [hd] at h
    rcases Coroutine.reaches_bind.mp h with hp | ⟨result,u,-,-,hu⟩
    · exact admitted_of_reaches_dispatchPipeline (Coroutine.reaches_of_reaches_timeout hp)
    · cases result with
      | some response => exact absurd hu Coroutine.reaches_pure
      | none => exact absurd hu not_reaches_finish

end EndpointRuntime
end
end SoapAxum.Router
