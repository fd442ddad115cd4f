import SoapAxum.Endpoint.Trace
import SoapAxum.Router.Dispatch

/-! What every dispatch does: the ways it can end, what it has reported by then, and what its hooks
have seen. -/
namespace SoapAxum.Router
open SoapAxum.Http SoapAxum.Text SoapAxum.Data SoapAxum.Semantics SoapAxum.Request SoapAxum.Endpoint

theorem filterMap_range {α : Type} (n index : ℕ) (a : α) :
    (List.range n).filterMap (fun i => if i = index then some a else none) =
      if index < n then [a] else [] := by
  induction n with
  | zero => rfl
  | succ n ih =>
    rw [List.range_succ,List.filterMap_append,ih]
    by_cases hlt : index < n
    · simp [hlt,Nat.lt_succ_of_lt hlt,Nat.ne_of_gt hlt]
    · by_cases heq : n = index
      · simp [heq]
      · have hle : ¬ index < n+1 := by omega
        simp [hlt,hle,heq]

section
variable [Platform]

/-- The ways a dispatch ends. -/
inductive Exit where
  | normalizationRejection (error : SoapError)
  | guardRejection (head : RouteRequestHead) (rejection : EndpointGuardRejection)
  | bodyRejection (head : RouteRequestHead) (error : SoapError)
  | response (request : RouteRequest) (outcome : EndpointOutcome)
  | timeout

namespace Exit

/-- The response before the endpoint policies. -/
def before (runtime : EndpointRuntime) : Exit → Response
  | normalizationRejection error => errorResponse runtime.errorMapper error
  | guardRejection _ rejection => rejectionResponse runtime.errorMapper rejection
  | bodyRejection _ error => errorResponse runtime.errorMapper error
  | response _ outcome =>
    outcomeResponse runtime.errorMapper runtime.endpoint.successStatus outcome
  | timeout => errorResponse runtime.errorMapper (EndpointRuntime.timeoutError runtime.endpoint)

/-- The response that is returned. -/
def final (runtime : EndpointRuntime) (exit : Exit) : Response :=
  withPolicies runtime.errorMapper runtime.endpoint (exit.before runtime)

/-- The last event of every hook. -/
def terminal (runtime : EndpointRuntime) (exit : Exit) : HookEvent :=
  let view := ResponseView.ofResponse (exit.final runtime)
  match exit with
  | normalizationRejection error => .normalizationRejection runtime.endpoint error view
  | guardRejection head rejection => .guardRejection head rejection.error view
  | bodyRejection head error => .bodyRejection head error view
  | response request _ => .response request view
  | timeout => .timeout runtime.endpoint (EndpointRuntime.timeoutError runtime.endpoint) view

end Exit

namespace EndpointRuntime

def hookEvents (runtime : EndpointRuntime) (event : HookEvent) : List Event :=
  (List.range runtime.hooks.length).map fun index => .hook index event

/-- What is reported on every exit. -/
def tail (runtime : EndpointRuntime) (exit : Exit) : List Event :=
  .applyingPolicies (exit.before runtime) :: runtime.hookEvents (exit.terminal runtime)

/-- The guards accept one after the other, each with the head as the one before it left it. -/
inductive Accepts : List EndpointGuard → RouteRequestHead → RouteRequestHead → Prop
  | nil (head : RouteRequestHead) : Accepts [] head head
  | cons (guard : EndpointGuard) (guards : List EndpointGuard) (head left seen : RouteRequestHead)
      (accepted : (guard.check head).value = some (left,.ok ())) (rest : Accepts guards left seen) :
      Accepts (guard :: guards) head seen

/-- What has been reported before an exit. -/
inductive Front (runtime : EndpointRuntime) (params : List (Str × Str)) (request : IncomingRequest) :
    Exit → List Event → Prop
  | normalizationRejection (error : SoapError)
      (normalized : runtime.normalizeHead params request = .error error) :
      Front runtime params request (.normalizationRejection error) []
  | guardRejection (head mid seen : RouteRequestHead) (body : Body)
      (accepted rest : List EndpointGuard) (guard : EndpointGuard)
      (rejection : EndpointGuardRejection)
      (normalized : runtime.normalizeHead params request = .ok (head,body))
      (guards : runtime.guards = accepted ++ guard :: rest) (accepts : Accepts accepted head mid)
      (rejects : (guard.check mid).value = some (seen,.error rejection)) :
      Front runtime params request (.guardRejection seen rejection)
        (runtime.hookEvents (.requestHead head) ++ accepted.map .guardAccepted ++
          [.guardRejected guard])
  | bodyRejection (head seen : RouteRequestHead) (body : Body) (error : SoapError)
      (normalized : runtime.normalizeHead params request = .ok (head,body))
      (accepts : Accepts runtime.guards head seen)
      (read : (runtime.readBody body).value = some (.error error)) :
      Front runtime params request (.bodyRejection seen error)
        (runtime.hookEvents (.requestHead head) ++ runtime.guards.map .guardAccepted)
  | response (head seen : RouteRequestHead) (body : Body) (bytes : Bytes) (inner : List Event)
      (left : RouteRequest) (outcome : EndpointOutcome)
      (normalized : runtime.normalizeHead params request = .ok (head,body))
      (accepts : Accepts runtime.guards head seen)
      (read : (runtime.readBody body).value = some (.ok bytes))
      (run : Coroutine.Returns (EndpointNext.run ⟨runtime.middleware,runtime.target⟩
        (seen.withBody bytes)) inner (left,outcome)) :
      Front runtime params request (.response left outcome)
        (runtime.hookEvents (.requestHead head) ++ runtime.guards.map .guardAccepted ++
          .bodyRead bytes :: (runtime.hookEvents (.request (seen.withBody bytes)) ++ inner ++
            runtime.hookEvents (.outcome left outcome)))
  | timeoutBeforeBody (head : RouteRequestHead) (body : Body) (accepted : List EndpointGuard)
      (deadline : runtime.endpoint.timeout.isSome)
      (normalized : runtime.normalizeHead params request = .ok (head,body))
      (guards : accepted <+: runtime.guards) :
      Front runtime params request .timeout
        (runtime.hookEvents (.requestHead head) ++ accepted.map .guardAccepted)
  | timeoutAfterBody (head seen : RouteRequestHead) (body : Body) (bytes : Bytes)
      (inner : List Event) (deadline : runtime.endpoint.timeout.isSome)
      (normalized : runtime.normalizeHead params request = .ok (head,body))
      (accepts : Accepts runtime.guards head seen)
      (read : (runtime.readBody body).value = some (.ok bytes))
      (run : (EndpointNext.run ⟨runtime.middleware,runtime.target⟩
        (seen.withBody bytes)).SuspendsAt inner) :
      Front runtime params request .timeout
        (runtime.hookEvents (.requestHead head) ++ runtime.guards.map .guardAccepted ++
          .bodyRead bytes :: (runtime.hookEvents (.request (seen.withBody bytes)) ++ inner))

lemma returns_applyPolicies_bind {β : Type} {runtime : EndpointRuntime} {response : Response}
    {f : Response → Coroutine Event β} {t : List Event} {b : β} :
    Coroutine.Returns (runtime.applyPolicies response >>= f) t b ↔
      ∃ s, t = .applyingPolicies response :: s ∧ Coroutine.Returns
        (f (withPolicies runtime.errorMapper runtime.endpoint response)) s b := by
  rw [applyPolicies,Coroutine.bind_assoc,Coroutine.returns_report_bind]
  rfl

lemma returns_notify_bind {β : Type} {runtime : EndpointRuntime} {event : HookEvent}
    {f : Unit → Coroutine Event β} {t : List Event} {b : β} :
    Coroutine.Returns (runtime.notify event >>= f) t b ↔
      ∃ s, t = runtime.hookEvents event ++ s ∧ Coroutine.Returns (f ()) s b :=
  Coroutine.returns_reportAll_bind

/-- Applying the policies and telling the hooks is how every exit ends. -/
theorem returns_finish {runtime : EndpointRuntime} {before : Response}
    {event : ResponseView → HookEvent} {t : List Event} {response : Response} :
    Coroutine.Returns (do
      let response ← runtime.applyPolicies before
      runtime.notify (event (.ofResponse response))
      pure response) t response ↔
    response = withPolicies runtime.errorMapper runtime.endpoint before ∧
      t = .applyingPolicies before :: runtime.hookEvents (event (.ofResponse response)) := by
  simp only [returns_applyPolicies_bind,returns_notify_bind,Coroutine.returns_pure]
  constructor
  · rintro ⟨_,rfl,_,rfl,rfl,rfl⟩
    exact ⟨rfl,by simp⟩
  · rintro ⟨rfl,rfl⟩
    exact ⟨_,rfl,[],by simp,rfl,rfl⟩

/-- The guards are checked in order up to the first that rejects. -/
theorem returns_checkGuards {guards : List EndpointGuard} {head seen : RouteRequestHead}
    {rejected : Option EndpointGuardRejection} {t : List Event}
    (h : Coroutine.Returns (checkGuards guards head) t (seen,rejected)) :
    (rejected = none ∧ Accepts guards head seen ∧ t = guards.map .guardAccepted) ∨
    ∃ accepted guard rest mid rejection, guards = accepted ++ guard :: rest ∧
      rejected = some rejection ∧ Accepts accepted head mid ∧
      (guard.check mid).value = some (seen,.error rejection) ∧
      t = accepted.map .guardAccepted ++ [.guardRejected guard] := by
  induction guards generalizing head t with
  | nil =>
    obtain ⟨rfl,hr⟩ := Coroutine.returns_pure.mp h
    obtain ⟨rfl,rfl⟩ := Prod.mk.inj hr
    exact Or.inl ⟨rfl,.nil _,rfl⟩
  | cons guard guards ih =>
    rw [checkGuards,Coroutine.returns_await_bind] at h
    obtain ⟨⟨left,result⟩,hcheck,h⟩ := h
    cases result with
    | error rejection =>
      obtain ⟨s,rfl,hs⟩ := Coroutine.returns_report_bind.mp h
      obtain ⟨rfl,hr⟩ := Coroutine.returns_pure.mp hs
      obtain ⟨rfl,rfl⟩ := Prod.mk.inj hr
      exact Or.inr ⟨[],guard,guards,head,rejection,rfl,rfl,.nil _,hcheck,rfl⟩
    | ok u =>
      obtain ⟨s,rfl,hs⟩ := Coroutine.returns_report_bind.mp h
      rcases ih hs with ⟨rfl,ha,rfl⟩ | ⟨accepted,bad,rest,mid,rejection,rfl,rfl,ha,hbad,rfl⟩
      · exact Or.inl ⟨rfl,.cons guard guards head left seen hcheck ha,rfl⟩
      · exact Or.inr ⟨guard :: accepted,bad,rest,mid,rejection,rfl,rfl,
          .cons guard accepted head left mid hcheck ha,hbad,rfl⟩

/-- While the guards are checked, some of the first have accepted. -/
theorem suspendsAt_checkGuards {guards : List EndpointGuard} {head : RouteRequestHead}
    {t : List Event} (h : (checkGuards guards head).SuspendsAt t) :
    ∃ accepted, accepted <+: guards ∧ t = accepted.map .guardAccepted := by
  induction guards generalizing head t with
  | nil => exact h.elim
  | cons guard guards ih =>
    rw [checkGuards] at h
    rcases Coroutine.suspendsAt_await_bind h with rfl | ⟨⟨head',result⟩,-,hr⟩
    · exact ⟨[],List.nil_prefix,rfl⟩
    · cases result with
      | error rejection =>
        obtain ⟨s,-,hs⟩ := Coroutine.suspendsAt_report_bind.mp hr
        exact hs.elim
      | ok u =>
        obtain ⟨s,rfl,hs⟩ := Coroutine.suspendsAt_report_bind.mp hr
        obtain ⟨accepted,hp,rfl⟩ := ih hs
        exact ⟨guard :: accepted,List.cons_prefix_cons.mpr ⟨rfl,hp⟩,rfl⟩

/-- A finish cannot be suspended, it has no await. -/
theorem not_suspendsAt_finish {runtime : EndpointRuntime} {before : Response}
    {event : ResponseView → HookEvent} {t : List Event} :
    ¬ (do
      let response ← runtime.applyPolicies before
      runtime.notify (event (.ofResponse response))
      pure response : Coroutine Event Response).SuspendsAt t := by
  rw [applyPolicies,Coroutine.bind_assoc,Coroutine.suspendsAt_report_bind]
  rintro ⟨s,-,h⟩
  obtain ⟨u,-,h⟩ := Coroutine.suspendsAt_reportAll_bind.mp h
  exact h

/-- The buffered request runs through middleware and target, and then the dispatch ends. -/
theorem returns_respond {runtime : EndpointRuntime} {request : RouteRequest} {t : List Event}
    {response : Response} (h : Coroutine.Returns (runtime.respond request) t response) :
    ∃ inner left outcome, Coroutine.Returns
        (EndpointNext.run ⟨runtime.middleware,runtime.target⟩ request) inner (left,outcome) ∧
      t = runtime.hookEvents (.request request) ++ inner ++
        runtime.hookEvents (.outcome left outcome) ++ runtime.tail (.response left outcome) ∧
      response = (Exit.response left outcome).final runtime := by
  obtain ⟨s,rfl,hs⟩ := returns_notify_bind.mp h
  obtain ⟨⟨left,outcome⟩,inner,u,hrun,hu,rfl⟩ := Coroutine.returns_bind.mp hs
  obtain ⟨v,rfl,hv⟩ := returns_notify_bind.mp hu
  obtain ⟨rfl,rfl⟩ := returns_finish.mp hv
  exact ⟨inner,left,outcome,hrun,by simp [tail,Exit.before,Exit.terminal,Exit.final],rfl⟩

theorem suspendsAt_respond {runtime : EndpointRuntime} {request : RouteRequest} {t : List Event}
    (h : (runtime.respond request).SuspendsAt t) :
    ∃ inner, (EndpointNext.run ⟨runtime.middleware,runtime.target⟩ request).SuspendsAt inner ∧
      t = runtime.hookEvents (.request request) ++ inner := by
  obtain ⟨s,rfl,hs⟩ := Coroutine.suspendsAt_reportAll_bind.mp h
  rcases Coroutine.suspendsAt_bind.mp hs with hrun | ⟨⟨left,outcome⟩,u,-,rfl,hu⟩
  · exact ⟨s,hrun,rfl⟩
  · obtain ⟨v,-,hv⟩ := Coroutine.suspendsAt_reportAll_bind.mp hu
    exact (not_suspendsAt_finish hv).elim

/-- A pipeline that returns has left by one of its exits, and not by the timeout. -/
theorem front_of_returns_dispatchPipeline {runtime : EndpointRuntime} {params : List (Str × Str)}
    {request : IncomingRequest} {t : List Event} {response : Response}
    (h : Coroutine.Returns (runtime.dispatchPipeline params request) t response) :
    ∃ exit front, runtime.Front params request exit front ∧ t = front ++ runtime.tail exit ∧
      response = exit.final runtime := by
  rw [dispatchPipeline] at h
  cases hn : runtime.normalizeHead params request with
  | error error =>
    rw [hn] at h
    obtain ⟨rfl,rfl⟩ := returns_finish.mp h
    exact ⟨.normalizationRejection error,[],.normalizationRejection error hn,rfl,rfl⟩
  | ok normalized =>
    obtain ⟨head,body⟩ := normalized
    rw [hn] at h
    obtain ⟨s,rfl,hs⟩ := returns_notify_bind.mp h
    obtain ⟨⟨seen,rejected⟩,u,v,hg,hv,rfl⟩ := Coroutine.returns_bind.mp hs
    rcases returns_checkGuards hg with ⟨rfl,ha,rfl⟩ |
      ⟨accepted,guard,rest,mid,rejection,hgs,rfl,ha,hbad,rfl⟩
    · obtain ⟨result,hb,hr⟩ := Coroutine.returns_await_bind.mp hv
      cases result with
      | error error =>
        obtain ⟨rfl,rfl⟩ := returns_finish.mp hr
        exact ⟨.bodyRejection seen error,_,.bodyRejection head seen body error hn ha hb,
          (List.append_assoc _ _ _).symm,rfl⟩
      | ok bytes =>
        obtain ⟨w,rfl,hw⟩ := Coroutine.returns_report_bind.mp hr
        obtain ⟨inner,left,outcome,hrun,rfl,rfl⟩ := returns_respond hw
        exact ⟨.response left outcome,_,.response head seen body bytes inner left outcome hn ha hb hrun,
          by simp,rfl⟩
    · obtain ⟨rfl,rfl⟩ := returns_finish.mp hv
      exact ⟨.guardRejection seen rejection,_,
        .guardRejection head mid seen body accepted rest guard rejection hn hgs ha hbad,by simp [tail,
          Exit.before,Exit.terminal,Exit.final],rfl⟩

/-- A suspended pipeline checks a guard, reads the body or runs middleware and target. -/
theorem front_of_suspendsAt_dispatchPipeline {runtime : EndpointRuntime}
    {params : List (Str × Str)} {request : IncomingRequest} {t : List Event}
    (hd : runtime.endpoint.timeout.isSome)
    (h : (runtime.dispatchPipeline params request).SuspendsAt t) :
    runtime.Front params request .timeout t := by
  rw [dispatchPipeline] at h
  cases hn : runtime.normalizeHead params request with
  | error error =>
    rw [hn] at h
    exact (not_suspendsAt_finish h).elim
  | ok normalized =>
    obtain ⟨head,body⟩ := normalized
    rw [hn] at h
    obtain ⟨s,rfl,hs⟩ := Coroutine.suspendsAt_reportAll_bind.mp h
    rcases Coroutine.suspendsAt_bind.mp hs with hg | ⟨⟨seen,rejected⟩,u,hv,rfl,hu⟩
    · obtain ⟨accepted,hp,rfl⟩ := suspendsAt_checkGuards hg
      exact .timeoutBeforeBody head body accepted hd hn hp
    · rcases returns_checkGuards ⟨rfl,hv⟩ with ⟨rfl,ha,ht⟩ | ⟨accepted,guard,rest,mid,rejection,-,rfl,-⟩
      · rw [ht]
        rcases Coroutine.suspendsAt_await_bind hu with rfl | ⟨result,hb,hr⟩
        · rw [List.append_nil]
          exact .timeoutBeforeBody head body runtime.guards hd hn (List.prefix_refl _)
        · cases result with
          | error error => exact (not_suspendsAt_finish hr).elim
          | ok bytes =>
            obtain ⟨w,rfl,hw⟩ := Coroutine.suspendsAt_report_bind.mp hr
            obtain ⟨inner,hrun,rfl⟩ := suspendsAt_respond hw
            rw [← List.append_assoc]
            exact .timeoutAfterBody head seen body bytes inner hd hn ha hb hrun
      · exact (not_suspendsAt_finish hu).elim

/-- Every completed dispatch has left by one exit, and has then applied the policies and told every
hook. -/
theorem front_of_returns_dispatch {runtime : EndpointRuntime} {clock : Duration → ℕ}
    {params : List (Str × Str)} {request : IncomingRequest} {t : List Event} {response : Response}
    (h : Coroutine.Returns (runtime.dispatch clock params request) t response) :
    ∃ exit front, runtime.Front params request exit front ∧ t = front ++ runtime.tail exit ∧
      response = exit.final runtime := by
  rw [dispatch] at h
  cases hd : runtime.endpoint.timeout with
  | none =>
    rw [hd] at h
    exact front_of_returns_dispatchPipeline h
  | some timeout =>
    rw [hd] at h
    obtain ⟨result,s,u,hr,hu,rfl⟩ := Coroutine.returns_bind.mp h
    cases result with
    | some response' =>
      obtain ⟨rfl,rfl⟩ := Coroutine.returns_pure.mp hu
      rw [List.append_nil]
      exact front_of_returns_dispatchPipeline (Coroutine.returns_of_timeout_some hr)
    | none =>
      obtain ⟨rfl,rfl⟩ := returns_finish.mp hu
      exact ⟨.timeout,s,front_of_suspendsAt_dispatchPipeline (by simp [hd])
        (Coroutine.suspendsAt_of_timeout_none hr),rfl,rfl⟩

end EndpointRuntime

/-- What the hook at an index has seen. -/
def hookTrace (index : ℕ) (trace : List Event) : List HookEvent :=
  trace.filterMap fun
    | .hook i event => if i = index then some event else none
    | _ => none

@[simp] theorem hookTrace_append (index : ℕ) (s t : List Event) :
    hookTrace index (s ++ t) = hookTrace index s ++ hookTrace index t := List.filterMap_append

lemma hookTrace_of_not_hook {index : ℕ} {t : List Event} (h : ∀ e ∈ t, ∀ i event, e ≠ .hook i event) :
    hookTrace index t = [] := by
  rw [hookTrace,List.filterMap_eq_nil_iff]
  intro e he
  cases e with
  | hook i event => exact absurd rfl (h _ he i event)
  | _ => rfl

@[simp] theorem hookTrace_accepted (index : ℕ) (guards : List EndpointGuard) :
    hookTrace index (guards.map .guardAccepted) = [] :=
  hookTrace_of_not_hook (by simp)

lemma hookTrace_of_inner {index : ℕ} {t : List Event} (h : ∀ e ∈ t, e.IsInner) :
    hookTrace index t = [] := by
  refine hookTrace_of_not_hook fun e he i event hc => ?_
  subst hc
  exact h _ he

/-- Every hook sees an event of which all are told, once. -/
theorem hookTrace_hookEvents {runtime : EndpointRuntime} {index : ℕ} (event : HookEvent)
    (h : index < runtime.hooks.length) : hookTrace index (runtime.hookEvents event) = [event] := by
  rw [hookTrace,EndpointRuntime.hookEvents,List.filterMap_map]
  exact (filterMap_range _ _ _).trans (if_pos h)

/-- Until the body is read, a hook sees only the request head. -/
theorem hookTrace_admission {runtime : EndpointRuntime} {index : ℕ} (head : RouteRequestHead)
    (guards : List EndpointGuard) (h : index < runtime.hooks.length) :
    hookTrace index (runtime.hookEvents (.requestHead head) ++ guards.map .guardAccepted) =
      [.requestHead head] := by
  rw [hookTrace_append,hookTrace_hookEvents _ h,hookTrace_accepted,List.append_nil]

/-- From the buffered body on, a hook sees the request, and nothing of middleware and target. -/
theorem hookTrace_invocation {runtime : EndpointRuntime} {index : ℕ} (bytes : Bytes)
    (request : RouteRequest) {inner : List Event} (h : index < runtime.hooks.length)
    (hinner : ∀ e ∈ inner, e.IsInner) :
    hookTrace index (.bodyRead bytes :: (runtime.hookEvents (.request request) ++ inner)) =
      [.request request] := by
  have hread : hookTrace index [.bodyRead bytes] = [] := rfl
  rw [← List.singleton_append,hookTrace_append,hread,hookTrace_append,hookTrace_hookEvents _ h,
    hookTrace_of_inner hinner]
  rfl

/-- What a hook sees of one dispatch with the given response. -/
inductive Lifecycle (runtime : EndpointRuntime) (response : Response) : List HookEvent → Prop
  | normalizationRejection (error : SoapError) : Lifecycle runtime response
      [.normalizationRejection runtime.endpoint error (.ofResponse response)]
  | guardRejection (head seen : RouteRequestHead) (error : SoapError) : Lifecycle runtime response
      [.requestHead head,.guardRejection seen error (.ofResponse response)]
  | bodyRejection (head seen : RouteRequestHead) (error : SoapError) : Lifecycle runtime response
      [.requestHead head,.bodyRejection seen error (.ofResponse response)]
  | response (head : RouteRequestHead) (request left : RouteRequest) (outcome : EndpointOutcome) :
      Lifecycle runtime response [.requestHead head,.request request,.outcome left outcome,
        .response left (.ofResponse response)]
  | timeoutBeforeBody (deadline : runtime.endpoint.timeout.isSome) (head : RouteRequestHead)
      (error : SoapError) : Lifecycle runtime response
      [.requestHead head,.timeout runtime.endpoint error (.ofResponse response)]
  | timeoutAfterBody (deadline : runtime.endpoint.timeout.isSome) (head : RouteRequestHead)
      (request : RouteRequest) (error : SoapError) : Lifecycle runtime response
      [.requestHead head,.request request,.timeout runtime.endpoint error (.ofResponse response)]

/-- Every hook sees the same lifecycle of a completed dispatch, with one last event that shows the
response which is returned. -/
theorem hook_lifecycle (runtime : EndpointRuntime) (clock : Duration → ℕ)
    (params : List (Str × Str)) (request : IncomingRequest) (trace : List Event)
    (response : Response)
    (h : Coroutine.Returns (runtime.dispatch clock params request) trace response) :
    ∃ events, Lifecycle runtime response events ∧
      ∀ index, index < runtime.hooks.length → hookTrace index trace = events := by
  obtain ⟨exit,front,hfront,rfl,rfl⟩ := EndpointRuntime.front_of_returns_dispatch h
  have htail : ∀ index, index < runtime.hooks.length →
      hookTrace index (runtime.tail exit) = [exit.terminal runtime] := by
    intro index hi
    exact hookTrace_hookEvents (exit.terminal runtime) hi
  cases hfront with
  | normalizationRejection error _ =>
    exact ⟨_,.normalizationRejection error,fun index hi => htail index hi⟩
  | guardRejection head _ seen _ accepted _ guard rejection _ _ _ _ =>
    refine ⟨_,.guardRejection head seen rejection.error,fun index hi => ?_⟩
    rw [hookTrace_append,hookTrace_append,hookTrace_admission head accepted hi,htail index hi]
    rfl
  | bodyRejection head seen _ error _ _ _ =>
    refine ⟨_,.bodyRejection head seen error,fun index hi => ?_⟩
    rw [hookTrace_append,hookTrace_admission head runtime.guards hi,htail index hi]
    rfl
  | response head seen _ bytes inner left outcome _ _ _ hrun =>
    refine ⟨_,.response head (seen.withBody bytes) left outcome,fun index hi => ?_⟩
    have hinner : ∀ e ∈ inner, e.IsInner := by
      intro e he
      exact isInner_of_mem_run e (hrun.1 ▸ he)
    rw [← List.cons_append,hookTrace_append,hookTrace_append,
      hookTrace_append index _ (runtime.hookEvents (.outcome left outcome)),
      hookTrace_admission head runtime.guards hi,hookTrace_invocation bytes _ hi hinner,
      hookTrace_hookEvents _ hi,htail index hi]
    rfl
  | timeoutBeforeBody head _ accepted hd _ _ =>
    refine ⟨_,.timeoutBeforeBody hd head (EndpointRuntime.timeoutError runtime.endpoint),
      fun index hi => ?_⟩
    rw [hookTrace_append,hookTrace_admission head accepted hi,htail index hi]
    rfl
  | timeoutAfterBody head seen _ bytes inner hd _ _ _ hrun =>
    refine ⟨_,.timeoutAfterBody hd head (seen.withBody bytes)
      (EndpointRuntime.timeoutError runtime.endpoint),fun index hi => ?_⟩
    have hinner : ∀ e ∈ inner, e.IsInner := by
      intro e he
      exact isInner_of_mem_run e ((Coroutine.prefix_of_suspendsAt hrun).subset he)
    rw [hookTrace_append,hookTrace_append,hookTrace_admission head runtime.guards hi,
      hookTrace_invocation bytes _ hi hinner,htail index hi]
    rfl

end
end SoapAxum.Router
