import SoapAxum.Endpoint.Passage
import SoapAxum.Router.Admission
import SoapAxum.Router.Phases
import SoapAxum.Router.Timing

/-! Which requests get to the target of an endpoint, and in which form. -/
namespace SoapAxum.Router
open SoapAxum.Http SoapAxum.Text SoapAxum.Data SoapAxum.Semantics SoapAxum.Request SoapAxum.Endpoint

section
variable [Platform]

namespace EndpointRuntime

theorem accepts_append {before after : List EndpointGuard} {head seen : RouteRequestHead} :
    Accepts (before ++ after) head seen ↔ ∃ mid, Accepts before head mid ∧ Accepts after mid seen := by
  induction before generalizing head with
  | nil =>
    constructor
    · intro h
      exact ⟨head,.nil head,h⟩
    · rintro ⟨mid,⟨⟩,h⟩
      exact h
  | cons first before ih =>
    constructor
    · rintro (_ | ⟨_,_,_,left,_,accepted,hrest⟩)
      obtain ⟨mid,hbefore,hafter⟩ := ih.mp hrest
      exact ⟨mid,.cons first before head left mid accepted hbefore,hafter⟩
    · rintro ⟨mid,_ | ⟨_,_,_,left,_,accepted,hbefore⟩,hafter⟩
      exact .cons first (before ++ after) head left seen accepted (ih.mpr ⟨mid,hbefore,hafter⟩)

/-- The request gets to the target as `seen`: its head is normalized, the guards accept it, the body
is read, and the middleware hand it on. -/
inductive Receives (runtime : EndpointRuntime) (params : List (Str × Str))
    (request : IncomingRequest) (seen : RouteRequest) : Prop
  | mk (head admitted : RouteRequestHead) (body : Body) (bytes : Bytes)
      (normalized : runtime.normalizeHead params request = .ok (head,body))
      (accepts : Accepts runtime.guards head admitted)
      (read : (runtime.readBody body).value = some (.ok bytes))
      (passes : Passes runtime.middleware (admitted.withBody bytes) seen)

/-- The guards accept the request one after the other, which takes so many suspensions. -/
inductive AcceptsIn : List EndpointGuard → RouteRequestHead → RouteRequestHead → ℕ → Prop
  | nil (head : RouteRequestHead) : AcceptsIn [] head head 0
  | cons (guard : EndpointGuard) (guards : List EndpointGuard) (head left seen : RouteRequestHead)
      (i j : ℕ) (accepted : (guard.check head).Finishes i (left,.ok ()))
      (rest : AcceptsIn guards left seen j) : AcceptsIn (guard :: guards) head seen (i+j)

/-- The request gets to the target as `seen` after the suspensions of the guards, of the body and of
the middleware. -/
inductive ReceivesIn (runtime : EndpointRuntime) (params : List (Str × Str))
    (request : IncomingRequest) (seen : RouteRequest) : ℕ → Prop
  | mk (head admitted : RouteRequestHead) (body : Body) (bytes : Bytes) (i j k : ℕ)
      (normalized : runtime.normalizeHead params request = .ok (head,body))
      (accepts : AcceptsIn runtime.guards head admitted i)
      (read : (runtime.readBody body).Finishes j (.ok bytes))
      (passes : PassesIn runtime.middleware (admitted.withBody bytes) seen k) :
      ReceivesIn runtime params request seen (i+(j+k))

lemma AcceptsIn.accepts {guards : List EndpointGuard} {head seen : RouteRequestHead} {n : ℕ}
    (h : AcceptsIn guards head seen n) : Accepts guards head seen := by
  induction h with
  | nil head => exact .nil head
  | cons guard guards head left seen i j accepted rest ih =>
    exact .cons guard guards head left seen accepted.1 ih

lemma ReceivesIn.receives {runtime : EndpointRuntime} {params : List (Str × Str)}
    {request : IncomingRequest} {seen : RouteRequest} {n : ℕ}
    (h : runtime.ReceivesIn params request seen n) : runtime.Receives params request seen := by
  obtain ⟨head,admitted,body,bytes,i,j,k,hn,ha,hb,hp⟩ := h
  exact .mk head admitted body bytes hn ha.accepts hb.1 hp.passes

theorem finishes_checkGuards {guards : List EndpointGuard} {head seen : RouteRequestHead} {n : ℕ} :
    (checkGuards guards head).Finishes n (seen,none) ↔ AcceptsIn guards head seen n := by
  induction guards generalizing head n with
  | nil =>
    rw [checkGuards,Coroutine.finishes_pure]
    constructor
    · rintro ⟨rfl,h⟩
      obtain rfl := (Prod.mk.inj h).1
      exact .nil seen
    · rintro ⟨⟩
      exact ⟨rfl,rfl⟩
  | cons guard guards ih =>
    rw [checkGuards,Coroutine.finishes_bind]
    constructor
    · rintro ⟨⟨left,result⟩,i,j,hcheck,hrest,rfl⟩
      cases result with
      | error rejection =>
        obtain ⟨-,hnone⟩ := Prod.mk.inj (Option.some.inj hrest.1)
        cases hnone
      | ok u =>
        have accepted := Coroutine.finishes_await.mp hcheck
        exact .cons guard guards head left seen i j accepted (ih.mp hrest)
    · rintro (_ | ⟨_,_,_,left,_,i,j,accepted,hrest⟩)
      exact ⟨(left,.ok ()),i,j,Coroutine.finishes_await.mpr accepted,ih.mpr hrest,rfl⟩

/-- What is answered without the target does not call it. -/
lemma not_reportsAfter_finish {runtime : EndpointRuntime} {before : Response}
    {event : ResponseView → HookEvent} {seen : RouteRequest} {n : ℕ} :
    ¬ Coroutine.ReportsAfter (.targetCalled seen) n (do
      let response ← runtime.applyPolicies before
      runtime.notify (event (.ofResponse response))
      pure response : Coroutine Event Response) := fun h => by
  obtain ⟨t,ht⟩ := Coroutine.exists_reaches.mpr ⟨n,h⟩
  exact not_reaches_finish ht

lemma not_reportsAfter_checkGuards {guards : List EndpointGuard} {head : RouteRequestHead}
    {seen : RouteRequest} {n : ℕ} :
    ¬ (checkGuards guards head).ReportsAfter (.targetCalled seen) n := fun h => by
  obtain ⟨t,ht⟩ := Coroutine.exists_reaches.mpr ⟨n,h⟩
  exact not_reaches_checkGuards ht

theorem reportsAfter_respond {runtime : EndpointRuntime} {request seen : RouteRequest} {n : ℕ} :
    (runtime.respond request).ReportsAfter (.targetCalled seen) n ↔
      PassesIn runtime.middleware request seen n := by
  have hafter : ∀ result : RouteRequest × EndpointOutcome, .targetCalled seen ∉ (do
      runtime.notify (.outcome result.1 result.2)
      let response ← runtime.applyPolicies
        (outcomeResponse runtime.errorMapper runtime.endpoint.successStatus result.2)
      runtime.notify (.response result.1 (.ofResponse response))
      pure response : Coroutine Event Response).trace := by
    intro result hm
    obtain ⟨m,h⟩ := Coroutine.mem_trace_iff.mp hm
    exact not_reportsAfter_finish
      ((Coroutine.reportsAfter_reportAll_bind targetCalled_not_mem_hookEvents).mp h)
  refine (Coroutine.reportsAfter_reportAll_bind targetCalled_not_mem_hookEvents).trans ?_
  exact (Coroutine.reportsAfter_bind_left hafter).trans reportsAfter_run

/-- The pipeline calls the target with exactly the request that every guard has accepted, whose body
has been read and that every middleware has handed on, once all of them have taken their time. -/
theorem reportsAfter_dispatchPipeline {runtime : EndpointRuntime} {params : List (Str × Str)}
    {request : IncomingRequest} {seen : RouteRequest} {n : ℕ} :
    (runtime.dispatchPipeline params request).ReportsAfter (.targetCalled seen) n ↔
      runtime.ReceivesIn params request seen n := by
  rw [dispatchPipeline]
  cases hn : runtime.normalizeHead params request with
  | error error =>
    refine iff_of_false not_reportsAfter_finish ?_
    rintro ⟨head,admitted,body,bytes,i,j,k,hok,-,-,-⟩
    cases hn.symm.trans hok
  | ok normalized =>
    obtain ⟨head,body⟩ := normalized
    refine (Coroutine.reportsAfter_reportAll_bind targetCalled_not_mem_hookEvents).trans ?_
    rw [Coroutine.reportsAfter_bind,or_iff_right not_reportsAfter_checkGuards]
    constructor
    · rintro ⟨⟨admitted,rejected⟩,i,m,hguards,h,rfl⟩
      cases rejected with
      | some rejection => exact absurd h not_reportsAfter_finish
      | none =>
        obtain ⟨result,j,k,hread,h,rfl⟩ := Coroutine.reportsAfter_await_bind.mp h
        cases result with
        | error error => exact absurd h not_reportsAfter_finish
        | ok bytes =>
          have hrespond := (Coroutine.reportsAfter_report_bind (by simp)).mp h
          exact .mk head admitted body bytes i j k hn (finishes_checkGuards.mp hguards) hread
            (reportsAfter_respond.mp hrespond)
    · rintro ⟨head',admitted,body',bytes,i,j,k,hok,ha,hb,hp⟩
      obtain ⟨rfl,rfl⟩ := Prod.mk.inj (Except.ok.inj (hn.symm.trans hok))
      refine ⟨(admitted,none),i,j+k,finishes_checkGuards.mpr ha,?_,rfl⟩
      refine Coroutine.reportsAfter_await_bind.mpr ⟨.ok bytes,j,k,hb,?_,rfl⟩
      exact (Coroutine.reportsAfter_report_bind (by simp)).mpr (reportsAfter_respond.mpr hp)

/-- Under a deadline, this happens if it is not later than that. -/
theorem reportsAfter_dispatch {runtime : EndpointRuntime} {clock : Duration → ℕ}
    {params : List (Str × Str)} {request : IncomingRequest} {seen : RouteRequest} {n : ℕ} :
    (runtime.dispatch clock params request).ReportsAfter (.targetCalled seen) n ↔
      runtime.ReceivesIn params request seen n ∧
        ∀ deadline, runtime.endpoint.timeout = some deadline → n ≤ clock deadline := by
  rw [dispatch]
  cases runtime.endpoint.timeout with
  | none =>
    rw [reportsAfter_dispatchPipeline]
    exact (and_iff_left fun deadline h => absurd h (by simp)).symm
  | some deadline =>
    refine (Coroutine.reportsAfter_bind_left fun result hm => ?_).trans ?_
    · obtain ⟨m,h⟩ := Coroutine.mem_trace_iff.mp hm
      cases result with
      | some response => exact h
      | none => exact not_reportsAfter_finish h
    · rw [Coroutine.reportsAfter_timeout,reportsAfter_dispatchPipeline,and_comm]
      simp only [Option.some.injEq,forall_eq']

/-- Whatever the deadline, the target gets nothing else. -/
theorem receives_of_reaches_dispatch {runtime : EndpointRuntime} {clock : Duration → ℕ}
    {params : List (Str × Str)} {request : IncomingRequest} {t : List Event} {seen : RouteRequest}
    (h : (runtime.dispatch clock params request).Reaches t (.targetCalled seen)) :
    runtime.Receives params request seen := by
  obtain ⟨n,hn⟩ := Coroutine.exists_reaches.mp ⟨t,h⟩
  exact (reportsAfter_dispatch.mp hn).1.receives

lemma occurrences_eq_zero {α : Type} {p : Coroutine Event α}
    (h : ∀ t seen, ¬ p.Reaches t (.targetCalled seen)) : p.occurrences Event.isTargetCalled = 0 := by
  rw [Coroutine.occurrences,List.countP_eq_zero]
  intro e he
  obtain ⟨t,after,ht⟩ := List.append_of_mem he
  cases e with
  | targetCalled seen => exact absurd ⟨after,ht⟩ (h t seen)
  | _ => simp [Event.isTargetCalled]

lemma occurrences_notify (runtime : EndpointRuntime) (event : HookEvent) :
    (runtime.notify event).occurrences Event.isTargetCalled = 0 :=
  occurrences_eq_zero fun _ _ h =>
    targetCalled_not_mem_hookEvents (Coroutine.mem_of_reaches_reportAll h)

lemma occurrences_finish (runtime : EndpointRuntime) (before : Response)
    (event : ResponseView → HookEvent) :
    Coroutine.occurrences Event.isTargetCalled (do
      let response ← runtime.applyPolicies before
      runtime.notify (event (.ofResponse response))
      pure response) = 0 :=
  occurrences_eq_zero fun _ _ => not_reaches_finish

lemma occurrences_respond_le (runtime : EndpointRuntime) (request : RouteRequest) :
    (runtime.respond request).occurrences Event.isTargetCalled ≤ 1 := by
  refine Coroutine.occurrences_bind_le_right (occurrences_notify runtime _) fun _ => ?_
  refine Coroutine.occurrences_bind_le_left (occurrences_run_le _ _ _) fun result => ?_
  refine Nat.le_zero.mp ?_
  refine Coroutine.occurrences_bind_le_right (occurrences_notify runtime _) fun _ => ?_
  exact (occurrences_finish runtime _ _).le

theorem occurrences_dispatchPipeline_le (runtime : EndpointRuntime) (params : List (Str × Str))
    (request : IncomingRequest) :
    (runtime.dispatchPipeline params request).occurrences Event.isTargetCalled ≤ 1 := by
  have hfinish : ∀ before (event : ResponseView → HookEvent), _ ≤ 1 := fun before event =>
    (occurrences_finish runtime before event).le.trans (Nat.zero_le 1)
  have hguards : ∀ head, (checkGuards runtime.guards head).occurrences Event.isTargetCalled = 0 :=
    fun _ => occurrences_eq_zero fun _ _ => not_reaches_checkGuards
  rw [dispatchPipeline]
  cases runtime.normalizeHead params request with
  | error error => exact hfinish _ (.normalizationRejection runtime.endpoint error)
  | ok normalized =>
    refine Coroutine.occurrences_bind_le_right (occurrences_notify runtime _) fun _ => ?_
    refine Coroutine.occurrences_bind_le_right (hguards _) fun checked => ?_
    obtain ⟨seen,rejected⟩ := checked
    cases rejected with
    | some rejection => exact hfinish _ (.guardRejection seen rejection.error)
    | none =>
      refine Coroutine.occurrences_bind_le_right (by simp) fun result => ?_
      cases result with
      | error error => exact hfinish _ (.bodyRejection seen error)
      | ok bytes =>
        refine Coroutine.occurrences_bind_le_right (by simp [Event.isTargetCalled]) fun _ => ?_
        exact occurrences_respond_le runtime _

theorem occurrences_dispatch_le (runtime : EndpointRuntime) (clock : Duration → ℕ)
    (params : List (Str × Str)) (request : IncomingRequest) :
    (runtime.dispatch clock params request).occurrences Event.isTargetCalled ≤ 1 := by
  rw [dispatch]
  cases runtime.endpoint.timeout with
  | none => exact occurrences_dispatchPipeline_le runtime params request
  | some timeout =>
    have htimeout := (Coroutine.occurrences_timeout_le (clock timeout) _).trans
      (occurrences_dispatchPipeline_le runtime params request)
    refine Coroutine.occurrences_bind_le_left htimeout fun result => ?_
    cases result with
    | some response => rfl
    | none => exact occurrences_finish runtime _ _

end EndpointRuntime

/-- A dispatch calls the target with exactly the requests that every guard accepts, whose body is read
and that every middleware hands on, if a middleware that drops the rest does so later than that, and
the deadline of the endpoint passes later, too. -/
theorem target_called_iff (runtime : EndpointRuntime) (clock : Duration → ℕ)
    (params : List (Str × Str)) (request : IncomingRequest) (seen : RouteRequest) :
    (∃ t, (runtime.dispatch clock params request).Reaches t (.targetCalled seen)) ↔
      ∃ n, runtime.ReceivesIn params request seen n ∧
        ∀ deadline, runtime.endpoint.timeout = some deadline → n ≤ clock deadline := by
  rw [Coroutine.exists_reaches]
  exact exists_congr fun _ => EndpointRuntime.reportsAfter_dispatch

/-- A guard that takes its time and accepts everybody. -/
def patientGuard : EndpointGuard := ⟨[],fun head => .pending (pure (head,.ok ()))⟩

/-- A middleware that drops the rest of the pipeline at the suspension with the given index. -/
def droppingMiddleware (polls : ℕ) : EndpointMiddleware :=
  ⟨[],fun request => .pending (pure (.abandon request polls fun result =>
    pure (result.getD (request,.failure (.new .timeout "no patience")))))⟩

/-- No dispatch calls its target twice, whatever middleware, guards and deadlines do, and none that
is dropped halfway has called it twice. -/
theorem target_called_at_most_once (runtime : EndpointRuntime) (clock : Duration → ℕ)
    (params : List (Str × Str)) (request : IncomingRequest) :
    (runtime.dispatch clock params request).trace.countP Event.isTargetCalled ≤ 1 ∧
      ∀ t, (runtime.dispatch clock params request).SuspendsAt t →
        t.countP Event.isTargetCalled ≤ 1 := by
  have hdispatch := runtime.occurrences_dispatch_le clock params request
  exact ⟨hdispatch,fun t ht => (Coroutine.countP_le_of_suspendsAt ht).trans hdispatch⟩

end

section
local instance reachPlatform : Platform := referencePlatform

/-- Four suspensions up to the target: of the guard, of the body and of both middleware. -/
def hurriedRuntime : EndpointRuntime :=
  { articleRuntime { cachedEndpoint with timeout := some ⟨30,0⟩ } (varyOutcome []) with
    guards := [patientGuard]
    middleware := [droppingMiddleware 1,droppingMiddleware 0] }

def chunkedRequest : IncomingRequest :=
  { articleRequest with
    body := .data (utf8 "hel".toList) (.pending (.data (utf8 "lo".toList) .done)) }

theorem target_called_article : ∃ seen, seen.normalized.body = utf8 "hello".toList ∧
    ∃ t, (hurriedRuntime.dispatch (fun _ => 4) articleParams chunkedRequest).Reaches t
      (.targetCalled seen) := by
  obtain ⟨seen,hreceives,hbody⟩ : ∃ seen,
      hurriedRuntime.ReceivesIn articleParams chunkedRequest seen 4 ∧
        seen.normalized.body = utf8 "hello".toList :=
    ⟨_,.mk _ _ _ (utf8 "hello".toList) 1 1 2 rfl (.cons _ _ _ _ _ 1 0 ⟨rfl,rfl⟩ (.nil _)) ⟨rfl,rfl⟩
      (.cons _ _ _ _ _ 1 1 (.abandon 1 _ ⟨rfl,rfl⟩ (by decide))
        (.cons _ _ _ _ _ 1 0 (.abandon 0 _ ⟨rfl,rfl⟩ (by decide)) (.nil _))),rfl⟩
  exact ⟨seen,hbody,(target_called_iff hurriedRuntime (fun _ => 4) articleParams chunkedRequest
    seen).mpr ⟨4,hreceives,fun _ _ => Nat.le_refl 4⟩⟩

end
end SoapAxum.Router
