import SoapAxum.Endpoint.Onion
import SoapAxum.Endpoint.Trace
import SoapAxum.Semantics.Deadline
import SoapAxum.Semantics.Occurrences

/-! The way of a request through the middleware to the target: which request the target gets, and that
it gets it once. -/
namespace SoapAxum.Endpoint
open SoapAxum.Http SoapAxum.Data SoapAxum.Semantics SoapAxum.Request SoapAxum.Router

section
variable [Platform]

/-- The middleware hands a request to the rest of the pipeline, which it may drop later on. -/
inductive Delegates (middleware : EndpointMiddleware) (request left : RouteRequest) : Prop
  | delegate (after : RouteRequest → EndpointOutcome → Future (RouteRequest × EndpointOutcome))
      (h : (middleware.handle request).value = some (.delegate left after))
  | abandon (polls : ℕ)
      (after : Option (RouteRequest × EndpointOutcome) → Future (RouteRequest × EndpointOutcome))
      (h : (middleware.handle request).value = some (.abandon left polls after))

/-- The request is handed on by one middleware after the other. -/
inductive Passes : List EndpointMiddleware → RouteRequest → RouteRequest → Prop
  | nil (request : RouteRequest) : Passes [] request request
  | cons (middleware : EndpointMiddleware) (remaining : List EndpointMiddleware)
      (request left seen : RouteRequest) (delegates : Delegates middleware request left)
      (rest : Passes remaining left seen) : Passes (middleware :: remaining) request seen

theorem passes_append {before after : List EndpointMiddleware} {request seen : RouteRequest} :
    Passes (before ++ after) request seen ↔
      ∃ mid, Passes before request mid ∧ Passes after mid seen := by
  induction before generalizing request with
  | nil =>
    constructor
    · intro h
      exact ⟨request,.nil request,h⟩
    · rintro ⟨mid,⟨⟩,h⟩
      exact h
  | cons first before ih =>
    constructor
    · rintro (_ | ⟨_,_,_,left,_,hd,hrest⟩)
      obtain ⟨mid,hbefore,hafter⟩ := ih.mp hrest
      exact ⟨mid,.cons first before request left mid hd hbefore,hafter⟩
    · rintro ⟨mid,_ | ⟨_,_,_,left,_,hd,hbefore⟩,hafter⟩
      exact .cons first (before ++ after) request left seen hd (ih.mpr ⟨mid,hbefore,hafter⟩)

/-- The middleware hands a request on after `i` suspensions, and if it drops the rest later on, then
not before that has been suspended `j` times. -/
inductive DelegatesIn (middleware : EndpointMiddleware) (request left : RouteRequest) (i j : ℕ) : Prop
  | delegate (after : RouteRequest → EndpointOutcome → Future (RouteRequest × EndpointOutcome))
      (h : (middleware.handle request).Finishes i (.delegate left after))
  | abandon (polls : ℕ)
      (after : Option (RouteRequest × EndpointOutcome) → Future (RouteRequest × EndpointOutcome))
      (h : (middleware.handle request).Finishes i (.abandon left polls after)) (kept : j ≤ polls)

/-- The request is handed on by one middleware after the other, and gets through after so many
suspensions. -/
inductive PassesIn : List EndpointMiddleware → RouteRequest → RouteRequest → ℕ → Prop
  | nil (request : RouteRequest) : PassesIn [] request request 0
  | cons (middleware : EndpointMiddleware) (remaining : List EndpointMiddleware)
      (request left seen : RouteRequest) (i j : ℕ)
      (delegates : DelegatesIn middleware request left i j) (rest : PassesIn remaining left seen j) :
      PassesIn (middleware :: remaining) request seen (i+j)

lemma DelegatesIn.delegates {middleware : EndpointMiddleware} {request left : RouteRequest} {i j : ℕ}
    (h : DelegatesIn middleware request left i j) : Delegates middleware request left := by
  rcases h with ⟨after,h⟩ | ⟨polls,after,h,-⟩
  · exact .delegate after h.1
  · exact .abandon polls after h.1

lemma PassesIn.passes {middleware : List EndpointMiddleware} {request seen : RouteRequest} {n : ℕ}
    (h : PassesIn middleware request seen n) : Passes middleware request seen := by
  induction h with
  | nil request => exact .nil request
  | cons first remaining request left seen i j delegates rest ih =>
    exact .cons first remaining request left seen delegates.delegates ih

/-- A middleware that delegates reports what the rest of the pipeline reports while it runs. -/
lemma reportsAfter_around {middleware : EndpointMiddleware} {next : Stage}
    {request seen : RouteRequest} {n : ℕ} :
    (middleware.around next request).ReportsAfter (.targetCalled seen) n ↔
      ∃ left i j, DelegatesIn middleware request left i j ∧
        (next left).ReportsAfter (.targetCalled seen) j ∧ n = i+j := by
  rw [EndpointMiddleware.around,Coroutine.reportsAfter_report_bind (by simp),
    Coroutine.reportsAfter_await_bind]
  constructor
  · rintro ⟨handling,i,j,hf,h,rfl⟩
    cases handling with
    | shortCircuit left outcome => exact h.elim
    | delegate left after =>
      have hrest := (Coroutine.reportsAfter_report_bind (by simp)).mp h
      exact ⟨left,i,j,.delegate after hf,(Coroutine.reportsAfter_bind_left (by simp)).mp hrest,rfl⟩
    | abandon left polls after =>
      have hrest := (Coroutine.reportsAfter_report_bind (by simp)).mp h
      have hdropped := (Coroutine.reportsAfter_bind_left fun result => by cases result <;> simp).mp hrest
      obtain ⟨hle,hnext⟩ := Coroutine.reportsAfter_timeout.mp hdropped
      exact ⟨left,i,j,.abandon polls after hf hle,hnext,rfl⟩
  · rintro ⟨left,i,j,⟨after,hf⟩ | ⟨polls,after,hf,hle⟩,hnext,rfl⟩
    · refine ⟨_,i,j,hf,(Coroutine.reportsAfter_report_bind (by simp)).mpr ?_,rfl⟩
      exact (Coroutine.reportsAfter_bind_left (by simp)).mpr hnext
    · refine ⟨_,i,j,hf,(Coroutine.reportsAfter_report_bind (by simp)).mpr ?_,rfl⟩
      refine (Coroutine.reportsAfter_bind_left fun result => by cases result <;> simp).mpr ?_
      exact Coroutine.reportsAfter_timeout.mpr ⟨hle,hnext⟩

lemma reportsAfter_stage {target : EndpointTarget} {request seen : RouteRequest} {n : ℕ} :
    (target.stage request).ReportsAfter (.targetCalled seen) n ↔ n = 0 ∧ seen = request := by
  rw [EndpointTarget.stage,Coroutine.reportsAfter_bind,Coroutine.reportsAfter_report]
  constructor
  · rintro (⟨rfl,h⟩ | ⟨u,i,j,-,h,-⟩)
    · exact ⟨rfl,Event.targetCalled.inj h⟩
    · obtain ⟨outcome,i',j',-,hpure,-⟩ := Coroutine.reportsAfter_await_bind.mp h
      exact hpure.elim
  · rintro ⟨rfl,rfl⟩
    exact Or.inl ⟨rfl,rfl⟩

/-- The target is called with the request as the last middleware hands it on, once all of them have
taken their time, unless one has dropped the rest by then. -/
theorem reportsAfter_run {target : EndpointTarget} {middleware : List EndpointMiddleware}
    {request seen : RouteRequest} {n : ℕ} :
    (EndpointNext.run ⟨middleware,target⟩ request).ReportsAfter (.targetCalled seen) n ↔
      PassesIn middleware request seen n := by
  change (runFrom target middleware request).ReportsAfter _ n ↔ _
  induction middleware generalizing request n with
  | nil =>
    rw [runFrom,reportsAfter_stage]
    constructor
    · rintro ⟨rfl,rfl⟩
      exact .nil seen
    · rintro ⟨⟩
      exact ⟨rfl,rfl⟩
  | cons first rest ih =>
    rw [runFrom,reportsAfter_around]
    constructor
    · rintro ⟨left,i,j,hd,hrest,rfl⟩
      exact .cons first rest request left seen i j hd (ih.mp hrest)
    · rintro (_ | ⟨_,_,_,left,_,i,j,hd,hrest⟩)
      exact ⟨left,i,j,hd,ih.mpr hrest,rfl⟩

def Event.isTargetCalled : Event → Bool
  | .targetCalled _ => true
  | _ => false

/-- A middleware runs the rest of the pipeline at most once. -/
theorem occurrences_around_le {middleware : EndpointMiddleware} {next : Stage} {n : ℕ}
    (hnext : ∀ request, (next request).occurrences Event.isTargetCalled ≤ n)
    (request : RouteRequest) :
    (middleware.around next request).occurrences Event.isTargetCalled ≤ n := by
  rw [EndpointMiddleware.around]
  refine Coroutine.occurrences_bind_le_right (by simp [Event.isTargetCalled]) fun _ => ?_
  refine Coroutine.occurrences_bind_le_right (by simp) fun handling => ?_
  cases handling with
  | shortCircuit left outcome => exact Nat.zero_le n
  | delegate left after =>
    refine Coroutine.occurrences_bind_le_right (by simp [Event.isTargetCalled]) fun _ => ?_
    refine Coroutine.occurrences_bind_le_left (hnext left) fun result => ?_
    simp [Coroutine.occurrences_bind,Event.isTargetCalled]
  | abandon left polls after =>
    have hdropped := (Coroutine.occurrences_timeout_le polls (next left)).trans (hnext left)
    refine Coroutine.occurrences_bind_le_right (by simp [Event.isTargetCalled]) fun _ => ?_
    refine Coroutine.occurrences_bind_le_left hdropped fun result => ?_
    cases result <;> simp [Coroutine.occurrences_bind,Event.isTargetCalled]

theorem occurrences_run_le (target : EndpointTarget) (middleware : List EndpointMiddleware)
    (request : RouteRequest) :
    (EndpointNext.run ⟨middleware,target⟩ request).occurrences Event.isTargetCalled ≤ 1 := by
  rw [EndpointNext.run]
  induction middleware generalizing request with
  | nil =>
    rw [runFrom,Coroutine.occurrences,trace_stage]
    exact Nat.le_refl 1
  | cons first rest ih => exact occurrences_around_le ih request

end
end SoapAxum.Endpoint
