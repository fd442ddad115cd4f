import SoapAxum.Endpoint.Pipeline

/-! Middleware as an onion: the first halves run inwards up to the middleware that answers or the
target, the second halves run outwards, and each sees what its neighbour left. -/
namespace SoapAxum.Endpoint
open SoapAxum.Http SoapAxum.Data SoapAxum.Semantics SoapAxum.Request SoapAxum.Router

section
variable [Platform]

/-- Running the pipeline is folding the middleware over the target. -/
theorem EndpointNext.run_eq_foldr (target : EndpointTarget) (middleware : List EndpointMiddleware) :
    EndpointNext.run ⟨middleware,target⟩ =
      middleware.foldr EndpointMiddleware.around target.stage := by
  induction middleware with
  | nil => rfl
  | cons first rest ih => exact congrArg first.around ih

/-- The middleware answers itself or awaits the rest of the pipeline, it never drops it. -/
def EndpointMiddleware.AnswersOrDelegates (middleware : EndpointMiddleware) : Prop :=
  ∀ request seen polls after, (middleware.handle request).value ≠ some (.abandon seen polls after)

/-- A middleware that was passed on the way in and on the way out. -/
structure Passed where
  middleware : EndpointMiddleware
  entered : RouteRequest
  left : RouteRequest
  after : RouteRequest → EndpointOutcome → Future (RouteRequest × EndpointOutcome)
  received : RouteRequest × EndpointOutcome
  returned : RouteRequest × EndpointOutcome

/-- Both halves are the middleware's own. -/
def Passed.Valid (passed : Passed) : Prop :=
  (passed.middleware.handle passed.entered).value = some (.delegate passed.left passed.after) ∧
    (passed.after passed.received.1 passed.received.2).value = some passed.returned

def Passed.inwards (passed : Passed) : List Event :=
  [.middlewareEntered passed.middleware passed.entered,
    .middlewareDelegated passed.middleware passed.left]

def Passed.outwards (passed : Passed) : Event :=
  .middlewareResumed passed.middleware passed.received.1 passed.received.2

/-- What is inside all passed middleware: one that answers, or the target if none is left. -/
inductive Core (target : EndpointTarget) : List EndpointMiddleware → RouteRequest → List Event →
    RouteRequest × EndpointOutcome → Prop
  | shortCircuit (middleware : EndpointMiddleware) (inner : List EndpointMiddleware)
      (request seen : RouteRequest) (outcome : EndpointOutcome)
      (h : (middleware.handle request).value = some (.shortCircuit seen outcome)) :
      Core target (middleware :: inner) request [.middlewareEntered middleware request] (seen,outcome)
  | target (request : RouteRequest) (outcome : EndpointOutcome)
      (h : (target.call request).value = some outcome) :
      Core target [] request [.targetCalled request] (request,outcome)

/-- Requests are handed inwards and outcomes outwards, each from one middleware to the next. -/
def Onion (target : EndpointTarget) (middleware : List EndpointMiddleware) (request : RouteRequest)
    (trace : List Event) (result : RouteRequest × EndpointOutcome) : Prop :=
  ∃ (passed : List Passed) (inner : List EndpointMiddleware) (coreTrace : List Event)
    (coreRequest : RouteRequest) (coreResult : RouteRequest × EndpointOutcome),
    middleware = passed.map Passed.middleware ++ inner ∧ (∀ p ∈ passed, p.Valid) ∧
    Core target inner coreRequest coreTrace coreResult ∧
    passed.map Passed.entered ++ [coreRequest] = request :: passed.map Passed.left ∧
    result :: passed.map Passed.received = passed.map Passed.returned ++ [coreResult] ∧
    trace = passed.flatMap Passed.inwards ++ coreTrace ++ passed.reverse.map Passed.outwards

theorem returns_stage {target : EndpointTarget} {request : RouteRequest} {trace : List Event}
    {result : RouteRequest × EndpointOutcome} :
    Coroutine.Returns (target.stage request) trace result ↔
      Core target [] request trace result := by
  simp only [EndpointTarget.stage,Coroutine.returns_report_bind,Coroutine.returns_await_bind,
    Coroutine.returns_pure]
  constructor
  · rintro ⟨_,rfl,outcome,ho,rfl,rfl⟩
    exact .target request outcome ho
  · rintro ⟨⟩
    exact ⟨[],rfl,_,‹_›,rfl,rfl⟩

/-- A middleware that delegates reports what the next stage reports, between two events of its own. -/
theorem returns_delegate {middleware : EndpointMiddleware} {next : Stage} {left : RouteRequest}
    {after : RouteRequest → EndpointOutcome → Future (RouteRequest × EndpointOutcome)}
    {trace : List Event} {result : RouteRequest × EndpointOutcome} :
    Coroutine.Returns (do
      .report (.middlewareDelegated middleware left)
      let (request,outcome) ← next left
      .report (.middlewareResumed middleware request outcome)
      .await (after request outcome)) trace result ↔
    ∃ inner u, Coroutine.Returns (next left) u inner ∧ (after inner.1 inner.2).value = some result ∧
      trace = .middlewareDelegated middleware left :: (u ++
        [.middlewareResumed middleware inner.1 inner.2]) := by
  simp only [Coroutine.returns_report_bind,Coroutine.returns_bind (p := next left),
    Coroutine.returns_await]
  constructor
  · rintro ⟨_,rfl,inner,u,_,hn,⟨_,rfl,rfl,ha⟩,rfl⟩
    exact ⟨inner,u,hn,ha,rfl⟩
  · rintro ⟨inner,u,hn,ha,rfl⟩
    exact ⟨_,rfl,inner,u,_,hn,⟨[],rfl,rfl,ha⟩,rfl⟩

/-- A middleware that drops nothing either answers itself, or hands the request to the next stage
and the outcome of that to its second half. -/
theorem returns_around {middleware : EndpointMiddleware} {next : Stage} {request : RouteRequest}
    {trace : List Event} {result : RouteRequest × EndpointOutcome}
    (hm : middleware.AnswersOrDelegates) :
    Coroutine.Returns (middleware.around next request) trace result ↔
      ((middleware.handle request).value = some (.shortCircuit result.1 result.2) ∧
        trace = [.middlewareEntered middleware request]) ∨
      ∃ left after inner u, (middleware.handle request).value = some (.delegate left after) ∧
        Coroutine.Returns (next left) u inner ∧ (after inner.1 inner.2).value = some result ∧
        trace = [.middlewareEntered middleware request,.middlewareDelegated middleware left] ++ u ++
          [.middlewareResumed middleware inner.1 inner.2] := by
  simp only [EndpointMiddleware.around,Coroutine.returns_report_bind,Coroutine.returns_await_bind]
  constructor
  · rintro ⟨_,rfl,handling,hh,hr⟩
    cases handling with
    | shortCircuit seen outcome =>
      obtain ⟨rfl,rfl⟩ := Coroutine.returns_pure.mp hr
      exact Or.inl ⟨hh,rfl⟩
    | delegate left after =>
      obtain ⟨inner,u,hn,ha,rfl⟩ := returns_delegate.mp hr
      exact Or.inr ⟨left,after,inner,u,hh,hn,ha,rfl⟩
    | abandon seen polls after => exact absurd hh (hm request seen polls after)
  · rintro (⟨hh,rfl⟩ | ⟨left,after,inner,u,hh,hn,ha,rfl⟩)
    · exact ⟨[],rfl,_,hh,Coroutine.returns_pure.mpr ⟨rfl,rfl⟩⟩
    · exact ⟨_,rfl,_,hh,returns_delegate.mpr ⟨inner,u,hn,ha,rfl⟩⟩

theorem onion_nil {target : EndpointTarget} {request : RouteRequest} {trace : List Event}
    {result : RouteRequest × EndpointOutcome} :
    Onion target [] request trace result ↔ Core target [] request trace result := by
  constructor
  · rintro ⟨passed,inner,coreTrace,coreRequest,coreResult,hm,-,hc,hr,ho,rfl⟩
    obtain ⟨hp,rfl⟩ := List.append_eq_nil_iff.mp hm.symm
    obtain rfl := List.map_eq_nil_iff.mp hp
    obtain rfl : coreRequest = request := by simpa using hr
    obtain rfl : result = coreResult := by simpa using ho
    simpa using hc
  · intro hc
    exact ⟨[],[],trace,request,result,rfl,by simp,hc,rfl,rfl,by simp⟩

/-- The outermost middleware either is the core or was passed around an inner onion. -/
theorem onion_cons {target : EndpointTarget} {first : EndpointMiddleware}
    {rest : List EndpointMiddleware} {request : RouteRequest} {trace : List Event}
    {result : RouteRequest × EndpointOutcome} :
    Onion target (first :: rest) request trace result ↔
      ((first.handle request).value = some (.shortCircuit result.1 result.2) ∧
        trace = [.middlewareEntered first request]) ∨
      ∃ left after inner u, (first.handle request).value = some (.delegate left after) ∧
        Onion target rest left u inner ∧ (after inner.1 inner.2).value = some result ∧
        trace = [.middlewareEntered first request,.middlewareDelegated first left] ++ u ++
          [.middlewareResumed first inner.1 inner.2] := by
  constructor
  · rintro ⟨passed,inner,coreTrace,coreRequest,coreResult,hm,hv,hc,hr,ho,rfl⟩
    cases passed with
    | nil =>
      obtain rfl : coreRequest = request := by simpa using hr
      obtain rfl : result = coreResult := by simpa using ho
      obtain rfl : first :: rest = inner := by simpa using hm
      cases hc with
      | shortCircuit _ _ _ seen outcome h => exact Or.inl ⟨h,by simp⟩
    | cons p passed =>
      simp only [List.map_cons,List.cons_append,List.cons.injEq] at hm hr ho
      obtain ⟨rfl,rfl⟩ := hm
      obtain ⟨rfl,hr⟩ := hr
      obtain ⟨rfl,ho⟩ := ho
      obtain ⟨hp,hv⟩ := List.forall_mem_cons.mp hv
      have hrest : Onion target (passed.map Passed.middleware ++ inner) p.left
          (passed.flatMap Passed.inwards ++ coreTrace ++ passed.reverse.map Passed.outwards)
          p.received :=
        ⟨passed,inner,coreTrace,coreRequest,coreResult,rfl,hv,hc,hr,ho,rfl⟩
      refine Or.inr ⟨p.left,p.after,p.received,_,hp.1,hrest,hp.2,?_⟩
      simp [Passed.inwards,Passed.outwards]
  · rintro (⟨hh,rfl⟩ | ⟨left,after,received,_,hh,⟨passed,inner,coreTrace,coreRequest,coreResult,rfl,hv,
      hc,hr,ho,rfl⟩,ha,rfl⟩)
    · exact ⟨[],first :: rest,_,request,result,rfl,by simp,.shortCircuit _ _ _ _ _ hh,rfl,rfl,by simp⟩
    · have hvalid : ∀ p ∈ (⟨first,request,left,after,received,result⟩ : Passed) :: passed, p.Valid :=
        List.forall_mem_cons.mpr ⟨⟨hh,ha⟩,hv⟩
      refine ⟨⟨first,request,left,after,received,result⟩ :: passed,inner,coreTrace,coreRequest,
        coreResult,rfl,hvalid,hc,?_,?_,?_⟩
      · simp [hr]
      · simp [ho]
      · simp [Passed.inwards,Passed.outwards]

/-- The pipeline returns exactly the onions of its middleware. -/
theorem returns_run {target : EndpointTarget} {middleware : List EndpointMiddleware}
    {request : RouteRequest} {trace : List Event} {result : RouteRequest × EndpointOutcome}
    (hm : ∀ m ∈ middleware, m.AnswersOrDelegates) :
    Coroutine.Returns (EndpointNext.run ⟨middleware,target⟩ request) trace result ↔
      Onion target middleware request trace result := by
  rw [EndpointNext.run_eq_foldr]
  induction middleware generalizing request trace result with
  | nil => rw [List.foldr_nil,returns_stage,onion_nil]
  | cons first rest ih =>
    obtain ⟨hfirst,hrest⟩ := List.forall_mem_cons.mp hm
    rw [List.foldr_cons,returns_around hfirst,onion_cons]
    simp only [ih hrest]

end
end SoapAxum.Endpoint
