import SoapAxum.Router.Body
import SoapAxum.Router.Deadline
import SoapAxum.Semantics.Agreement

/-! Two dispatches side by side whose parts do the same at other times. Within their deadlines, an
observer cannot tell them apart. -/
namespace SoapAxum.Router
open SoapAxum.Http SoapAxum.Text SoapAxum.Data SoapAxum.Semantics SoapAxum.Request SoapAxum.Endpoint

section
variable [Platform]

/-- An event without the part that reports it. -/
inductive Observation where
  | hook (index : ℕ) (event : HookEvent)
  | guardAccepted
  | guardRejected
  | bodyRead (body : Bytes)
  | middlewareEntered (request : RouteRequest)
  | middlewareDelegated (request : RouteRequest)
  | middlewareResumed (request : RouteRequest) (outcome : EndpointOutcome)
  | middlewareAbandoned
  | targetCalled (request : RouteRequest)
  | applyingPolicies (response : Response)

def observe : Event → Option Observation
  | .hook index event => some (.hook index event)
  | .guardAccepted _ => some .guardAccepted
  | .guardRejected _ => some .guardRejected
  | .bodyRead body => some (.bodyRead body)
  | .middlewareEntered _ request => some (.middlewareEntered request)
  | .middlewareDelegated _ request => some (.middlewareDelegated request)
  | .middlewareResumed _ request outcome => some (.middlewareResumed request outcome)
  | .middlewareAbandoned _ => some .middlewareAbandoned
  | .targetCalled request => some (.targetCalled request)
  | .applyingPolicies response => some (.applyingPolicies response)

/-- The same answer or the same delegation, with second halves that do the same. A middleware that
drops the rest at a suspension is never the same as another, for it depends on the time. -/
inductive SameHandling : Handling → Handling → Prop
  | shortCircuit (request : RouteRequest) (outcome : EndpointOutcome) :
      SameHandling (.shortCircuit request outcome) (.shortCircuit request outcome)
  | delegate (request : RouteRequest)
      (after after' : RouteRequest → EndpointOutcome → Future (RouteRequest × EndpointOutcome))
      (same : ∀ request outcome, (after request outcome).value = (after' request outcome).value) :
      SameHandling (.delegate request after) (.delegate request after')

def SameGuard (guard guard' : EndpointGuard) : Prop :=
  ∀ head, (guard.check head).value = (guard'.check head).value

def SameMiddleware (middleware middleware' : EndpointMiddleware) : Prop :=
  ∀ request, Option.Rel SameHandling (middleware.handle request).value
    (middleware'.handle request).value

def SameTarget (target target' : EndpointTarget) : Prop :=
  ∀ request, (target.call request).value = (target'.call request).value

/-- The same endpoint with parts that do the same, each in its own time. -/
structure SameParts (runtime runtime' : EndpointRuntime) : Prop where
  endpoint : runtime.endpoint = runtime'.endpoint
  target : SameTarget runtime.target runtime'.target
  guards : List.Forall₂ SameGuard runtime.guards runtime'.guards
  middleware : List.Forall₂ SameMiddleware runtime.middleware runtime'.middleware
  hooks : runtime.hooks.length = runtime'.hooks.length
  errorMapper : runtime.errorMapper = runtime'.errorMapper
  maxBodyBytes : runtime.maxBodyBytes = runtime'.maxBodyBytes

/-- The same request whose body may arrive in other chunks. -/
structure SameRequest (request request' : IncomingRequest) : Prop where
  method : request.method = request'.method
  uri : request.uri = request'.uri
  headers : request.headers = request'.headers
  extensions : request.extensions = request'.extensions
  body : request.body.SameContent request'.body

/-- The computations look the same and give the same. -/
abbrev LooksSame {α : Type} (p p' : Coroutine Event α) : Prop := Agree observe observe Eq p p'

lemma looksSame_stage {target target' : EndpointTarget} (h : SameTarget target target')
    (request : RouteRequest) : LooksSame (target.stage request) (target'.stage request) := by
  refine Agree.bind (Agree.report rfl) fun _ _ _ => ?_
  refine Agree.bind (Agree.await (rel_eq_of_eq (h request))) fun outcome outcome' ho => ?_
  subst ho
  exact Agree.pure rfl

theorem looksSame_around {middleware middleware' : EndpointMiddleware} {next next' : Stage}
    (h : SameMiddleware middleware middleware')
    (hnext : ∀ request, LooksSame (next request) (next' request)) (request : RouteRequest) :
    LooksSame (middleware.around next request) (middleware'.around next' request) := by
  refine Agree.bind (Agree.report rfl) fun _ _ _ => ?_
  refine Agree.bind (Agree.await (h request)) fun handling handling' hh => ?_
  cases hh with
  | shortCircuit seen outcome => exact Agree.pure rfl
  | delegate left after after' same =>
    refine Agree.bind (Agree.report rfl) fun _ _ _ => ?_
    refine Agree.bind (hnext left) fun result result' hr => ?_
    subst hr
    refine Agree.bind (Agree.report rfl) fun _ _ _ => ?_
    exact Agree.await (rel_eq_of_eq (same _ _))

theorem looksSame_run {target target' : EndpointTarget} {middleware middleware' : List EndpointMiddleware}
    (ht : SameTarget target target') (hm : List.Forall₂ SameMiddleware middleware middleware')
    (request : RouteRequest) :
    LooksSame (EndpointNext.run ⟨middleware,target⟩ request)
      (EndpointNext.run ⟨middleware',target'⟩ request) := by
  change LooksSame (runFrom target middleware request) (runFrom target' middleware' request)
  induction hm generalizing request with
  | nil => exact looksSame_stage ht request
  | cons first rest ih => exact looksSame_around first ih request

theorem looksSame_checkGuards {guards guards' : List EndpointGuard}
    (h : List.Forall₂ SameGuard guards guards') (head : RouteRequestHead) :
    LooksSame (EndpointRuntime.checkGuards guards head) (EndpointRuntime.checkGuards guards' head) := by
  induction h generalizing head with
  | nil => exact Agree.pure rfl
  | cons first rest ih =>
    refine Agree.bind (Agree.await (rel_eq_of_eq (first head))) fun checked checked' hc => ?_
    subst hc
    obtain ⟨left,result⟩ := checked
    cases result with
    | error rejection =>
      refine Agree.bind (Agree.report rfl) fun _ _ _ => ?_
      exact Agree.pure rfl
    | ok u =>
      refine Agree.bind (Agree.report rfl) fun _ _ _ => ?_
      exact ih left

namespace SameParts

variable {runtime runtime' : EndpointRuntime} (h : SameParts runtime runtime')
include h

lemma notify (event : HookEvent) :
    Agree observe observe (fun _ _ => True) (runtime.notify event) (runtime'.notify event) := by
  refine Agree.reportAll ?_
  rw [h.hooks]

lemma applyPolicies (response : Response) :
    LooksSame (runtime.applyPolicies response) (runtime'.applyPolicies response) := by
  refine Agree.bind (Agree.report rfl) fun _ _ _ => ?_
  rw [h.errorMapper,h.endpoint]
  exact Agree.pure rfl

/-- Both finish with the same response and show it to their hooks. -/
theorem finish {before before' : Response} (hbefore : before = before')
    (event : ResponseView → HookEvent) :
    LooksSame (do
      let response ← runtime.applyPolicies before
      runtime.notify (event (.ofResponse response))
      pure response) (do
      let response ← runtime'.applyPolicies before'
      runtime'.notify (event (.ofResponse response))
      pure response) := by
  subst hbefore
  refine Agree.bind (h.applyPolicies before) fun response response' hr => ?_
  subst hr
  refine Agree.bind (h.notify _) fun _ _ _ => ?_
  exact Agree.pure rfl

lemma errorResponse (error : SoapError) : Router.errorResponse runtime.errorMapper error =
    Router.errorResponse runtime'.errorMapper error := by
  rw [h.errorMapper]

lemma respond (request : RouteRequest) :
    LooksSame (runtime.respond request) (runtime'.respond request) := by
  refine Agree.bind (h.notify _) fun _ _ _ => ?_
  refine Agree.bind (looksSame_run h.target h.middleware request) fun result result' hr => ?_
  subst hr
  refine Agree.bind (h.notify _) fun _ _ _ => ?_
  refine h.finish ?_ (.response result.1)
  rw [h.errorMapper,h.endpoint]

theorem readBody {body body' : Body} (hb : body.SameContent body') :
    (runtime.readBody body).value = (runtime'.readBody body').value := by
  have hlimit : runtime.bodyLimit = runtime'.bodyLimit := by
    rw [EndpointRuntime.bodyLimit,EndpointRuntime.bodyLimit,h.endpoint,h.maxBodyBytes]
  have hlong : runtime.tooLong = runtime'.tooLong := by
    rw [EndpointRuntime.tooLong,EndpointRuntime.tooLong,hlimit]
  have hfailure : runtime.bodyFailure = runtime'.bodyFailure := by
    funext error
    cases error with
    | lengthLimit => exact hlong
    | other source => rfl
  simp only [EndpointRuntime.value_readBody,hlimit,hlong,hfailure,hb.bytes,hb.ending]

theorem readAndRespond (head : RouteRequestHead) {body body' : Body} (hb : body.SameContent body') :
    LooksSame (runtime.readAndRespond head body) (runtime'.readAndRespond head body') := by
  refine Agree.bind (Agree.await (rel_eq_of_eq (h.readBody hb))) fun result result' hr => ?_
  subst hr
  cases result with
  | error error => exact h.finish (h.errorResponse error) (.bodyRejection head error)
  | ok bytes =>
    refine Agree.bind (Agree.report rfl) fun _ _ _ => ?_
    exact h.respond _

theorem normalizeHead {request request' : IncomingRequest} (hr : SameRequest request request')
    (params : List (Str × Str)) :
    (runtime'.normalizeHead params request') =
      (runtime.normalizeHead params request).map fun normalized => (normalized.1,request'.body) := by
  simp only [EndpointRuntime.normalizeHead,← hr.method,← hr.uri,← hr.headers,← hr.extensions,
    ← h.endpoint]
  cases parseCookies request.headers with
  | error error => rfl
  | ok cookies =>
    cases parseQuery request.uri.query with
    | error error => rfl
    | ok query => rfl

/-- Without deadlines, both dispatches look the same. -/
theorem dispatchPipeline {request request' : IncomingRequest} (hr : SameRequest request request')
    (params : List (Str × Str)) :
    LooksSame (runtime.dispatchPipeline params request) (runtime'.dispatchPipeline params request') := by
  rw [EndpointRuntime.dispatchPipeline,EndpointRuntime.dispatchPipeline,h.normalizeHead hr]
  cases hn : runtime.normalizeHead params request with
  | error error =>
    have hevent : HookEvent.normalizationRejection runtime.endpoint error =
        HookEvent.normalizationRejection runtime'.endpoint error := by rw [h.endpoint]
    simp only [Except.map,← hevent]
    exact h.finish (h.errorResponse error) (.normalizationRejection runtime.endpoint error)
  | ok normalized =>
    obtain ⟨head,body⟩ := normalized
    obtain ⟨_,_,-,-,-,rfl⟩ := EndpointRuntime.normalizeHead_eq_ok.mp hn
    refine Agree.bind (h.notify _) fun _ _ _ => ?_
    refine Agree.bind (looksSame_checkGuards h.guards head) fun checked checked' hc => ?_
    subst hc
    obtain ⟨seen,rejected⟩ := checked
    cases rejected with
    | none => exact h.readAndRespond seen hr.body
    | some rejection =>
      refine h.finish ?_ (.guardRejection seen rejection.error)
      rw [h.errorMapper]

end SameParts

/-- The dispatch is not cut short by a deadline. -/
def InTime (runtime : EndpointRuntime) (clock : Duration → ℕ) (params : List (Str × Str))
    (request : IncomingRequest) : Prop :=
  ∀ deadline, runtime.endpoint.timeout = some deadline →
    (runtime.dispatchPipeline params request).suspensions ≤ clock deadline

theorem dispatch_of_inTime {runtime : EndpointRuntime} {clock : Duration → ℕ}
    {params : List (Str × Str)} {request : IncomingRequest} (h : InTime runtime clock params request) :
    (runtime.dispatch clock params request).trace = (runtime.dispatchPipeline params request).trace ∧
      (runtime.dispatch clock params request).value =
        (runtime.dispatchPipeline params request).value := by
  cases hd : runtime.endpoint.timeout with
  | none =>
    rw [EndpointRuntime.dispatch,hd]
    exact ⟨rfl,rfl⟩
  | some deadline => exact EndpointRuntime.dispatch_in_time hd (h deadline hd)

/-- What is answered and what hooks, middleware and target see depends on what the guards, the
middleware and the target do and on the content of the body, never on how long any of it takes or
on the chunks of the body, as long as no deadline passes. -/
theorem dispatch_independent_of_timing (runtime runtime' : EndpointRuntime)
    (clock clock' : Duration → ℕ) (params : List (Str × Str)) (request request' : IncomingRequest)
    (hparts : SameParts runtime runtime') (hrequest : SameRequest request request')
    (htime : InTime runtime clock params request) (htime' : InTime runtime' clock' params request') :
    (runtime.dispatch clock params request).trace.filterMap observe =
        (runtime'.dispatch clock' params request').trace.filterMap observe ∧
      (runtime.dispatch clock params request).value =
        (runtime'.dispatch clock' params request').value := by
  obtain ⟨htrace,hvalue⟩ := dispatch_of_inTime htime
  obtain ⟨htrace',hvalue'⟩ := dispatch_of_inTime htime'
  have hpipeline := hparts.dispatchPipeline hrequest params
  rw [htrace,htrace',hvalue,hvalue']
  exact ⟨hpipeline.seen,hpipeline.value_eq⟩

end

section
local instance timingPlatform : Platform := referencePlatform

/-- The target of an article that takes a while. -/
def slowArticleRuntime : EndpointRuntime :=
  { articleRuntime cachedEndpoint (varyOutcome []) with
    target := ⟨fun _ => .pending (.pending (.done (varyOutcome [])))⟩ }

/-- The request for an article whose body ends a little later. -/
def slowArticleRequest : IncomingRequest := { articleRequest with body := .pending .done }

theorem dispatch_independent_of_timing_article :
    (slowArticleRuntime.dispatch (fun _ => 0) articleParams slowArticleRequest).value =
      some (withPolicies referenceErrorMapper cachedEndpoint
        (outcomeResponse referenceErrorMapper cachedEndpoint.successStatus (varyOutcome []))) := by
  have hparts : SameParts (articleRuntime cachedEndpoint (varyOutcome [])) slowArticleRuntime :=
    ⟨rfl,fun _ => rfl,.nil,.nil,rfl,rfl,rfl⟩
  have hrequest : SameRequest articleRequest slowArticleRequest := ⟨rfl,rfl,rfl,rfl,⟨rfl,rfl⟩⟩
  have hsame := (dispatch_independent_of_timing _ _ (fun _ => 0) (fun _ => 0) articleParams
    articleRequest slowArticleRequest hparts hrequest nofun nofun).2
  exact hsame.symm.trans (returns_article (varyOutcome [])).2

end

end SoapAxum.Router
