import SoapAxum.Endpoint.TypedRoute
import SoapAxum.Router.Layers
import SoapAxum.Router.Protection
import SoapAxum.Router.SetCookie

/-! What reaches the client: the answer to a request that a guard refuses, and the response of a typed
route. Both go through the effects and through the policies of the endpoint. -/
namespace SoapAxum.Router
open SoapAxum.Http SoapAxum.Text SoapAxum.Data SoapAxum.Semantics SoapAxum.Request SoapAxum.Endpoint
open SoapAxum.Policy SoapAxum.Guard

section
variable [Platform]

/-- A response after the policies, which only set their own headers. -/
structure Delivered (endpoint : EndpointMetadata) (before response : Response) : Prop where
  status : response.status = before.status
  body : response.body = before.body
  policies : ∀ d ∈ endpointHeaders endpoint, ∃ value, HeaderValue.fromStr d.text = some value ∧
    response.headers.getAll d.name = [value]
  headers : ∀ name, name ∉ (endpointHeaders endpoint).map DeclaredHeader.name →
    (name = .vary → ¬ MergesVary endpoint) →
    response.headers.getAll name = before.headers.getAll name

theorem delivered_final {runtime : EndpointRuntime} {exit : Exit}
    (hp : PoliciesEncode runtime.endpoint) (hv : MergesVary runtime.endpoint →
      varyReadable ((exit.before runtime).headers.getAll .vary) = true) :
    Delivered runtime.endpoint (exit.before runtime) (exit.final runtime) := by
  have hf := translationFailure_eq_none hp hv
  obtain ⟨out,ho,hw,hframe⟩ :=
    withPolicies_of_translates runtime.errorMapper hp.toPoliciesValid hf
  rw [Exit.final,ho]
  exact ⟨rfl,rfl,hw,hframe⟩

theorem returns_dispatch_of_front {runtime : EndpointRuntime} {clock : Duration → ℕ}
    {params : List (Str × Str)} {request : IncomingRequest} {exit : Exit} {front : List Event}
    (htime : InTime runtime clock params request) (h : runtime.Front params request exit front)
    (hne : exit ≠ .timeout) :
    Coroutine.Returns (runtime.dispatch clock params request) (front ++ runtime.tail exit)
      (exit.final runtime) := by
  obtain ⟨htrace,hvalue⟩ := dispatch_of_inTime htime
  rw [Coroutine.Returns,htrace,hvalue]
  exact EndpointRuntime.returns_of_front h hne

/-- A rejection is answered with its error, under its effects. -/
theorem applied_rejectionResponse (mapper : HttpErrorMapper) {rejection : EndpointGuardRejection}
    (h : EffectsEncode rejection.effects) :
    Applied rejection.effects (errorResponse mapper rejection.error)
      (rejectionResponse mapper rejection) := by
  obtain ⟨response,hr,ha⟩ := applyEffects_of_encodes (errorResponse mapper rejection.error) h
  rw [rejectionResponse,hr]
  exact ha

/-- The guard is asked about a head that the guards in front of it have accepted. -/
inductive EndpointRuntime.Consults (runtime : EndpointRuntime) (params : List (Str × Str))
    (request : IncomingRequest) (guard : EndpointGuard) (checked : RouteRequestHead) : Prop
  | mk (head : RouteRequestHead) (body : Body) (before after : List EndpointGuard)
      (normalized : runtime.normalizeHead params request = .ok (head,body))
      (guards : runtime.guards = before ++ guard :: after)
      (accepts : EndpointRuntime.Accepts before head checked)

/-- Neither the body nor the target is touched. -/
def Untouched (trace : List Event) : Prop :=
  (∀ bytes, .bodyRead bytes ∉ trace) ∧ ∀ seen, .targetCalled seen ∉ trace

/-- A refusal reaches the client as the error under the effects, and then under the policies. -/
theorem dispatch_of_rejection {runtime : EndpointRuntime} {clock : Duration → ℕ}
    {params : List (Str × Str)} {request : IncomingRequest} {guard : EndpointGuard}
    {checked seen : RouteRequestHead} {rejection : EndpointGuardRejection}
    (hconsults : runtime.Consults params request guard checked)
    (hrejects : (guard.check checked).value = some (seen,.error rejection))
    (heffects : EffectsEncode rejection.effects) (hpolicies : PoliciesEncode runtime.endpoint)
    (hvary : MergesVary runtime.endpoint → varyReadable (layerOver
      ((errorResponse runtime.errorMapper rejection.error).headers.getAll .vary)
      (rejection.effects.headers.getAll .vary)) = true)
    (htime : InTime runtime clock params request) :
    ∃ trace before response, Coroutine.Returns (runtime.dispatch clock params request) trace response ∧
      Applied rejection.effects (errorResponse runtime.errorMapper rejection.error) before ∧
      Delivered runtime.endpoint before response ∧ Untouched trace := by
  obtain ⟨head,body,accepted,rest,hn,hg,ha⟩ := hconsults
  have hfront := EndpointRuntime.Front.guardRejection head checked seen body accepted rest guard
    rejection hn hg ha hrejects
  have happlied := applied_rejectionResponse runtime.errorMapper heffects
  have hdelivered : Delivered runtime.endpoint ((Exit.guardRejection seen rejection).before runtime)
      ((Exit.guardRejection seen rejection).final runtime) := by
    refine delivered_final hpolicies fun hm => ?_
    rw [Exit.before,happlied.getAll (by decide)]
    exact hvary hm
  refine ⟨_,_,_,returns_dispatch_of_front htime hfront (by simp),happlied,hdelivered,?_,?_⟩
  · intro bytes
    simp [EndpointRuntime.hookEvents,EndpointRuntime.tail]
  · intro request
    simp [EndpointRuntime.hookEvents,EndpointRuntime.tail]

/-- What a client makes of the `Retry-After` header. -/
def readRetryAfter (headers : HeaderMap) : Option ℕ := match headers.getAll .retryAfter with
  | [value] => value.toStr.bind readSeconds
  | _ => none

section
variable [RateLimiting]

/-- A client that the service refuses for some time reads that time in whole seconds, rounded up, at
least one, as far as the integer type goes, in an answer for which neither the body has been read nor
the target been called. -/
theorem exhausted_quota_reaches_client (runtime : EndpointRuntime) (clock : Duration → ℕ)
    (params : List (Str × Str)) (request : IncomingRequest) (guard : RateLimitGuard)
    (checked : RouteRequestHead) (delay : Duration)
    (hconsults : runtime.Consults params request guard.endpointGuard checked)
    (hexhausted : guard.Exhausted checked delay)
    (hnanos : delay.nanos < 1000000000)
    (heffects : ∀ value, EffectsEncode (quotaRejection value).effects)
    (hpolicies : PoliciesEncode runtime.endpoint)
    (hvary : MergesVary runtime.endpoint → varyReadable
      ((errorResponse runtime.errorMapper RateLimiting.rateLimited).headers.getAll .vary) = true)
    (htime : InTime runtime clock params request) :
    let refusal := errorResponse runtime.errorMapper RateLimiting.rateLimited
    ∃ trace response least, Coroutine.Returns (runtime.dispatch clock params request) trace response ∧
      response.status = refusal.status ∧ response.body = refusal.body ∧
      IsLeast {k | 1 ≤ k ∧ asNanos delay ≤ k*1000000000} least ∧
      readRetryAfter response.headers = some (min least u64Max) ∧ Untouched trace := by
  obtain ⟨value,htext,hrejects⟩ := RateLimitGuard.value_check_of_exhausted hexhausted
  obtain ⟨least,hleast,hseconds⟩ := retryAfterSeconds_eq hnanos
  have hnone : (quotaRejection value).effects.headers.getAll .vary = [] :=
    Multimap.getAll_insert_of_ne _ _ (by decide)
  obtain ⟨trace,before,response,hreturns,happlied,hdelivered,huntouched⟩ :=
    dispatch_of_rejection hconsults hrejects (heffects value) hpolicies
      (by rwa [hnone,layerOver,if_pos rfl]) htime
  have hlisted : (quotaRejection value).effects.headers.getAll .retryAfter = [value] :=
    Multimap.getAll_insert_self _ _ _
  have hretry : response.headers.getAll .retryAfter = [value] := by
    have hundeclared := not_mem_endpointHeaders runtime.endpoint .retryAfter (by decide)
    rw [hdelivered.headers _ hundeclared (fun h => absurd h (by decide)),
      happlied.getAll (by decide),hlisted]
    rfl
  refine ⟨trace,response,least,hreturns,?_,?_,hleast,?_,huntouched⟩
  · rw [hdelivered.status,happlied.status]
    rfl
  · rw [hdelivered.body,happlied.body]
    rfl
  · rw [readRetryAfter,hretry]
    simp only [htext,Option.bind_some,CookieAttribute.readSeconds_toDigits,hseconds]

end
section
variable [Authenticating]

/-- A client that is refused sees the error with the challenges of the very guard that refused it, if
it has any and the error is that authentication is missing, and otherwise without. Neither is the body
read nor the target called. -/
theorem challenges_reach_client (runtime : EndpointRuntime) (clock : Duration → ℕ)
    (params : List (Str × Str)) (request : IncomingRequest) (guard : AuthenticationGuard)
    (checked : RouteRequestHead) (error : SoapError) (challenges : HttpResponseEffects)
    (hconsults : runtime.Consults params request guard.endpointGuard checked)
    (hrefuses : guard.Refuses checked error)
    (hchallenges : Authenticating.unauthorizedEffects guard.challenges = .ok challenges)
    (heffects : EffectsEncode (guard.shownEffects error challenges))
    (hpolicies : PoliciesEncode runtime.endpoint)
    (hvary : MergesVary runtime.endpoint → varyReadable (layerOver
      ((errorResponse runtime.errorMapper error).headers.getAll .vary)
      ((guard.shownEffects error challenges).headers.getAll .vary)) = true)
    (htime : InTime runtime clock params request) :
    let shown := guard.shownEffects error challenges
    let refusal := errorResponse runtime.errorMapper error
    ∃ trace response, Coroutine.Returns (runtime.dispatch clock params request) trace response ∧
      response.status = shown.status.getD refusal.status ∧ response.body = refusal.body ∧
      (∀ name, name ≠ .setCookie → name ∉ (endpointHeaders runtime.endpoint).map DeclaredHeader.name →
        (name = .vary → ¬ MergesVary runtime.endpoint) → response.headers.getAll name =
          layerOver (refusal.headers.getAll name) (shown.headers.getAll name)) ∧
      Untouched trace := by
  have hrejects := AuthenticationGuard.value_check_of_refuses hrefuses
  rw [AuthenticationGuard.failure_eq hchallenges] at hrejects
  obtain ⟨trace,before,response,hreturns,happlied,hdelivered,huntouched⟩ :=
    dispatch_of_rejection hconsults hrejects heffects hpolicies hvary htime
  refine ⟨trace,response,hreturns,?_,?_,?_,huntouched⟩
  · rw [hdelivered.status,happlied.status]
  · rw [hdelivered.body,happlied.body]
  · intro name hcookie hundeclared hmerged
    rw [hdelivered.headers name hundeclared hmerged,happlied.getAll hcookie]

end

/-- The middleware returns what it gets back from the rest of the pipeline, once it has run that. -/
structure Relays (middleware : EndpointMiddleware) : Prop where
  answersOrDelegates : middleware.AnswersOrDelegates
  relays : ∀ request left after, (middleware.handle request).value = some (.delegate left after) →
    ∀ back outcome, (after back outcome).value = some (back,outcome)

theorem relays_validationMiddleware (middleware : ValidationMiddleware) :
    Relays middleware.endpointMiddleware where
  answersOrDelegates := middleware.answersOrDelegates
  relays := by
    intro request left after h back outcome
    obtain ⟨rfl,hvalid⟩ := ValidationMiddleware.delegates_iff.mp (.delegate after h)
    have hsame := (ValidationMiddleware.value_handle_of_ok hvalid).symm.trans h
    obtain ⟨-,rfl⟩ := Handling.delegate.inj (Option.some.inj hsame)
    rfl

/-- Through middleware that only relays, the outcome of the target comes back with its request. -/
theorem returns_run_of_passes {target : EndpointTarget} {middleware : List EndpointMiddleware}
    {request seen : RouteRequest} {outcome : EndpointOutcome} (hm : ∀ m ∈ middleware, Relays m)
    (hp : Passes middleware request seen) (ht : (target.call seen).value = some outcome) :
    ∃ inner, Coroutine.Returns (EndpointNext.run ⟨middleware,target⟩ request) inner (seen,outcome) := by
  change ∃ inner, Coroutine.Returns (runFrom target middleware request) inner _
  induction hp with
  | nil request => exact ⟨_,returns_stage.mpr (.target request outcome ht)⟩
  | cons first remaining request left seen delegates rest ih =>
    obtain ⟨hfirst,hrest⟩ := List.forall_mem_cons.mp hm
    obtain ⟨inner,hinner⟩ := ih hrest ht
    rcases delegates with ⟨after,hh⟩ | ⟨polls,after,hh⟩
    · have hback := hfirst.relays request left after hh seen outcome
      exact ⟨_,(returns_around hfirst.answersOrDelegates).mpr
        (Or.inr ⟨left,after,(seen,outcome),inner,hh,hinner,hback,rfl⟩)⟩
    · exact absurd hh (hfirst.answersOrDelegates request left polls after)

/-- Without effects of the middleware, a route response is under its own effects alone. -/
theorem applied_outcomeResponse (mapper : HttpErrorMapper) (successStatus : StatusCode)
    {routeResponse : RouteResponse} (hnew : EffectsEncode .new)
    (h : EffectsEncode routeResponse.effects) :
    Applied routeResponse.effects (routeResponse.base successStatus)
      (outcomeResponse mapper successStatus (.success routeResponse)) := by
  have hroute : EffectsEncode (EndpointOutcome.success routeResponse).routeEffects := h
  obtain ⟨mid,hmid,hlast⟩ := outcomeResponse_of_encodes mapper successStatus hroute hnew
  obtain ⟨values,hencoded,hheaders⟩ := hmid.headers
  refine ⟨hlast.status.trans hmid.status,hlast.body.trans hmid.body,values,hencoded,fun name => ?_⟩
  obtain ⟨none,hnone,hsame⟩ := hlast.headers
  obtain rfl := List.forall₂_nil_left_iff.mp hnone
  have hempty : (EndpointOutcome.success routeResponse).effects.headers.getAll name = [] :=
    Multimap.getAll_empty name
  rw [hsame,if_pos hempty,ite_self,List.append_nil]
  exact hheaders name

/-- Behind middleware that only relays, the JSON of a typed route reaches the client byte for byte, as
JSON, with the status and the headers that the output was mapped to under its effects. -/
theorem typed_json_reaches_client {I O WireInput WireOutput : Type} (runtime : EndpointRuntime)
    (clock : Duration → ℕ) (params : List (Str × Str)) (request : IncomingRequest)
    (io : TypedJsonRouteIo I O WireInput WireOutput)
    (operation : RouteRequest → I → Future (SoapResult O)) (seen : RouteRequest) (input : I)
    (output : O) (answer : JsonResponse WireOutput) (bytes : Bytes)
    (htarget : runtime.target = mappedTarget io.routeIo operation)
    (hmiddleware : ∀ m ∈ runtime.middleware, Relays m)
    (hreceives : runtime.Receives params request seen) (hadmits : Endpoint.Admits io seen input)
    (hoperation : (operation seen input).value = some (.ok output))
    (hanswer : io.mapOutput output seen.endpoint = .ok answer)
    (hbytes : io.toVec answer.value = .ok bytes) (hnew : EffectsEncode .new)
    (heffects : EffectsEncode answer.effects) (hpolicies : PoliciesEncode runtime.endpoint)
    (hvary : MergesVary runtime.endpoint → varyReadable (layerOver (answer.headers.getAll .vary)
      (answer.effects.headers.getAll .vary)) = true)
    (htime : InTime runtime clock params request) :
    ∃ trace response, Coroutine.Returns (runtime.dispatch clock params request) trace response ∧
      response.body = bytes ∧ response.status = answer.effects.status.getD
        (answer.status.getD runtime.endpoint.successStatus) ∧
      response.headers.getAll .contentType =
        layerOver [applicationJson] (answer.effects.headers.getAll .contentType) ∧
      ∀ name, name ≠ .contentType → name ≠ .setCookie →
        name ∉ (endpointHeaders runtime.endpoint).map DeclaredHeader.name →
        (name = .vary → ¬ MergesVary runtime.endpoint) → response.headers.getAll name =
          layerOver (answer.headers.getAll name) (answer.effects.headers.getAll name) := by
  obtain ⟨head,admitted,body,bytesRead,hn,ha,hb,hp⟩ := hreceives
  let routeResponse := (answer.header .contentType applicationJson).withBytes bytes
  have hcall : (runtime.target.call seen).value = some (.success routeResponse) := by
    rw [htarget]
    change (invoke io.routeIo operation seen).mute.value = _
    rw [Coroutine.value_mute,TypedJsonRouteIo.value_invoke hadmits hoperation hanswer hbytes]
  obtain ⟨inner,hinner⟩ := returns_run_of_passes hmiddleware hp hcall
  have hfront := EndpointRuntime.Front.response head admitted body bytesRead inner seen _ hn ha hb
    hinner
  have hroute : EffectsEncode routeResponse.effects := heffects
  have happlied : Applied answer.effects (routeResponse.base runtime.endpoint.successStatus)
      ((Exit.response seen (.success routeResponse)).before runtime) :=
    applied_outcomeResponse runtime.errorMapper runtime.endpoint.successStatus hnew hroute
  have hbelow : ∀ name, (routeResponse.base runtime.endpoint.successStatus).headers.getAll name =
      if name = .contentType then [applicationJson] else answer.headers.getAll name :=
    fun name => Multimap.getAll_insert _ _ _ _
  have hdelivered : Delivered runtime.endpoint
      ((Exit.response seen (.success routeResponse)).before runtime)
      ((Exit.response seen (.success routeResponse)).final runtime) := by
    refine delivered_final hpolicies fun hm => ?_
    rw [happlied.getAll (by decide),hbelow,if_neg (by decide)]
    exact hvary hm
  refine ⟨_,_,returns_dispatch_of_front htime hfront (by simp),?_,?_,?_,?_⟩
  · rw [hdelivered.body,happlied.body]
    rfl
  · rw [hdelivered.status,happlied.status]
    rfl
  · have hundeclared := not_mem_endpointHeaders runtime.endpoint .contentType (by decide)
    rw [hdelivered.headers _ hundeclared (fun h => absurd h (by decide)),happlied.getAll (by decide),
      hbelow,if_pos rfl]
  · intro name hcontent hcookie hundeclared hmerged
    rw [hdelivered.headers name hundeclared hmerged,happlied.getAll hcookie,hbelow,if_neg hcontent]

end

section
local instance deliveryPlatform : Platform := referencePlatform
local instance deliveryRateLimiting : RateLimiting := referenceRateLimiting

/-- Everybody has to wait for one and a half seconds. -/
def exhaustedGuard : RateLimitGuard :=
  ⟨forwarding fun _ _ => .done (.ok (.rejected ⟨1,500000000⟩)),builtInKeyResolver⟩

def exhaustedRuntime : EndpointRuntime :=
  { articleRuntime { cachedEndpoint with rateLimit := some tenPerMinute } (varyOutcome []) with
    guards := [patientGuard,exhaustedGuard.endpointGuard,patientGuard] }

theorem exhausted_quota_reaches_client_article : ∃ trace response,
    Coroutine.Returns (exhaustedRuntime.dispatch (fun _ => 0) articleParams articleRequest) trace
      response ∧ readRetryAfter response.headers = some 2 := by
  have hpolicies : PoliciesEncode exhaustedRuntime.endpoint :=
    ⟨⟨cachedEndpoint_policiesEncode.security,cachedEndpoint_policiesEncode.cache⟩,
      cachedEndpoint_policiesEncode.cacheControl⟩
  have heffects : ∀ value, EffectsEncode (quotaRejection value).effects :=
    fun value => ⟨rfl,by simp [quotaRejection,HttpResponseEffects.new]⟩
  have htime : InTime exhaustedRuntime (fun _ => 0) articleParams articleRequest := by
    rintro deadline ⟨⟩
  obtain ⟨checked,hconsults,hexhausted⟩ : ∃ checked,
      exhaustedRuntime.Consults articleParams articleRequest exhaustedGuard.endpointGuard checked ∧
      exhaustedGuard.Exhausted checked ⟨1,500000000⟩ :=
    ⟨_,.mk _ _ [patientGuard] [patientGuard] rfl rfl (.cons _ _ _ _ _ rfl (.nil _)),
      .mk tenPerMinute _ _ rfl rfl rfl rfl⟩
  obtain ⟨trace,response,least,hreturns,-,-,⟨⟨-,hwait⟩,hleast⟩,hread,-⟩ :=
    exhausted_quota_reaches_client exhaustedRuntime (fun _ => 0) articleParams articleRequest
      exhaustedGuard checked ⟨1,500000000⟩ hconsults hexhausted (by decide) heffects hpolicies
      (fun _ => by decide) htime
  have hbound : least ≤ 2 := hleast ⟨by decide,by decide⟩
  have hwait : 1500000000 ≤ least*1000000000 := hwait
  obtain rfl : least = 2 := by omega
  exact ⟨trace,response,hreturns,hread⟩

/-- A mapping that takes a JSON body as it is and returns it as created. -/
def echoIo : TypedJsonRouteIo Bytes Bytes Bytes Bytes where
  fromSlice := .ok
  toVec := .ok
  mapInput _ input := .ok input
  mapOutput output _ := .ok ((JsonResponse.new output).setStatus 201)

def echoRuntime : EndpointRuntime :=
  { articleRuntime cachedEndpoint (varyOutcome []) with
    target := mappedTarget echoIo.routeIo fun _ input => .done (.ok input)
    middleware := [bodyValidation.endpointMiddleware] }

def echoRequest : IncomingRequest :=
  { articleRequest with
    headers := Multimap.empty.insert .contentType applicationJson
    body := .data (utf8 "[1,".toList) (.pending (.data (utf8 "2]".toList) .done)) }

theorem typed_json_reaches_client_article : ∃ trace response,
    Coroutine.Returns (echoRuntime.dispatch (fun _ => 0) articleParams echoRequest) trace response ∧
      response.body = utf8 "[1,2]".toList ∧ response.status = 201 := by
  have hmiddleware : ∀ m ∈ echoRuntime.middleware, Relays m := by
    intro m hm
    obtain rfl := List.mem_singleton.mp hm
    exact relays_validationMiddleware bodyValidation
  have hreceives : echoRuntime.Receives articleParams echoRequest _ :=
    .mk _ _ _ (utf8 "[1,2]".toList) rfl (.nil _) rfl
      (.cons _ _ _ _ _ (ValidationMiddleware.delegates_iff.mpr ⟨rfl,rfl⟩) (.nil _))
  obtain ⟨trace,response,hreturns,hbody,hstatus,-⟩ := typed_json_reaches_client echoRuntime
    (fun _ => 0) articleParams echoRequest echoIo (fun _ input => .done (.ok input)) _
    (utf8 "[1,2]".toList) _ _ _ rfl hmiddleware hreceives ⟨rfl,rfl,_,rfl,rfl⟩ rfl rfl rfl encodes_new
    encodes_new cachedEndpoint_policiesEncode (fun _ => by decide) nofun
  exact ⟨trace,response,hreturns,hbody,hstatus⟩

end

section
local instance challengePlatform : Platform := namedPlatform

def wwwAuthenticate : HeaderName := ⟨"www-authenticate".toList,by decide⟩

/-- Names as before, and challenges that are sent as they are. -/
@[reducible] def challengingAuthenticating : Authenticating :=
  { namedAuthenticating with
    AuthChallenge := HeaderValue
    unauthorizedEffects challenges := .ok { HttpResponseEffects.new with
      headers := Multimap.empty.appendAll wwwAuthenticate challenges } }

local instance challengeAuthenticating : Authenticating := challengingAuthenticating

/-- A guard that knows nobody. -/
def strangerGuard : AuthenticationGuard :=
  .challenge (.new fun _ _ => pure (.error (.new unauthorized "sign in first")))
    (.fromStatic "Bearer" (by decide))

def strangerRuntime : EndpointRuntime :=
  { namedRuntime [] with guards := [patientGuard,strangerGuard.endpointGuard] }

theorem challenges_reach_client_article : ∃ trace response,
    Coroutine.Returns (strangerRuntime.dispatch (fun _ => 0) [] namedRequest) trace response ∧
      response.headers.getAll wwwAuthenticate = [.fromStatic "Bearer" (by decide)] := by
  have hpolicies : PoliciesEncode strangerRuntime.endpoint := by
    refine ⟨⟨?_,?_⟩,?_⟩
    · rintro policy ⟨⟩
      exact ⟨rfl,by unfold EncodableHeaders; decide⟩
    · rintro policy ⟨⟩
      rfl
    · rintro policy ⟨⟩
      exact ⟨"public, max-age=60".toList,by decide⟩
  obtain ⟨trace,response,hreturns,-,-,hheaders,-⟩ := challenges_reach_client strangerRuntime
    (fun _ => 0) [] namedRequest strangerGuard namedHead (.new unauthorized "sign in first")
    _ (.mk namedHead .done [patientGuard] [] rfl rfl (.cons _ _ _ _ _ rfl (.nil _)))
    (.unauthenticated rfl) rfl
    ⟨rfl,fun cookie h => absurd h List.not_mem_nil⟩ hpolicies (fun _ => by decide) nofun
  have hundeclared := not_mem_endpointHeaders strangerRuntime.endpoint wwwAuthenticate (by decide)
  exact ⟨trace,response,hreturns,(hheaders wwwAuthenticate (by decide) hundeclared
    (fun h => absurd h (by decide))).trans rfl⟩

end
end SoapAxum.Router
