import SoapAxum.Endpoint.Validation
import SoapAxum.Guard.Authentication
import SoapAxum.Guard.RateLimitKey
import SoapAxum.Router.Reach

/-! What is certain about the request in the hands of a target: it is the one that came in, and those
who had to agree to it have agreed. -/
namespace SoapAxum.Router
open SoapAxum.Http SoapAxum.Text SoapAxum.Data SoapAxum.Semantics SoapAxum.Request SoapAxum.Endpoint
open SoapAxum.Guard

/-- Everything that is read from the wire is the same. The client address and the request id are set
by the application. -/
structure SameWire (head head' : NormalizedRequestHead) : Prop where
  method : head.method = head'.method
  uri : head.uri = head'.uri
  headers : head.headers = head'.headers
  cookies : head.cookies = head'.cookies
  pathParameters : head.pathParameters = head'.pathParameters
  queryParameters : head.queryParameters = head'.queryParameters

lemma SameWire.refl (head : NormalizedRequestHead) : SameWire head head :=
  ⟨rfl,rfl,rfl,rfl,rfl,rfl⟩

lemma SameWire.trans {head mid head' : NormalizedRequestHead} (h : SameWire head mid)
    (h' : SameWire mid head') : SameWire head head' :=
  ⟨h.method.trans h'.method,h.uri.trans h'.uri,h.headers.trans h'.headers,
    h.cookies.trans h'.cookies,h.pathParameters.trans h'.pathParameters,
    h.queryParameters.trans h'.queryParameters⟩

section
variable [Platform]

/-- The fields that are private to the adapter are out of the guard's reach. -/
def KeepsHead (guard : EndpointGuard) : Prop :=
  ∀ head left result, (guard.check head).value = some (left,result) →
    left.endpoint = head.endpoint ∧ SameWire left.normalized head.normalized

/-- So they are for a middleware, and so is the body. -/
def KeepsRequest (middleware : EndpointMiddleware) : Prop :=
  ∀ request left, Delegates middleware request left → left.endpoint = request.endpoint ∧
    SameWire left.normalized.head request.normalized.head ∧
    left.normalized.body = request.normalized.body

lemma keepsHead_rateLimitGuard [RateLimiting] (guard : RateLimitGuard) :
    KeepsHead guard.endpointGuard := by
  intro head left result h
  rw [guard.value_endpointGuard,Option.map_eq_some_iff] at h
  obtain ⟨_,-,h⟩ := h
  obtain ⟨rfl,-⟩ := Prod.mk.inj h
  exact ⟨rfl,.refl _⟩

lemma keepsHead_authenticationGuard [Authenticating] (guard : AuthenticationGuard) :
    KeepsHead guard.endpointGuard := by
  intro head left result h
  rcases AuthenticationGuard.value_check h with ⟨_,-,rfl⟩ | ⟨answer,-,-,rfl⟩
  · exact ⟨rfl,.refl _⟩
  · cases answer <;> exact ⟨rfl,.refl _⟩

lemma keepsRequest_validationMiddleware (middleware : ValidationMiddleware) :
    KeepsRequest middleware.endpointMiddleware := by
  intro request left h
  obtain ⟨rfl,-⟩ := ValidationMiddleware.delegates_iff.mp h
  exact ⟨rfl,.refl _,rfl⟩

namespace EndpointRuntime

theorem Accepts.keeps {guards : List EndpointGuard} {head seen : RouteRequestHead}
    (h : Accepts guards head seen) (hkeep : ∀ guard ∈ guards, KeepsHead guard) :
    seen.endpoint = head.endpoint ∧ SameWire seen.normalized head.normalized := by
  induction h with
  | nil head => exact ⟨rfl,.refl _⟩
  | cons guard guards head left seen accepted rest ih =>
    obtain ⟨hguard,hrest⟩ := List.forall_mem_cons.mp hkeep
    obtain ⟨hendpoint,hwire⟩ := hguard head left _ accepted
    obtain ⟨hendpoint',hwire'⟩ := ih hrest
    exact ⟨hendpoint'.trans hendpoint,hwire'.trans hwire⟩

end EndpointRuntime

theorem passes_keeps {middleware : List EndpointMiddleware} {request seen : RouteRequest}
    (h : Passes middleware request seen) (hkeep : ∀ m ∈ middleware, KeepsRequest m) :
    seen.endpoint = request.endpoint ∧
      SameWire seen.normalized.head request.normalized.head ∧
      seen.normalized.body = request.normalized.body := by
  induction h with
  | nil request => exact ⟨rfl,.refl _,rfl⟩
  | cons first remaining request left seen delegates rest ih =>
    obtain ⟨hfirst,hrest⟩ := List.forall_mem_cons.mp hkeep
    obtain ⟨hendpoint,hwire,hbody⟩ := hfirst request left delegates
    obtain ⟨hendpoint',hwire',hbody'⟩ := ih hrest
    exact ⟨hendpoint'.trans hendpoint,hwire'.trans hwire,hbody'.trans hbody⟩

/-- The target works on the request that came in: its endpoint, method, target, headers and body are
those of the wire, and cookies and parameters are what the adapter parsed from them. -/
theorem target_sees_wire_request (runtime : EndpointRuntime) (clock : Duration → ℕ)
    (params : List (Str × Str)) (request : IncomingRequest) (trace : List Event)
    (seen : RouteRequest) (hguards : ∀ guard ∈ runtime.guards, KeepsHead guard)
    (hmiddleware : ∀ m ∈ runtime.middleware, KeepsRequest m)
    (h : (runtime.dispatch clock params request).Reaches trace (.targetCalled seen)) :
    seen.endpoint = runtime.endpoint ∧ seen.normalized.head.method = request.method ∧
      seen.normalized.head.uri = request.uri ∧ seen.normalized.head.headers = request.headers ∧
      parseCookies request.headers = .ok seen.normalized.head.cookies ∧
      parseQuery request.uri.query = .ok seen.normalized.head.queryParameters ∧
      seen.normalized.head.pathParameters = (∅ : BTreeMap Str Str).insertMany params ∧
      request.body.ending = .complete ∧ seen.normalized.body = request.body.bytes ∧
      request.body.bytes.length ≤ runtime.bodyLimit := by
  obtain ⟨head,admitted,body,bytes,hn,ha,hb,hp⟩ := EndpointRuntime.receives_of_reaches_dispatch h
  obtain ⟨cookies,query,hcookies,hquery,rfl,rfl⟩ := EndpointRuntime.normalizeHead_eq_ok.mp hn
  obtain ⟨hend,hle,rfl⟩ := EndpointRuntime.readBody_eq_ok.mp hb
  obtain ⟨hendpoint,hwire⟩ := ha.keeps hguards
  obtain ⟨hendpoint',hwire',hbody⟩ := passes_keeps hp hmiddleware
  have hall := hwire'.trans hwire
  refine ⟨hendpoint'.trans hendpoint,hall.method,hall.uri,hall.headers,?_,?_,hall.pathParameters,
    hend,hbody,hle⟩
  · rw [hcookies,hall.cookies]
    rfl
  · rw [hquery,hall.queryParameters]
    rfl

/-- With a validation middleware anywhere among the others, the target is only called for a request
that the validator has accepted as it was then, whatever the middleware in front of it make of it. -/
theorem validated_before_target (runtime : EndpointRuntime) (clock : Duration → ℕ)
    (params : List (Str × Str)) (request : IncomingRequest) (trace : List Event)
    (seen : RouteRequest) (validation : ValidationMiddleware)
    (before after : List EndpointMiddleware)
    (hm : runtime.middleware = before ++ validation.endpointMiddleware :: after)
    (h : (runtime.dispatch clock params request).Reaches trace (.targetCalled seen)) :
    ∃ head body admitted bytes validated,
      runtime.normalizeHead params request = .ok (head,body) ∧
      EndpointRuntime.Accepts runtime.guards head admitted ∧
      (runtime.readBody body).value = some (.ok bytes) ∧
      Passes before (admitted.withBody bytes) validated ∧
      (validation.service (validationInput validated)).value = some (.ok ()) ∧
      Passes after validated seen := by
  obtain ⟨head,admitted,body,bytes,hn,ha,hb,hp⟩ := EndpointRuntime.receives_of_reaches_dispatch h
  rw [hm] at hp
  obtain ⟨validated,hbefore,_ | ⟨_,_,_,left,_,hd,hafter⟩⟩ := passes_append.mp hp
  obtain ⟨rfl,hvalid⟩ := ValidationMiddleware.delegates_iff.mp hd
  exact ⟨head,body,admitted,bytes,left,hn,ha,hb,hbefore,hvalid,hafter⟩

/-- With a rate limit guard anywhere among the others, the target of an endpoint with a quota is only
called once the limiter has allowed the key that was resolved for the declared rule, if the service in
front of the limiter allows nothing on its own account. -/
theorem quota_before_target [RateLimiting] (runtime : EndpointRuntime) (clock : Duration → ℕ)
    (params : List (Str × Str)) (request : IncomingRequest) (trace : List Event)
    (seen : RouteRequest) (guard : RateLimitGuard) (limiter : RateLimiter)
    (hallows : guard.service.AllowsOnly limiter) (before after : List EndpointGuard)
    (policy : RateLimitPolicy) (hbefore : ∀ g ∈ before, KeepsHead g)
    (hm : runtime.guards = before ++ guard.endpointGuard :: after)
    (hpolicy : runtime.endpoint.rateLimit = some policy)
    (h : (runtime.dispatch clock params request).Reaches trace (.targetCalled seen)) :
    ∃ head body checked rule key, runtime.normalizeHead params request = .ok (head,body) ∧
      EndpointRuntime.Accepts before head checked ∧ DeclaredRule policy rule ∧
      (guard.keyResolver policy checked).value = some (.ok key) ∧
      (limiter key rule).value = some (.ok .allowed) := by
  obtain ⟨head,admitted,body,bytes,hn,ha,-,-⟩ := EndpointRuntime.receives_of_reaches_dispatch h
  rw [hm] at ha
  obtain ⟨checked,ha,_ | ⟨_,_,_,left,_,hguard,-⟩⟩ := EndpointRuntime.accepts_append.mp ha
  have hendpoint : checked.endpoint.rateLimit = some policy := by
    obtain ⟨_,_,-,-,rfl,-⟩ := EndpointRuntime.normalizeHead_eq_ok.mp hn
    rw [(ha.keeps hbefore).1]
    exact hpolicy
  rw [guard.value_endpointGuard,Option.map_eq_some_iff] at hguard
  obtain ⟨result,hcheck,hresult⟩ := hguard
  obtain ⟨-,rfl⟩ := Prod.mk.inj hresult
  rcases (guard.value_check_eq_ok checked).mp hcheck with hnone | ⟨policy',rule,key,hp,hr,hk,hl⟩
  · rw [hendpoint] at hnone
    nomatch hnone
  · obtain rfl := Option.some.inj (hendpoint.symm.trans hp)
    exact ⟨head,body,checked,rule,key,hn,ha,rule_eq_ok.mp hr,hk,hallows key rule hl⟩

/-- With an authentication guard anywhere among the others, the target is only called once the service
has answered for the request and the authorization of that very guard has accepted the answer, each by
the declared endpoint. -/
theorem authenticated_before_target [Authenticating] (runtime : EndpointRuntime)
    (clock : Duration → ℕ) (params : List (Str × Str)) (request : IncomingRequest)
    (trace : List Event) (seen : RouteRequest) (guard : AuthenticationGuard)
    (before after : List EndpointGuard) (hbefore : ∀ g ∈ before, KeepsHead g)
    (hm : runtime.guards = before ++ guard.endpointGuard :: after)
    (h : (runtime.dispatch clock params request).Reaches trace (.targetCalled seen)) :
    ∃ head body checked answer, runtime.normalizeHead params request = .ok (head,body) ∧
      EndpointRuntime.Accepts before head checked ∧ checked.endpoint = runtime.endpoint ∧
      guard.Admits checked answer := by
  obtain ⟨head,admitted,body,bytes,hn,ha,-,-⟩ := EndpointRuntime.receives_of_reaches_dispatch h
  rw [hm] at ha
  obtain ⟨checked,ha,_ | ⟨_,_,_,left,_,hguard,-⟩⟩ := EndpointRuntime.accepts_append.mp ha
  have hendpoint : checked.endpoint = runtime.endpoint := by
    obtain ⟨_,_,-,-,rfl,-⟩ := EndpointRuntime.normalizeHead_eq_ok.mp hn
    exact (ha.keeps hbefore).1
  rcases AuthenticationGuard.value_check hguard with ⟨_,hrejected,-⟩ | ⟨answer,-,hadmits,rfl⟩
  · nomatch hrejected
  · exact ⟨head,body,checked,answer,hn,ha,hendpoint,hadmits⟩

end

/-- A middleware that hands every request on and every answer back. -/
def relayingMiddleware [Platform] : EndpointMiddleware :=
  ⟨[],fun request => .pending (pure (.delegate request fun back outcome => pure (back,outcome)))⟩

section
local instance protectionPlatform : Platform := namedPlatform
local instance protectionAuthenticating : Authenticating := namedAuthenticating
local instance protectionRateLimiting : RateLimiting := referenceRateLimiting

/-- Ten requests a minute. -/
def tenPerMinute : RateLimitPolicy := ⟨10,⟨60,0⟩,none,.global⟩

/-- A limiter that is never exhausted. -/
def generousLimiter : RateLimiter := fun _ _ => .pending (.done (.ok .allowed))

def generousGuard : RateLimitGuard := ⟨forwarding generousLimiter,builtInKeyResolver⟩

/-- A validator of requests that have a body. -/
def bodyValidation : ValidationMiddleware := ⟨fun input => .pending (.done
  (if input.body.isEmpty then .error (.validation "empty body") else .ok ()))⟩

/-- An endpoint with a quota, whose guards and middleware each stand between others. -/
def protectedRuntime : EndpointRuntime :=
  { namedRuntime [] with
    endpoint := { cachedEndpoint with rateLimit := some tenPerMinute,timeout := some ⟨30,0⟩ }
    guards := [patientGuard,aliceGuard.endpointGuard,generousGuard.endpointGuard,patientGuard]
    middleware := [relayingMiddleware,bodyValidation.endpointMiddleware,relayingMiddleware] }

def protectedRequest : IncomingRequest :=
  { namedRequest with body := .pending (.data (utf8 "hello".toList) .done) }

lemma reaches_protected : ∃ trace seen,
    (protectedRuntime.dispatch (fun _ => 10) [] protectedRequest).Reaches trace (.targetCalled seen) :=
  ⟨(protectedRuntime.dispatch (fun _ => 10) [] protectedRequest).trace.take 11,_,_,rfl⟩

lemma keepsHead_patientGuard : KeepsHead patientGuard := by
  intro head left result h
  obtain ⟨rfl,-⟩ := Prod.mk.inj (Option.some.inj h)
  exact ⟨rfl,.refl _⟩

lemma keepsRequest_relayingMiddleware : KeepsRequest relayingMiddleware := by
  rintro request left (⟨after,h⟩ | ⟨polls,after,h⟩)
  · obtain ⟨rfl,-⟩ := Handling.delegate.inj (Option.some.inj h)
    exact ⟨rfl,.refl _,rfl⟩
  · cases h

theorem target_sees_wire_request_article : ∃ trace seen,
    (protectedRuntime.dispatch (fun _ => 10) [] protectedRequest).Reaches trace
      (.targetCalled seen) ∧
      seen.normalized.head.uri = { path := "/articles/1".toList,query := none } := by
  obtain ⟨trace,seen,h⟩ := reaches_protected
  have hguards : ∀ guard ∈ protectedRuntime.guards, KeepsHead guard :=
    List.forall_mem_cons.mpr ⟨keepsHead_patientGuard,List.forall_mem_cons.mpr
      ⟨keepsHead_authenticationGuard aliceGuard,List.forall_mem_cons.mpr
        ⟨keepsHead_rateLimitGuard generousGuard,List.forall_mem_singleton.mpr keepsHead_patientGuard⟩⟩⟩
  have hmiddleware : ∀ m ∈ protectedRuntime.middleware, KeepsRequest m :=
    List.forall_mem_cons.mpr ⟨keepsRequest_relayingMiddleware,List.forall_mem_cons.mpr
      ⟨keepsRequest_validationMiddleware bodyValidation,
        List.forall_mem_singleton.mpr keepsRequest_relayingMiddleware⟩⟩
  obtain ⟨-,-,huri,-⟩ := target_sees_wire_request protectedRuntime (fun _ => 10) [] protectedRequest
    trace seen hguards hmiddleware h
  exact ⟨trace,seen,h,huri⟩

theorem validated_before_target_article : ∃ validated,
    (bodyValidation.service (validationInput validated)).value = some (.ok ()) ∧
      validated.normalized.body = utf8 "hello".toList := by
  obtain ⟨trace,seen,h⟩ := reaches_protected
  obtain ⟨_,body,admitted,bytes,validated,hn,-,hb,hp,hv,-⟩ := validated_before_target protectedRuntime
    (fun _ => 10) [] protectedRequest trace seen bodyValidation [relayingMiddleware]
    [relayingMiddleware] rfl h
  obtain ⟨_,_,-,-,-,rfl⟩ := EndpointRuntime.normalizeHead_eq_ok.mp hn
  obtain ⟨-,-,rfl⟩ := EndpointRuntime.readBody_eq_ok.mp hb
  obtain ⟨-,-,hbody⟩ := passes_keeps hp (List.forall_mem_singleton.mpr keepsRequest_relayingMiddleware)
  exact ⟨validated,hv,hbody⟩

theorem quota_before_target_article : ∃ checked key, checked.endpoint = protectedRuntime.endpoint ∧
    (builtInKeyResolver tenPerMinute checked).value = some (.ok key) ∧
    (generousLimiter key (10,⟨60,0⟩,none)).value = some (.ok .allowed) := by
  obtain ⟨trace,seen,h⟩ := reaches_protected
  have hbefore : ∀ g ∈ [patientGuard,aliceGuard.endpointGuard], KeepsHead g :=
    List.forall_mem_cons.mpr ⟨keepsHead_patientGuard,
      List.forall_mem_singleton.mpr (keepsHead_authenticationGuard aliceGuard)⟩
  obtain ⟨_,_,checked,rule,key,hn,ha,⟨_,hbase,rfl⟩,hkey,hallowed⟩ := quota_before_target
    protectedRuntime (fun _ => 10) [] protectedRequest trace seen generousGuard generousLimiter
    (forwards_forwarding generousLimiter).allowsOnly [patientGuard,aliceGuard.endpointGuard]
    [patientGuard] tenPerMinute hbefore rfl rfl h
  obtain rfl := Except.ok.inj hbase
  obtain ⟨_,_,-,-,rfl,-⟩ := EndpointRuntime.normalizeHead_eq_ok.mp hn
  exact ⟨checked,key,(ha.keeps hbefore).1,hkey,hallowed⟩

theorem authenticated_before_target_article : ∃ checked answer,
    aliceGuard.Admits checked answer ∧ checked.endpoint = protectedRuntime.endpoint := by
  obtain ⟨trace,seen,h⟩ := reaches_protected
  obtain ⟨_,_,checked,answer,-,-,hendpoint,hadmits⟩ := authenticated_before_target protectedRuntime
    (fun _ => 10) [] protectedRequest trace seen aliceGuard [patientGuard]
    [generousGuard.endpointGuard,patientGuard]
    (List.forall_mem_singleton.mpr keepsHead_patientGuard) rfl h
  exact ⟨checked,answer,hadmits,hendpoint⟩

end
end SoapAxum.Router
