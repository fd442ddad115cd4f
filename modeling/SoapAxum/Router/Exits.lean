import SoapAxum.Http.Reference
import SoapAxum.Router.Layers
import SoapAxum.Router.Lifecycle

/-! The declared response policies on the exits of a dispatch, and the requests that never get as far
as a request head. -/
namespace SoapAxum.Router
open SoapAxum.Http SoapAxum.Text SoapAxum.Data SoapAxum.Semantics SoapAxum.Policy SoapAxum.Request
open SoapAxum.Endpoint

lemma find_cacheControlText_error {policy : ResponseCachePolicy} {error : SoapError}
    (h : cacheControlText policy = .error error) : HttpRejection.find error = none := by
  rw [cacheControlText] at h
  split at h
  · contradiction
  · contradiction
  · contradiction
  · exact Except.error.inj h ▸ rfl

/-- A policy that cannot be translated is no protocol rejection, so its error goes to the mapper. -/
theorem find_translationFailure {endpoint : EndpointMetadata} {headers : HeaderMap}
    {error : SoapError} (h : translationFailure endpoint headers = some error) :
    HttpRejection.find error = none := by
  obtain ⟨policy,-,h⟩ := Option.bind_eq_some_iff.mp h
  rw [cacheFailure] at h
  cases ht : cacheControlText policy with
  | error e =>
    rw [ht] at h
    obtain rfl := Option.some.inj h
    exact find_cacheControlText_error ht
  | ok text =>
    simp only [ht] at h
    split_ifs at h
    exact Option.some.inj h ▸ rfl

lemma contentType_not_mem_declaredHeaders {policy : SecurityHeadersPolicy} {d : DeclaredHeader}
    (h : d ∈ declaredHeaders policy) : d.name ≠ .contentType := by
  have hm := declaredHeaders_names_subset policy (List.mem_map_of_mem (f := DeclaredHeader.name) h)
  intro he
  rw [he] at hm
  exact absurd hm (by decide)

namespace EndpointRuntime

theorem decodeCaptures_eq_ok {captures : List (Str × Str)} :
    (∃ params, decodeCaptures captures = .ok params) ↔
      ∀ capture ∈ captures, (decodeUtf8 (percentDecode (utf8 capture.2))).isSome := by
  induction captures with
  | nil => simp [decodeCaptures]
  | cons capture captures ih =>
    obtain ⟨name,value⟩ := capture
    rw [decodeCaptures,List.forall_mem_cons,← ih]
    cases decodeUtf8 (percentDecode (utf8 value)) with
    | none => simp
    | some decoded =>
      cases decodeCaptures captures with
      | error e => exact iff_of_false (fun ⟨_,h⟩ => nomatch h) (fun ⟨_,_,h⟩ => nomatch h)
      | ok params => exact iff_of_true ⟨_,rfl⟩ ⟨rfl,params,rfl⟩

end EndpointRuntime

section
variable [Platform]

/-- Whenever the policies cannot be translated over a response, the mapper's answer to that has the
declared security headers of its own. -/
def PoliciesSurvive (runtime : EndpointRuntime) (policy : SecurityHeadersPolicy)
    (before : Response) : Prop :=
  ∀ error, translationFailure runtime.endpoint before.headers = some error →
    Carries (runtime.errorMapper error).headers policy

lemma carries_errorResponse {mapper : HttpErrorMapper} {error : SoapError}
    {policy : SecurityHeadersPolicy} (h : HttpRejection.find error = none) :
    Carries (errorResponse mapper error).headers policy ↔ Carries (mapper error).headers policy := by
  refine forall₂_congr fun d hd => exists_congr fun value => and_congr_right fun _ => ?_
  rw [errorResponse,mappedError,h]
  exact (congrArg (· = [value]) (Multimap.getAll_insert_of_ne _ _
    (contentType_not_mem_declaredHeaders hd))).to_iff

theorem carries_withPolicies_iff {runtime : EndpointRuntime} {policy : SecurityHeadersPolicy}
    (hpolicy : runtime.endpoint.securityHeaders = some policy)
    (hvalid : PoliciesValid runtime.endpoint) (before : Response) :
    Carries (withPolicies runtime.errorMapper runtime.endpoint before).headers policy ↔
      PoliciesSurvive runtime policy before := by
  cases hf : translationFailure runtime.endpoint before.headers with
  | none =>
    obtain ⟨out,ho,hw,-⟩ := withPolicies_of_translates runtime.errorMapper hvalid hf
    refine iff_of_true ?_ fun error he => ?_
    · rw [ho]
      intro d hd
      apply hw
      rw [endpointHeaders,hpolicy]
      exact List.mem_append_left _ hd
    · rw [hf] at he
      contradiction
  | some error =>
    have hr : withPolicies runtime.errorMapper runtime.endpoint before =
        errorResponse runtime.errorMapper error := by
      have he := applyResponsePolicies_run_error hvalid hf
      rw [withPolicies]
      generalize (Mutation.run _ before.headers) = out at he ⊢
      obtain ⟨_,_⟩ := out
      obtain rfl := he
      rfl
    rw [hr,carries_errorResponse (find_translationFailure hf),PoliciesSurvive,hf]
    exact ⟨fun h _ he => Option.some.inj he ▸ h,fun h => h error rfl⟩

/-- Every completed dispatch has left by some exit, and the response carries the declared security
headers exactly if they survive the translation of the cache policy over what that exit answers. -/
theorem dispatch_carries_security_headers_iff (runtime : EndpointRuntime)
    (policy : SecurityHeadersPolicy) (clock : Duration → ℕ) (params : List (Str × Str))
    (request : IncomingRequest) (trace : List Event) (response : Response)
    (hpolicy : runtime.endpoint.securityHeaders = some policy)
    (hvalid : PoliciesValid runtime.endpoint)
    (hrun : Coroutine.Returns (runtime.dispatch clock params request) trace response) :
    ∃ exit front, runtime.Front params request exit front ∧ trace = front ++ runtime.tail exit ∧
      (Carries response.headers policy ↔ PoliciesSurvive runtime policy (exit.before runtime)) := by
  obtain ⟨exit,front,hfront,ht,rfl⟩ := EndpointRuntime.front_of_returns_dispatch hrun
  exact ⟨exit,front,hfront,ht,carries_withPolicies_iff hpolicy hvalid _⟩

/-- Some part of the request head is malformed. -/
def Unnormalizable (captures : List (Str × Str)) (request : IncomingRequest) : Prop :=
  (¬ ∃ pairs, CookiePairs (request.headers.getAll .cookie) pairs) ∨
  (∃ query, request.uri.query = some query ∧ (¬ ValidPercentEncoding (utf8 query) ∨
    decodeUtf8 (percentDecode (utf8 query)) = none)) ∨
  ∃ capture ∈ captures, decodeUtf8 (percentDecode (utf8 capture.2)) = none

/-- The adapter answers with a bad request, with the policies applied, and all that happens is that
every hook is told so once. -/
def RejectedInNormalization (runtime : EndpointRuntime) (clock : Duration → ℕ)
    (captures : List (Str × Str)) (request : IncomingRequest) : Prop :=
  ∃ error headers, error.IsBadRequest ∧
    let before := errorResponse runtime.errorMapper error
    let response : Response := { before with headers }
    before.status = 400 ∧ before.headers.getAll .contentType = [applicationJson] ∧
      (applyResponsePolicies runtime.endpoint).run before.headers = (.ok (),headers) ∧
      Coroutine.Returns (runtime.handle clock captures request)
        (.applyingPolicies before :: runtime.hookEvents
          (.normalizationRejection runtime.endpoint error (.ofResponse response))) response

/-- The headers of every bad request before the policies. -/
def badRequestHeaders : HeaderMap := Multimap.empty.insert .contentType applicationJson

/-- Every captured path parameter is UTF-8 once decoded, and the declared policies can be applied to
a bare JSON response. -/
def AdapterAnswers (endpoint : EndpointMetadata) (captures : List (Str × Str)) : Prop :=
  (∀ capture ∈ captures, (decodeUtf8 (percentDecode (utf8 capture.2))).isSome) ∧
    ∃ headers, (applyResponsePolicies endpoint).run badRequestHeaders = (.ok (),headers)

lemma errorResponse_of_isBadRequest (mapper : HttpErrorMapper) {error : SoapError}
    (h : error.IsBadRequest) : (errorResponse mapper error).status = 400 ∧
      (errorResponse mapper error).headers = badRequestHeaders := by
  obtain ⟨message,source,rfl⟩ := h
  exact ⟨rfl,rfl⟩

namespace EndpointRuntime

theorem normalizeHead_error {runtime : EndpointRuntime} {params : List (Str × Str)}
    {request : IncomingRequest} {error : SoapError}
    (h : runtime.normalizeHead params request = .error error) : error.IsBadRequest := by
  rw [normalizeHead] at h
  cases hc : parseCookies request.headers with
  | error e =>
    rw [hc] at h
    obtain rfl := Except.error.inj h
    exact parseCookies_error hc
  | ok cookies =>
    rw [hc] at h
    cases hq : parseQuery request.uri.query with
    | error e =>
      rw [hq] at h
      obtain rfl := Except.error.inj h
      exact parseQuery_error hq
    | ok query =>
      rw [hq] at h
      exact nomatch h

/-- With the captures decoded, a malformed head is one that `normalizeHead` refuses. -/
theorem exists_normalizeHead_error {runtime : EndpointRuntime} {captures params : List (Str × Str)}
    {request : IncomingRequest} (hd : decodeCaptures captures = .ok params)
    (h : Unnormalizable captures request) :
    ∃ error, runtime.normalizeHead params request = .error error := by
  rw [normalizeHead]
  rcases h with hc | hq | ⟨capture,hm,hn⟩
  · obtain ⟨error,he⟩ := exists_parseCookies_error hc
    exact ⟨error,by rw [he]; rfl⟩
  · obtain ⟨error,he⟩ := parseQuery_error_iff.mpr hq
    cases parseCookies request.headers with
    | error e => exact ⟨e,rfl⟩
    | ok cookies => exact ⟨error,by rw [he]; rfl⟩
  · have hs := decodeCaptures_eq_ok.mp ⟨params,hd⟩ capture hm
    rw [hn] at hs
    contradiction

/-- A refused head ends the dispatch at once, whatever the deadline. -/
theorem returns_dispatch_of_normalizeHead_error {runtime : EndpointRuntime}
    {clock : Duration → ℕ} {params : List (Str × Str)} {request : IncomingRequest}
    {error : SoapError} (h : runtime.normalizeHead params request = .error error) :
    Coroutine.Returns (runtime.dispatch clock params request)
      (runtime.tail (.normalizationRejection error))
      ((Exit.normalizationRejection error).final runtime) := by
  have hpipeline : Coroutine.Returns (runtime.dispatchPipeline params request)
      (runtime.tail (.normalizationRejection error))
      ((Exit.normalizationRejection error).final runtime) := by
    rw [dispatchPipeline,h]
    exact returns_finish.mpr ⟨rfl,rfl⟩
  have hnever : ∀ t, ¬ (runtime.dispatchPipeline params request).SuspendsAt t := by
    intro t
    rw [dispatchPipeline,h]
    exact not_suspendsAt_finish
  rw [dispatch]
  cases runtime.endpoint.timeout with
  | none => exact hpipeline
  | some timeout =>
    have hr := Coroutine.returns_timeout_of_not_suspendsAt (n := clock timeout) hnever hpipeline
    exact Coroutine.returns_bind.mpr ⟨_,_,[],hr,Coroutine.returns_pure.mpr ⟨rfl,rfl⟩,
      (List.append_nil _).symm⟩

end EndpointRuntime

/-- An unnormalizable request is rejected by the adapter, in view of its hooks, exactly if its path
parameters decode: otherwise the framework's extractor answers before the adapter runs. -/
theorem unnormalizable_rejected_iff (runtime : EndpointRuntime) (clock : Duration → ℕ)
    (captures : List (Str × Str)) (request : IncomingRequest)
    (hbad : Unnormalizable captures request) :
    RejectedInNormalization runtime clock captures request ↔
      AdapterAnswers runtime.endpoint captures := by
  rw [AdapterAnswers,← EndpointRuntime.decodeCaptures_eq_ok]
  constructor
  · rintro ⟨error,headers,hkind,-,-,happlied,hrun⟩
    refine ⟨?_,headers,?_⟩
    · rw [EndpointRuntime.handle] at hrun
      cases hd : EndpointRuntime.decodeCaptures captures with
      | ok params => exact ⟨params,rfl⟩
      | error name =>
        rw [hd] at hrun
        exact absurd (Coroutine.returns_pure.mp hrun).1 (by simp)
    · rwa [(errorResponse_of_isBadRequest _ hkind).2] at happlied
  · rintro ⟨⟨params,hd⟩,headers,happlied⟩
    obtain ⟨error,hn⟩ : ∃ error, runtime.normalizeHead params request = .error error :=
      EndpointRuntime.exists_normalizeHead_error hd hbad
    have hkind := EndpointRuntime.normalizeHead_error hn
    obtain ⟨hstatus,hheaders⟩ := errorResponse_of_isBadRequest runtime.errorMapper hkind
    have hfinal : (Exit.normalizationRejection error).final runtime =
        { errorResponse runtime.errorMapper error with headers } := by
      change withPolicies runtime.errorMapper runtime.endpoint (errorResponse runtime.errorMapper error)
        = _
      rw [withPolicies,hheaders,happlied]
    refine ⟨error,headers,hkind,hstatus,?_,by rwa [hheaders],?_⟩
    · rw [hheaders,badRequestHeaders,Multimap.getAll_insert_self]
    · have hrun : Coroutine.Returns (runtime.dispatch clock params request) _ _ :=
        EndpointRuntime.returns_dispatch_of_normalizeHead_error hn
      rw [EndpointRuntime.tail,Exit.terminal,hfinal] at hrun
      rw [EndpointRuntime.handle,hd]
      exact hrun

end

section
local instance exitsPlatform : Platform := referencePlatform

/-- A runtime with one hook whose target always gives the same answer. -/
def articleRuntime (endpoint : EndpointMetadata) (outcome : EndpointOutcome) : EndpointRuntime :=
  { endpoint
    target := ⟨fun _ => .done outcome⟩
    guards := []
    middleware := []
    hooks := [()]
    errorMapper := referenceErrorMapper
    maxBodyBytes := 2*1024*1024 }

/-- What the framework captures of the path of an article. -/
def articleParams : List (Str × Str) := [("id".toList,"7".toList)]

/-- A request for an article without any headers. -/
def articleRequest : IncomingRequest :=
  { method := ⟨"GET"⟩
    uri := { path := "/articles/7".toList,query := none }
    headers := Multimap.empty
    extensions := ()
    body := .done }

/-- The dispatch of an article runs through and returns the response of the outcome. -/
theorem returns_article (outcome : EndpointOutcome) :
    Coroutine.Returns
      ((articleRuntime cachedEndpoint outcome).dispatch (fun _ => 0) articleParams articleRequest)
      ((articleRuntime cachedEndpoint outcome).dispatch (fun _ => 0) articleParams articleRequest).trace
      (withPolicies referenceErrorMapper cachedEndpoint
        (outcomeResponse referenceErrorMapper cachedEndpoint.successStatus outcome)) :=
  ⟨rfl,rfl⟩

theorem hook_lifecycle_article :
    ∃ events, Lifecycle (articleRuntime cachedEndpoint (varyOutcome []))
      (withPolicies referenceErrorMapper cachedEndpoint
        (outcomeResponse referenceErrorMapper cachedEndpoint.successStatus (varyOutcome []))) events ∧
      ∀ index, index < 1 → hookTrace index ((articleRuntime cachedEndpoint (varyOutcome [])).dispatch
        (fun _ => 0) articleParams articleRequest).trace = events :=
  hook_lifecycle _ _ _ _ _ _ (returns_article (varyOutcome []))

theorem dispatch_carries_security_headers_article :
    let runtime := articleRuntime cachedEndpoint (varyOutcome [])
    ∃ exit front, runtime.Front articleParams articleRequest exit front ∧
      (runtime.dispatch (fun _ => 0) articleParams articleRequest).trace = front ++ runtime.tail exit ∧
      (Carries (withPolicies referenceErrorMapper cachedEndpoint (outcomeResponse referenceErrorMapper
        cachedEndpoint.successStatus (varyOutcome []))).headers ⟨true,some .deny,none,none,none⟩ ↔
      PoliciesSurvive runtime ⟨true,some .deny,none,none,none⟩ (exit.before runtime)) :=
  dispatch_carries_security_headers_iff _ _ _ _ _ _ _ rfl
    cachedEndpoint_policiesEncode.toPoliciesValid (returns_article (varyOutcome []))

/-- A target that answers with an unreadable `Vary` line is answered without the declared security
headers. -/
theorem dispatch_loses_security_headers :
    let runtime := articleRuntime cachedEndpoint (varyOutcome [⟨[0xFF],by decide⟩])
    ∃ policy trace response, runtime.endpoint.securityHeaders = some policy ∧
      PoliciesValid runtime.endpoint ∧
      Coroutine.Returns (runtime.dispatch (fun _ => 0) articleParams articleRequest) trace response ∧
      ¬ Carries response.headers policy := by
  refine ⟨⟨true,some .deny,none,none,none⟩,_,_,rfl,cachedEndpoint_policiesEncode.toPoliciesValid,
    returns_article _,fun h => ?_⟩
  obtain ⟨value,-,hg⟩ := h ⟨"frame options",.xFrameOptions,"DENY".toList⟩ (by decide)
  have hnone : (withPolicies referenceErrorMapper cachedEndpoint (outcomeResponse referenceErrorMapper
      cachedEndpoint.successStatus (varyOutcome [⟨[0xFF],by decide⟩]))).headers.getAll
      .xFrameOptions = [] := by decide
  rw [hnone] at hg
  exact nomatch hg

/-- A request whose query ends within an escape. -/
def brokenQueryRequest : IncomingRequest :=
  { articleRequest with uri := { path := "/articles/7".toList,query := some "page=%F".toList } }

theorem brokenQueryRequest_unnormalizable :
    Unnormalizable articleParams brokenQueryRequest := by
  have hq : ¬ ValidPercentEncoding (utf8 "page=%F".toList) := by
    have hu : utf8 "page=%F".toList = [0x70,0x61,0x67,0x65,0x3D,0x25,0x46] := by decide
    have he : validatePercentEncoding [0x70,0x61,0x67,0x65,0x3D,0x25,0x46] =
        .error invalidPercentEncoding := rfl
    rw [← validatePercentEncoding_eq_ok,hu,he]
    exact nofun
  exact Or.inr (Or.inl ⟨"page=%F".toList,rfl,Or.inl hq⟩)

theorem unnormalizable_rejected_article :
    RejectedInNormalization (articleRuntime cachedEndpoint (varyOutcome [])) (fun _ => 0)
      articleParams brokenQueryRequest :=
  (unnormalizable_rejected_iff _ _ _ _ brokenQueryRequest_unnormalizable).mpr
    ⟨by decide,_,rfl⟩

/-- A path parameter that is not UTF-8 is answered by the framework, and no hook is told. -/
theorem undecodable_path_parameter_skips_hooks :
    let runtime := articleRuntime cachedEndpoint (varyOutcome [])
    let captures := [("id".toList,"%FF".toList)]
    let request := { articleRequest with uri := { path := "/articles/%FF".toList,query := none } }
    Unnormalizable captures request ∧
      Coroutine.Returns (runtime.handle (fun _ => 0) captures request) []
        (Platform.invalidUtf8InPathParam "id".toList) ∧
      ¬ RejectedInNormalization runtime (fun _ => 0) captures request := by
  refine ⟨Or.inr (Or.inr ⟨_,List.mem_singleton_self _,by decide⟩),⟨rfl,rfl⟩,?_⟩
  rintro ⟨error,headers,-,-,-,-,hrun⟩
  exact nomatch hrun.1

end
end SoapAxum.Router
