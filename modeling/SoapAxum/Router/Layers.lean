import SoapAxum.Http.Reference
import SoapAxum.Policy.Application
import SoapAxum.Router.Effects

/-! The response of an endpoint outcome, layer by layer: route, route effects, middleware effects
and endpoint policies, each over the ones before. -/
namespace SoapAxum.Router
open SoapAxum.Http SoapAxum.Text SoapAxum.Data SoapAxum.Semantics SoapAxum.Policy

/-- The values of a layer, or those below it if the layer has none. -/
def layerOver (below above : List HeaderValue) : List HeaderValue :=
  if above = [] then below else above

/-- The effects of the route response. A failure has none. -/
def EndpointOutcome.routeEffects (outcome : EndpointOutcome) : HttpResponseEffects :=
  match outcome.result with
  | .ok routeResponse => routeResponse.effects
  | .error _ => .new

section
variable [Platform]

/-- The status below all effects. -/
def EndpointOutcome.baseStatus (mapper : HttpErrorMapper) (successStatus : StatusCode)
    (outcome : EndpointOutcome) : StatusCode :=
  match outcome.result with
  | .ok routeResponse => routeResponse.status.getD successStatus
  | .error error => (mappedError mapper error).status

/-- The values of a header below all effects. -/
def EndpointOutcome.baseHeader (mapper : HttpErrorMapper) (outcome : EndpointOutcome)
    (name : HeaderName) : List HeaderValue :=
  match outcome.result with
  | .ok routeResponse => routeResponse.headers.getAll name
  | .error error => if name = .contentType then [applicationJson]
    else (mappedError mapper error).headers.getAll name

def EndpointOutcome.layeredStatus (mapper : HttpErrorMapper) (successStatus : StatusCode)
    (outcome : EndpointOutcome) : StatusCode :=
  outcome.effects.status.getD (outcome.routeEffects.status.getD
    (outcome.baseStatus mapper successStatus))

/-- The values of a header below the endpoint policies, cookies apart. -/
def EndpointOutcome.layeredHeader (mapper : HttpErrorMapper) (outcome : EndpointOutcome)
    (name : HeaderName) : List HeaderValue :=
  layerOver (layerOver (outcome.baseHeader mapper name) (outcome.routeEffects.headers.getAll name))
    (outcome.effects.headers.getAll name)

/-- The set passes its check and every cookie of it has an encoding. -/
def EffectsEncode (effects : HttpResponseEffects) : Prop :=
  effects.validate = .ok () ∧ ∀ cookie ∈ effects.cookies, ∃ value, Encodes cookie value

/-- The policies pass their checks and each declared header has a value. -/
structure PoliciesEncode (endpoint : EndpointMetadata) : Prop extends PoliciesValid endpoint where
  cacheControl : ∀ policy, endpoint.responseCache = some policy →
    ∃ text, cacheControlText policy = .ok text

/-- The lines of the cookies, in order. -/
def EncodedCookies (cookies : List ResponseCookie) (values : List HeaderValue) : Prop :=
  List.Forall₂ Encodes cookies values

/-- A set that encodes is applied completely. -/
theorem applyEffects_of_encodes {effects : HttpResponseEffects} (base : Response)
    (h : EffectsEncode effects) :
    ∃ response, (applyEffects effects).run base = (.ok (),response) ∧
      Applied effects base response := by
  rcases applyEffects_run effects base with hr | ⟨error,-,he⟩
  · exact hr
  · rcases he with hv | ⟨-,written,rest,cookie,hc,-,he⟩
    · rw [h.1] at hv
      contradiction
    · obtain ⟨value,hv⟩ := h.2 cookie (by simp [hc])
      exact absurd hv he.not_encodes

lemma Applied.getAll {effects : HttpResponseEffects} {base response : Response}
    (h : Applied effects base response) {name : HeaderName} (hn : name ≠ .setCookie) :
    response.headers.getAll name = layerOver (base.headers.getAll name)
      (effects.headers.getAll name) := by
  obtain ⟨values,-,hg⟩ := h.headers
  rw [hg,if_neg hn,List.append_nil,layerOver]

lemma Applied.getAll_setCookie {effects : HttpResponseEffects} {base response : Response}
    (h : Applied effects base response) :
    ∃ values, EncodedCookies effects.cookies values ∧ response.headers.getAll .setCookie =
      layerOver (base.headers.getAll .setCookie) (effects.headers.getAll .setCookie) ++ values := by
  obtain ⟨values,hf,hg⟩ := h.headers
  exact ⟨values,hf,by rw [hg,if_pos rfl,layerOver]⟩

lemma applied_new (response : Response) : Applied .new response response :=
  ⟨rfl,rfl,[],.nil,fun name => by simp [HttpResponseEffects.new]⟩

/-- Effects that encode are applied to the response of an outcome one after the other. -/
theorem outcomeResponse_of_encodes (mapper : HttpErrorMapper) (successStatus : StatusCode)
    {outcome : EndpointOutcome} (hr : EffectsEncode outcome.routeEffects)
    (hm : EffectsEncode outcome.effects) :
    ∃ mid, Applied outcome.routeEffects (outcome.base mapper successStatus) mid ∧
      Applied outcome.effects mid (outcomeResponse mapper successStatus outcome) := by
  rw [outcomeResponse,hm.1,EndpointOutcome.base]
  rw [EndpointOutcome.routeEffects] at hr ⊢
  cases hres : outcome.result with
  | error error =>
    obtain ⟨response,he,ha⟩ := applyEffects_of_encodes (errorResponse mapper error) hm
    refine ⟨errorResponse mapper error,applied_new _,?_⟩
    simpa only [he] using ha
  | ok routeResponse =>
    simp only [hres] at hr
    obtain ⟨mid,hmid,hamid⟩ := applyEffects_of_encodes (routeResponse.base successStatus) hr
    obtain ⟨response,he,ha⟩ := applyEffects_of_encodes mid hm
    have hs : successResponse successStatus routeResponse = .ok mid :=
      successResponse_eq_ok hr.1 hmid
    refine ⟨mid,hamid,?_⟩
    simpa only [hs,he] using ha

lemma base_getAll (mapper : HttpErrorMapper) (successStatus : StatusCode)
    (outcome : EndpointOutcome) (name : HeaderName) :
    (outcome.base mapper successStatus).headers.getAll name = outcome.baseHeader mapper name := by
  rw [EndpointOutcome.base,EndpointOutcome.baseHeader]
  cases outcome.result with
  | ok routeResponse => rfl
  | error error => exact Multimap.getAll_insert _ _ _ _

lemma base_status (mapper : HttpErrorMapper) (successStatus : StatusCode)
    (outcome : EndpointOutcome) :
    (outcome.base mapper successStatus).status = outcome.baseStatus mapper successStatus := by
  rw [EndpointOutcome.base,EndpointOutcome.baseStatus]
  cases outcome.result <;> rfl

theorem translationFailure_eq_none {endpoint : EndpointMetadata} {headers : HeaderMap}
    (hp : PoliciesEncode endpoint)
    (hv : MergesVary endpoint → varyReadable (headers.getAll .vary) = true) :
    translationFailure endpoint headers = none := by
  rw [translationFailure]
  cases hc : endpoint.responseCache with
  | none => rfl
  | some policy =>
    obtain ⟨text,ht⟩ := hp.cacheControl policy hc
    rw [Option.bind_some,cacheFailure,ht]
    apply if_pos
    rw [Bool.or_eq_true,or_iff_not_imp_left]
    intro he
    exact hv ⟨policy,hc,by simpa using he⟩

/-- Policies that can be translated leave the status and the body alone. -/
theorem withPolicies_of_translates (mapper : HttpErrorMapper) {endpoint : EndpointMetadata}
    {response : Response} (hp : PoliciesValid endpoint)
    (hf : translationFailure endpoint response.headers = none) :
    ∃ out, withPolicies mapper endpoint response = { response with headers := out } ∧
      (∀ d ∈ endpointHeaders endpoint, ∃ value, HeaderValue.fromStr d.text = some value ∧
        out.getAll d.name = [value]) ∧
      ∀ name, name ∉ (endpointHeaders endpoint).map DeclaredHeader.name →
        (name = .vary → ¬ MergesVary endpoint) →
        out.getAll name = response.headers.getAll name := by
  obtain ⟨out,hr,hw,hframe⟩ := applyResponsePolicies_run hp hf
  exact ⟨out,by rw [withPolicies,hr],hw,hframe⟩

/-- The final response is determined layer by layer, if a `Vary` list that the policies merge
meets lines they can read. -/
theorem outcome_response_layers (mapper : HttpErrorMapper) (endpoint : EndpointMetadata)
    (outcome : EndpointOutcome) (hroute : EffectsEncode outcome.routeEffects)
    (hmiddleware : EffectsEncode outcome.effects) (hpolicies : PoliciesEncode endpoint)
    (hvary : MergesVary endpoint → varyReadable (outcome.layeredHeader mapper .vary) = true) :
    let response := withPolicies mapper endpoint
      (outcomeResponse mapper endpoint.successStatus outcome)
    response.status = outcome.layeredStatus mapper endpoint.successStatus ∧
    (∀ d ∈ endpointHeaders endpoint, ∃ value, HeaderValue.fromStr d.text = some value ∧
      response.headers.getAll d.name = [value]) ∧
    (∀ name, name ≠ .setCookie → (name = .vary → ¬ MergesVary endpoint) →
      name ∉ (endpointHeaders endpoint).map DeclaredHeader.name →
      response.headers.getAll name = outcome.layeredHeader mapper name) ∧
    ∃ routeCookies middlewareCookies, EncodedCookies outcome.routeEffects.cookies routeCookies ∧
      EncodedCookies outcome.effects.cookies middlewareCookies ∧
      response.headers.getAll .setCookie =
        layerOver (layerOver (outcome.baseHeader mapper .setCookie)
          (outcome.routeEffects.headers.getAll .setCookie) ++ routeCookies)
          (outcome.effects.headers.getAll .setCookie) ++ middlewareCookies ∧
      (outcome.routeEffects.headers.getAll .setCookie = [] →
        outcome.effects.headers.getAll .setCookie = [] →
        response.headers.getAll .setCookie =
          outcome.baseHeader mapper .setCookie ++ routeCookies ++ middlewareCookies) := by
  obtain ⟨mid,hmid,hlast⟩ := outcomeResponse_of_encodes mapper endpoint.successStatus hroute
    hmiddleware
  have hbelow : ∀ name, name ≠ .setCookie →
      (outcomeResponse mapper endpoint.successStatus outcome).headers.getAll name =
        outcome.layeredHeader mapper name := by
    intro name hn
    rw [hlast.getAll hn,hmid.getAll hn,base_getAll,EndpointOutcome.layeredHeader]
  have hf : translationFailure endpoint
      (outcomeResponse mapper endpoint.successStatus outcome).headers = none := by
    apply translationFailure_eq_none hpolicies
    rwa [hbelow _ (by decide)]
  obtain ⟨out,ho,hw,hframe⟩ := withPolicies_of_translates mapper hpolicies.toPoliciesValid hf
  obtain ⟨routeCookies,hrc,hrg⟩ := hmid.getAll_setCookie
  obtain ⟨middlewareCookies,hmc,hmg⟩ := hlast.getAll_setCookie
  have hcookies : out.getAll .setCookie =
      layerOver (layerOver (outcome.baseHeader mapper .setCookie)
        (outcome.routeEffects.headers.getAll .setCookie) ++ routeCookies)
        (outcome.effects.headers.getAll .setCookie) ++ middlewareCookies := by
    have hundeclared := not_mem_endpointHeaders endpoint .setCookie (by decide)
    rw [hframe _ hundeclared (fun h => absurd h (by decide)),hmg,hrg,base_getAll]
  simp only [ho]
  refine ⟨?_,hw,?_,routeCookies,middlewareCookies,hrc,hmc,hcookies,?_⟩
  · rw [hlast.status,hmid.status,base_status,EndpointOutcome.layeredStatus]
  · intro name hn hv hd
    rw [hframe name hd hv,hbelow name hn]
  · intro hr hm
    rw [hcookies,hr,hm,layerOver,layerOver,if_pos rfl,if_pos rfl]

end

section
local instance layersPlatform : Platform := referencePlatform

/-- An endpoint whose responses may be cached for a minute, for each `Accept` header apart. -/
def cachedEndpoint : EndpointMetadata :=
  { id := ⟨"article.get"⟩
    method := ⟨"GET"⟩
    path := "/articles/\x7bid\x7d"
    successStatus := 200
    bodyLimit := none
    timeout := none
    securityHeaders := some ⟨true,some .deny,none,none,none⟩
    responseCache := some ⟨.public,some ⟨60,0⟩,[.accept]⟩
    requiredEnforcementCapabilities := [] }

/-- An outcome with the given lines in its `Vary` header and no effects. -/
def varyOutcome (lines : List HeaderValue) : EndpointOutcome :=
  .success ⟨none,Multimap.empty.appendAll .vary lines,[],.new⟩

theorem cachedEndpoint_policiesEncode : PoliciesEncode cachedEndpoint where
  security := by
    rintro policy ⟨⟩
    exact ⟨rfl,by unfold EncodableHeaders; decide⟩
  cache := by
    rintro policy ⟨⟩
    rfl
  cacheControl := by
    rintro policy ⟨⟩
    exact ⟨"public, max-age=60".toList,by decide⟩

lemma encodes_new : EffectsEncode .new := ⟨rfl,by simp [HttpResponseEffects.new]⟩

/-- A cookie for the whole site and one for encrypted connections. -/
def sessionCookie : ResponseCookie :=
  ⟨"session".toList,"1".toList,some "/".toList,none,none,false,false,none⟩

def themeCookie : ResponseCookie :=
  ⟨"theme".toList,"dark".toList,none,none,some ⟨60,0⟩,true,false,none⟩

lemma encodes_of_line {cookie : ResponseCookie} {line : String}
    (h : (utf8 line.toList).all isValidByte = true) (hl : cookieLine cookie = line.toList) :
    Encodes cookie (.fromStatic line h) :=
  ⟨rfl,(congrArg HeaderValue.fromStr hl).trans (HeaderValue.fromStatic_eq_fromStr h)⟩

lemma encodedCookies_singleton {cookie : ResponseCookie} {value : HeaderValue}
    {values : List HeaderValue} (h : EncodedCookies [cookie] values) (he : Encodes cookie value) :
    values = [value] := by
  obtain ⟨value',rest,hvalue,hrest,rfl⟩ := List.forall₂_cons_left_iff.mp h
  obtain rfl := List.forall₂_nil_left_iff.mp hrest
  obtain rfl := Option.some.inj (he.line.symm.trans hvalue.line)
  rfl

/-- A response whose layers overlap: the route, its effects and the middleware all set the status and
`Retry-After`, the last two a cookie, and the middleware a header of the policies. -/
def layeredOutcome : EndpointOutcome :=
  { result := .ok
      { status := some 201
        headers := ((Multimap.empty.append .contentType (.fromStatic "text/plain" (by decide))).append
          .retryAfter (.fromStatic "10" (by decide))).append .vary (.fromStatic "Origin" (by decide))
        body := []
        effects := ⟨some 202,Multimap.empty.append .retryAfter (.fromStatic "20" (by decide)),
          [sessionCookie]⟩ }
    effects := ⟨some 203,(Multimap.empty.append .retryAfter (.fromStatic "30" (by decide))).append
      .xFrameOptions (frameOptionsValue .sameOrigin),[themeCookie]⟩ }

theorem outcome_response_layers_overlapping :
    let response := withPolicies referenceErrorMapper cachedEndpoint
      (outcomeResponse referenceErrorMapper cachedEndpoint.successStatus layeredOutcome)
    response.status = 203 ∧
      response.headers.getAll .contentType = [.fromStatic "text/plain" (by decide)] ∧
      response.headers.getAll .retryAfter = [.fromStatic "30" (by decide)] ∧
      response.headers.getAll .xFrameOptions = [.fromStatic "DENY" (by decide)] ∧
      response.headers.getAll .setCookie = [.fromStatic "session=1; Path=/" (by decide),
        .fromStatic "theme=dark; Max-Age=60; Secure" (by decide)] := by
  have hsession : Encodes sessionCookie (.fromStatic "session=1; Path=/" (by decide)) :=
    encodes_of_line _ (by decide)
  have htheme : Encodes themeCookie (.fromStatic "theme=dark; Max-Age=60; Secure" (by decide)) :=
    encodes_of_line _ (by decide)
  have hroute : EffectsEncode layeredOutcome.routeEffects :=
    ⟨rfl,List.forall_mem_singleton.mpr ⟨_,hsession⟩⟩
  have hmiddleware : EffectsEncode layeredOutcome.effects :=
    ⟨rfl,List.forall_mem_singleton.mpr ⟨_,htheme⟩⟩
  obtain ⟨hstatus,hdeclared,hheaders,routeCookies,middlewareCookies,hr,hm,-,hcookies⟩ :=
    outcome_response_layers referenceErrorMapper cachedEndpoint layeredOutcome hroute hmiddleware
      cachedEndpoint_policiesEncode (fun _ => by decide)
  obtain rfl := encodedCookies_singleton hr hsession
  obtain rfl := encodedCookies_singleton hm htheme
  refine ⟨hstatus,hheaders .contentType (by decide) (fun h => absurd h (by decide)) (by decide),
    hheaders .retryAfter (by decide) (fun h => absurd h (by decide)) (by decide),?_,hcookies rfl rfl⟩
  obtain ⟨value,hs,hg⟩ := hdeclared ⟨"frame options",.xFrameOptions,"DENY".toList⟩ (by decide)
  rw [hg]
  exact congrArg (fun v => [v]) (Option.some.inj (hs.symm.trans (HeaderValue.fromStatic_eq_fromStr _)))

/-- With a `Vary` line that is not visible text, the answer to the failed merge replaces the
response, although every effect and every policy encodes. -/
theorem layers_replaced_on_unreadable_vary :
    let outcome := varyOutcome [⟨[0xFF],by decide⟩]
    let response := withPolicies referenceErrorMapper cachedEndpoint
      (outcomeResponse referenceErrorMapper cachedEndpoint.successStatus outcome)
    EffectsEncode outcome.routeEffects ∧ EffectsEncode outcome.effects ∧
      PoliciesEncode cachedEndpoint ∧
      outcome.layeredStatus referenceErrorMapper cachedEndpoint.successStatus = 200 ∧
      response.status = 422 ∧ response.headers.getAll .xFrameOptions = [] :=
  ⟨encodes_new,encodes_new,cachedEndpoint_policiesEncode,by decide,by decide,by decide⟩

end
end SoapAxum.Router
