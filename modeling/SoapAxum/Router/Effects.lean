import SoapAxum.Router.Cookie

/-! Response effects are applied completely or not at all. Writing them fails halfway at worst, and
then every caller throws the half-written response away. -/
namespace SoapAxum.Router
open SoapAxum.Http SoapAxum.Text SoapAxum.Data SoapAxum.Semantics SoapAxum.Policy

section
variable [Platform]

/-- The response is the base with every part of an effect set applied: the status, all headers
and the line of every cookie. -/
structure Applied (effects : HttpResponseEffects) (base response : Response) : Prop where
  status : response.status = effects.status.getD base.status
  body : response.body = base.body
  headers : ∃ values,
    List.Forall₂ Encodes effects.cookies values ∧ ∀ name, response.headers.getAll name =
      (if effects.headers.getAll name = [] then base.headers.getAll name
        else effects.headers.getAll name) ++ if name = .setCookie then values else []

/-- Every cookie of an applied set has an encoding. -/
theorem Applied.encoded {effects : HttpResponseEffects} {base response : Response}
    (h : Applied effects base response) :
    ∀ cookie ∈ effects.cookies, ∃ value, Encodes cookie value := by
  obtain ⟨values,hf,-⟩ := h.headers
  exact fun cookie hm => (List.forall₂_iff_get.mp hf).elim fun hlen hget => by
    obtain ⟨i,hi,rfl⟩ := List.mem_iff_getElem.mp hm
    exact ⟨_,hget i hi (hlen ▸ hi)⟩

/-- The error of the first part of an effect set that cannot be applied. -/
inductive EffectError (effects : HttpResponseEffects) (error : SoapError) : Prop
  | invalid (h : effects.validate = .error error)
  | cookie (valid : effects.validate = .ok ()) (written rest : List ResponseCookie)
      (cookie : ResponseCookie) (split : effects.cookies = written ++ cookie :: rest)
      (encoded : ∀ c ∈ written, ∃ value, Encodes c value) (h : CookieError cookie error)

/-- Appending cookies either appends every encoded cookie or stops at the first that fails. -/
theorem appendCookies_run (cookies : List ResponseCookie) (response : Response) :
    (∃ values, List.Forall₂ Encodes cookies values ∧
      (appendCookies cookies).run response =
        (.ok (),{ response with headers := response.headers.appendAll .setCookie values })) ∨
    ∃ written cookie rest error, cookies = written ++ cookie :: rest ∧
      (∀ c ∈ written, ∃ value, Encodes c value) ∧ CookieError cookie error ∧
      ((appendCookies cookies).run response).1 = .error error := by
  induction cookies generalizing response with
  | nil => exact Or.inl ⟨[],.nil,rfl⟩
  | cons cookie cookies ih =>
    cases he : encodeCookie cookie with
    | error error =>
      refine Or.inr ⟨[],cookie,cookies,error,rfl,by simp,encodeCookie_eq_error.mp he,?_⟩
      rw [appendCookies,he]
      rfl
    | ok value =>
      have hr : (appendCookies (cookie :: cookies)).run response = (appendCookies cookies).run
          { response with headers := response.headers.append .setCookie value } := by
        rw [appendCookies,he]
        rfl
      rw [hr]
      rcases ih { response with headers := response.headers.append .setCookie value } with
        ⟨values,hf,hv⟩ | ⟨written,bad,rest,error,hc,hw,hb,hv⟩
      · exact Or.inl ⟨value :: values,.cons (encodeCookie_eq_ok.mp he) hf,hv⟩
      · refine Or.inr ⟨cookie :: written,bad,rest,error,by rw [hc]; rfl,?_,hb,hv⟩
        intro c hm
        rcases List.mem_cons.mp hm with rfl | hm
        · exact ⟨value,encodeCookie_eq_ok.mp he⟩
        · exact hw c hm

/-- Applying an effect set either applies every part of it or ends in its first error. -/
theorem applyEffects_run (effects : HttpResponseEffects) (base : Response) :
    (∃ response, (applyEffects effects).run base = (.ok (),response) ∧ Applied effects base response) ∨
    ∃ error, ((applyEffects effects).run base).1 = .error error ∧ EffectError effects error := by
  cases hv : effects.validate with
  | error error =>
    refine Or.inr ⟨error,?_,.invalid hv⟩
    rw [applyEffects,hv]
    rfl
  | ok u =>
    have hr : (applyEffects effects).run base = (appendCookies effects.cookies).run
        { status := effects.status.getD base.status
          headers := replaceHeaders base.headers effects.headers
          body := base.body } := by
      rw [applyEffects,hv]
      cases effects.status <;> rfl
    rw [hr]
    rcases appendCookies_run effects.cookies
      { status := effects.status.getD base.status
        headers := replaceHeaders base.headers effects.headers
        body := base.body } with ⟨values,hf,ho⟩ | ⟨written,bad,rest,error,hc,hw,hb,ho⟩
    · refine Or.inl ⟨_,ho,rfl,rfl,values,hf,?_⟩
      intro name
      rw [Multimap.getAll_appendAll,replaceHeaders,Multimap.getAll_overlay]
      by_cases hn : name = .setCookie <;> simp [hn]
    · exact Or.inr ⟨error,ho,.cookie hv written rest bad hc hw hb⟩

/-- A set whose parts all apply has no error. -/
theorem not_effectError_of_applied {effects : HttpResponseEffects} {base response : Response}
    {error : SoapError} (hr : (applyEffects effects).run base = (.ok (),response)) :
    ¬ EffectError effects error := by
  rintro (hv | ⟨hv,written,rest,cookie,hc,hw,he⟩)
  · rw [applyEffects,hv] at hr
    exact absurd (congrArg Prod.fst hr) (by simp [Mutation.run_bind])
  · rcases applyEffects_run effects base with ⟨_,-,ha⟩ | ⟨_,ho,-⟩
    · obtain ⟨values,hf,-⟩ := ha.headers
      obtain ⟨value,hcv⟩ := ha.encoded cookie (by simp [hc])
      exact he.not_encodes hcv
    · rw [hr] at ho
      contradiction

/-- All effect sets of a list are applied completely, one over the other. -/
def AllApplied : List HttpResponseEffects → Response → Response → Prop
  | [],base,response => response = base
  | effects :: rest,base,response => ∃ mid, Applied effects base mid ∧ AllApplied rest mid response

/-- The effect sets attached to an outcome, in the order in which they are applied. -/
def EndpointOutcome.attachedEffects (outcome : EndpointOutcome) : List HttpResponseEffects :=
  match outcome.result with
  | .ok routeResponse => [routeResponse.effects,outcome.effects]
  | .error _ => [outcome.effects]

/-- The route response as a response, before its effects. -/
def RouteResponse.base (routeResponse : RouteResponse) (successStatus : StatusCode) : Response :=
  { status := routeResponse.status.getD successStatus
    headers := routeResponse.headers
    body := routeResponse.body }

/-- The response of an outcome before all of its effects. -/
def EndpointOutcome.base (mapper : HttpErrorMapper) (successStatus : StatusCode)
    (outcome : EndpointOutcome) : Response :=
  match outcome.result with
  | .ok routeResponse => routeResponse.base successStatus
  | .error error => errorResponse mapper error

/-- Either every attached effect set is applied and none has an error, or the response is the
answer to an error of one of them. -/
def AllOrNothing (mapper : HttpErrorMapper) (attached : List HttpResponseEffects)
    (base response : Response) : Prop :=
  (AllApplied attached base response ∧ ∀ effects ∈ attached, ∀ error, ¬ EffectError effects error) ∨
  ∃ effects ∈ attached, ∃ error, EffectError effects error ∧ response = errorResponse mapper error

lemma successResponse_eq_ok {successStatus : StatusCode} {routeResponse : RouteResponse}
    {response : Response} (hv : routeResponse.effects.validate = .ok ())
    (ha : (applyEffects routeResponse.effects).run (routeResponse.base successStatus) =
      (.ok (),response)) : successResponse successStatus routeResponse = .ok response := by
  rw [RouteResponse.base] at ha
  rw [successResponse,hv]
  simp only [Fallible.ok_bind,ha]

theorem successResponse_eq_error {successStatus : StatusCode} {routeResponse : RouteResponse}
    {error : SoapError} (hv : routeResponse.effects.validate = .ok ())
    (ha : ((applyEffects routeResponse.effects).run (routeResponse.base successStatus)).1 =
      .error error) : successResponse successStatus routeResponse = .error error := by
  obtain ⟨left,hl⟩ : ∃ left, (applyEffects routeResponse.effects).run
      (routeResponse.base successStatus) = (.error error,left) := ⟨_,Prod.ext ha rfl⟩
  rw [RouteResponse.base] at hl
  rw [successResponse,hv]
  simp only [Fallible.ok_bind,hl]

/-- A route response either has its own effects applied or is replaced by their error. -/
theorem successResponse_cases (successStatus : StatusCode) (routeResponse : RouteResponse) :
    (∃ response, successResponse successStatus routeResponse = .ok response ∧
      (applyEffects routeResponse.effects).run (routeResponse.base successStatus) =
        (.ok (),response)) ∨
    ∃ error, successResponse successStatus routeResponse = .error error ∧
      EffectError routeResponse.effects error := by
  cases hv : routeResponse.effects.validate with
  | error error =>
    refine Or.inr ⟨error,?_,.invalid hv⟩
    rw [successResponse,hv]
    rfl
  | ok u =>
    rcases applyEffects_run routeResponse.effects (routeResponse.base successStatus) with
      ⟨response,hr,-⟩ | ⟨error,hr,he⟩
    · exact Or.inl ⟨response,successResponse_eq_ok hv hr,hr⟩
    · exact Or.inr ⟨error,successResponse_eq_error hv hr,he⟩

/-- One more effect set over a response that has all earlier ones. -/
theorem allOrNothing_of_applyEffects (mapper : HttpErrorMapper) {effects : HttpResponseEffects}
    {base : Response} :
    AllOrNothing mapper [effects] base (match (applyEffects effects).run base with
      | (.ok (),response) => response
      | (.error error,_) => errorResponse mapper error) := by
  rcases applyEffects_run effects base with ⟨response,hr,ha⟩ | ⟨error,hr,he⟩
  · rw [hr]
    refine Or.inl ⟨⟨response,ha,rfl⟩,?_⟩
    intro e hm error
    obtain rfl := List.mem_singleton.mp hm
    exact not_effectError_of_applied hr
  · refine Or.inr ⟨effects,by simp,error,he,?_⟩
    generalize (applyEffects effects).run _ = out at hr ⊢
    obtain ⟨_,_⟩ := out
    obtain rfl := hr
    rfl

theorem AllOrNothing.cons {mapper : HttpErrorMapper} {effects : HttpResponseEffects}
    {attached : List HttpResponseEffects} {base mid response : Response}
    (hr : (applyEffects effects).run base = (.ok (),mid))
    (h : AllOrNothing mapper attached mid response) :
    AllOrNothing mapper (effects :: attached) base response := by
  have happlied : Applied effects base mid := by
    rcases applyEffects_run effects base with ⟨_,ho,ha⟩ | ⟨_,ho,-⟩
    · rw [hr] at ho
      obtain ⟨-,rfl⟩ := Prod.mk.inj ho
      exact ha
    · rw [hr] at ho
      contradiction
  rcases h with ⟨ha,hn⟩ | ⟨e,hm,error,he,ho⟩
  · refine Or.inl ⟨⟨mid,happlied,ha⟩,?_⟩
    intro e hm
    rcases List.mem_cons.mp hm with rfl | hm
    · exact fun error => not_effectError_of_applied hr
    · exact hn e hm
  · exact Or.inr ⟨e,by simp [hm],error,he,ho⟩

theorem outcomeResponse_allOrNothing (mapper : HttpErrorMapper) (successStatus : StatusCode)
    (outcome : EndpointOutcome) :
    AllOrNothing mapper outcome.attachedEffects (outcome.base mapper successStatus)
      (outcomeResponse mapper successStatus outcome) := by
  have hmem : outcome.effects ∈ outcome.attachedEffects := by
    rw [EndpointOutcome.attachedEffects]
    cases outcome.result <;> simp
  cases hv : outcome.effects.validate with
  | error error =>
    refine Or.inr ⟨outcome.effects,hmem,error,.invalid hv,?_⟩
    rw [outcomeResponse,hv]
  | ok u =>
    rw [outcomeResponse,hv]
    rw [EndpointOutcome.attachedEffects,EndpointOutcome.base]
    cases outcome.result with
    | error error => exact allOrNothing_of_applyEffects mapper
    | ok routeResponse =>
      rcases successResponse_cases successStatus routeResponse with ⟨mid,hs,hr⟩ | ⟨error,hs,he⟩
      · simp only [hs]
        exact AllOrNothing.cons hr (allOrNothing_of_applyEffects mapper)
      · simp only [hs]
        exact Or.inr ⟨routeResponse.effects,by simp,error,he,rfl⟩

/-- The effects of an outcome or a guard rejection reach the response completely, or the response
is exactly the answer to an error of one effect set, with nothing of the others. -/
theorem response_effects_all_or_nothing (mapper : HttpErrorMapper) (successStatus : StatusCode) :
    (∀ outcome : EndpointOutcome,
      AllOrNothing mapper outcome.attachedEffects (outcome.base mapper successStatus)
        (outcomeResponse mapper successStatus outcome)) ∧
    ∀ rejection : EndpointGuardRejection,
      AllOrNothing mapper [rejection.effects] (errorResponse mapper rejection.error)
        (rejectionResponse mapper rejection) :=
  ⟨outcomeResponse_allOrNothing mapper successStatus,
    fun _ => allOrNothing_of_applyEffects mapper⟩

end
end SoapAxum.Router
