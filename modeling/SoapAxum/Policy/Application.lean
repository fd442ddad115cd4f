import SoapAxum.Policy.Headers
import SoapAxum.Policy.Vary
import SoapAxum.Text.Digits

/-! The response policies of an endpoint as a whole: which headers they set, which they leave
alone, and on which responses their translation fails. -/
namespace SoapAxum.Policy
open SoapAxum.Http SoapAxum.Text SoapAxum.Data SoapAxum.Semantics

lemma visibleText_toDigits (n : ℕ) : VisibleText (Nat.toDigits 10 n) := by
  intro c hc
  have hdigit := isAsciiDigit_of_mem_toDigits hc
  have hlt : c.toNat < 128 := by
    simp only [isAsciiDigit,Bool.and_eq_true,decide_eq_true_eq] at hdigit
    omega
  exact forall_ascii (P := fun c => isAsciiDigit c = true → isVisibleChar c = true) (by decide) c
    hlt hdigit

lemma visibleText_append {s t : Str} (hs : VisibleText s) (ht : VisibleText t) :
    VisibleText (s ++ t) :=
  List.forall_mem_append.mpr ⟨hs,ht⟩

theorem visibleText_cacheControlText {policy : ResponseCachePolicy} {text : Str}
    (h : cacheControlText policy = .ok text) : VisibleText text := by
  rw [cacheControlText] at h
  split at h
  · obtain rfl := Except.ok.inj h
    exact List.all_eq_true.mp (by decide)
  · obtain rfl := Except.ok.inj h
    exact visibleText_append (List.all_eq_true.mp (by decide)) (visibleText_toDigits _)
  · obtain rfl := Except.ok.inj h
    exact visibleText_append (List.all_eq_true.mp (by decide)) (visibleText_toDigits _)
  · contradiction

/-- The directives of the `Cache-Control` header. A response that is stored anywhere needs an age. -/
def cachePieces (policy : ResponseCachePolicy) : Option (List Str) :=
  match policy.visibility,policy.maxAge with
  | .noStore,_ => some ["no-store".toList]
  | .private,some maxAge => some ["private".toList,maxAgeText maxAge.secs]
  | .public,some maxAge => some ["public".toList,maxAgeText maxAge.secs]
  | _,none => none

/-- The `Cache-Control` header of a cache policy that has one. -/
def cacheHeaders (policy : ResponseCachePolicy) : List DeclaredHeader :=
  (cachePieces policy).elim [] fun pieces =>
    [⟨"response cache policy",.cacheControl,[',',' '].intercalate pieces⟩]

theorem cacheControlText_eq_ok {policy : ResponseCachePolicy} {text : Str} :
    cacheControlText policy = .ok text ↔
      ∃ pieces, cachePieces policy = some pieces ∧ text = [',',' '].intercalate pieces := by
  have hpair : ∀ (word : Str) (n : ℕ), [',',' '].intercalate [word,maxAgeText n] =
      word ++ [',',' '] ++ maxAgeText n := by
    intro word n
    rw [List.intercalate_cons_cons,List.intercalate_singleton]
  obtain ⟨visibility,maxAge,vary⟩ := policy
  cases visibility with
  | noStore => cases maxAge <;> simp [cacheControlText,cachePieces,eq_comm]
  | «private» => cases maxAge with
    | none => simp [cacheControlText,cachePieces]
    | some maxAge =>
      simp only [cachePieces,Option.some.injEq,exists_eq_left',hpair]
      constructor
      · intro h
        exact (Except.ok.inj h).symm
      · rintro rfl
        rfl
  | «public» => cases maxAge with
    | none => simp [cacheControlText,cachePieces]
    | some maxAge =>
      simp only [cachePieces,Option.some.injEq,exists_eq_left',hpair]
      constructor
      · intro h
        exact (Except.ok.inj h).symm
      · rintro rfl
        rfl

lemma cacheHeaders_of_ok {policy : ResponseCachePolicy} {text : Str}
    (h : cacheControlText policy = .ok text) :
    cacheHeaders policy = [⟨"response cache policy",.cacheControl,text⟩] := by
  obtain ⟨pieces,hp,rfl⟩ := cacheControlText_eq_ok.mp h
  rw [cacheHeaders,hp]
  rfl

/-- All headers that the policies of an endpoint set to a single value. -/
def endpointHeaders (endpoint : EndpointMetadata) : List DeclaredHeader :=
  endpoint.securityHeaders.elim [] declaredHeaders ++ endpoint.responseCache.elim [] cacheHeaders

/-- The endpoint declares a cache policy with a `Vary` list. -/
def MergesVary (endpoint : EndpointMetadata) : Prop :=
  ∃ policy, endpoint.responseCache = some policy ∧ policy.vary ≠ []

/-- Why a valid cache policy cannot be translated over the given `Vary` lines. -/
def cacheFailure (policy : ResponseCachePolicy) (varyLines : List HeaderValue) : Option SoapError :=
  match cacheControlText policy with
  | .error error => some error
  | .ok _ => if policy.vary.isEmpty || varyReadable varyLines then none else some invalidVary

/-- Why the valid policies of an endpoint cannot be translated over the given headers. -/
def translationFailure (endpoint : EndpointMetadata) (headers : HeaderMap) : Option SoapError :=
  endpoint.responseCache.bind fun policy => cacheFailure policy (headers.getAll .vary)

lemma cacheControl_mem_of_cacheFailure_none {policy : ResponseCachePolicy}
    {lines : List HeaderValue} (h : cacheFailure policy lines = none) :
    HeaderName.cacheControl ∈ (cacheHeaders policy).map DeclaredHeader.name := by
  rw [cacheFailure] at h
  cases ht : cacheControlText policy with
  | error error => simp [ht] at h
  | ok text => simp [cacheHeaders_of_ok ht]

lemma declaredHeaders_names_subset (policy : SecurityHeadersPolicy) :
    (declaredHeaders policy).map DeclaredHeader.name ⊆ [.xContentTypeOptions,.xFrameOptions,
      .referrerPolicy,.contentSecurityPolicy,.strictTransportSecurity] := by
  simp only [declaredHeaders,List.map_append,List.append_subset]
  refine ⟨⟨⟨⟨?_,?_⟩,?_⟩,?_⟩,?_⟩ <;> split <;> simp

lemma not_mem_securityNames (endpoint : EndpointMetadata) (name : HeaderName)
    (h : name ∉ [HeaderName.xContentTypeOptions,.xFrameOptions,.referrerPolicy,
      .contentSecurityPolicy,.strictTransportSecurity]) :
    name ∉ (endpoint.securityHeaders.elim [] declaredHeaders).map DeclaredHeader.name := by
  cases endpoint.securityHeaders with
  | none => simp
  | some policy => exact fun hm => h (declaredHeaders_names_subset policy hm)

/-- A security header is none of those a cache policy writes. -/
theorem ne_of_mem_securityHeaders {endpoint : EndpointMetadata} {d : DeclaredHeader}
    (hd : d ∈ endpoint.securityHeaders.elim [] declaredHeaders) :
    d.name ≠ .cacheControl ∧ d.name ≠ .vary := by
  have hm : d.name ∈ (endpoint.securityHeaders.elim [] declaredHeaders).map DeclaredHeader.name :=
    List.mem_map_of_mem hd
  constructor
  · intro he
    exact not_mem_securityNames endpoint .cacheControl (by decide) (he ▸ hm)
  · intro he
    exact not_mem_securityNames endpoint .vary (by decide) (he ▸ hm)

theorem not_mem_endpointHeaders (endpoint : EndpointMetadata) (name : HeaderName)
    (h : name ∉ [HeaderName.xContentTypeOptions,.xFrameOptions,.referrerPolicy,
      .contentSecurityPolicy,.strictTransportSecurity,.cacheControl]) :
    name ∉ (endpointHeaders endpoint).map DeclaredHeader.name := by
  simp only [List.mem_cons,List.not_mem_nil,or_false,not_or] at h
  rw [endpointHeaders,List.map_append,List.mem_append,not_or]
  refine ⟨not_mem_securityNames endpoint name (by simp [h]),?_⟩
  cases endpoint.responseCache with
  | none => simp
  | some policy =>
    rw [Option.elim_some,cacheHeaders]
    cases cachePieces policy with
    | none => exact List.not_mem_nil
    | some pieces => exact fun hm => h.2.2.2.2.2 (List.mem_singleton.mp hm)

section
variable [Platform]

/-- The declared policies pass their own checks and their values can be encoded. -/
structure PoliciesValid (endpoint : EndpointMetadata) : Prop where
  security : ∀ policy, endpoint.securityHeaders = some policy →
    policy.validate = .ok () ∧ EncodableHeaders policy
  cache : ∀ policy, endpoint.responseCache = some policy → policy.validate = .ok ()

theorem applyCacheHeaders_eq {policy : ResponseCachePolicy} {text : Str} {value : HeaderValue}
    (headers : HeaderMap) (hv : policy.validate = .ok ()) (ht : cacheControlText policy = .ok text)
    (hs : HeaderValue.fromStr text = some value) :
    (applyCacheHeaders policy).run headers =
      (mergeVary policy).run (headers.insert .cacheControl value) := by
  rw [applyCacheHeaders,hv,ht]
  change Mutation.run (Mutation.ofExcept (headerValue _ text) >>= _) headers = _
  rw [headerValue_eq_ok.mpr hs]
  rfl

theorem applyCacheHeaders_run {policy : ResponseCachePolicy} {headers : HeaderMap}
    (hv : policy.validate = .ok ()) (hf : cacheFailure policy (headers.getAll .vary) = none) :
    ∃ out, (applyCacheHeaders policy).run headers = (.ok (),out) ∧
      (∀ d ∈ cacheHeaders policy, ∃ value, HeaderValue.fromStr d.text = some value ∧
        out.getAll d.name = [value]) ∧
      ∀ name, name ≠ .cacheControl → (name = .vary → policy.vary = []) →
        out.getAll name = headers.getAll name := by
  rw [cacheFailure] at hf
  cases ht : cacheControlText policy with
  | error error => simp [ht] at hf
  | ok text =>
    obtain ⟨value,hs,-,-⟩ := HeaderValue.fromStr_visible (visibleText_cacheControlText ht)
    have hr := applyCacheHeaders_eq headers hv ht hs
    have hc : ∀ out : HeaderMap, out.getAll .cacheControl = [value] →
        ∀ d ∈ cacheHeaders policy, ∃ value, HeaderValue.fromStr d.text = some value ∧
          out.getAll d.name = [value] := by
      intro out ho d hd
      obtain rfl : d = ⟨"response cache policy",.cacheControl,text⟩ := by
        simpa [cacheHeaders_of_ok ht] using hd
      exact ⟨value,hs,ho⟩
    by_cases he : policy.vary = []
    · refine ⟨headers.insert .cacheControl value,?_,hc _ (Multimap.getAll_insert_self _ _ _),?_⟩
      · rw [hr,mergeVary,if_pos (by simp [he])]
        rfl
      · intro name hn _
        exact Multimap.getAll_insert_of_ne _ _ hn
    · have hvary : varyReadable ((headers.insert .cacheControl value).getAll .vary) = true := by
        rw [Multimap.getAll_insert_of_ne _ _ (by decide)]
        simpa [ht,he] using hf
      obtain ⟨merged,hm⟩ := mergeVary_run_of_readable he hvary
      refine ⟨_,hr.trans hm,hc _ ?_,?_⟩
      · rw [Multimap.getAll_insert_of_ne _ _ (by decide),Multimap.getAll_insert_self]
      · intro name hn hvn
        rw [Multimap.getAll_insert_of_ne _ _ fun h => he (hvn h),Multimap.getAll_insert_of_ne _ _ hn]

theorem applyCacheHeaders_run_error {policy : ResponseCachePolicy} {headers : HeaderMap}
    {error : SoapError} (hv : policy.validate = .ok ())
    (hf : cacheFailure policy (headers.getAll .vary) = some error) :
    ((applyCacheHeaders policy).run headers).1 = .error error := by
  rw [cacheFailure] at hf
  cases ht : cacheControlText policy with
  | error e =>
    rw [ht] at hf
    obtain rfl := Option.some.inj hf
    rw [applyCacheHeaders,hv,ht]
    rfl
  | ok text =>
    obtain ⟨value,hs,-,-⟩ := HeaderValue.fromStr_visible (visibleText_cacheControlText ht)
    simp only [ht] at hf
    split_ifs at hf with hc
    obtain rfl := Option.some.inj hf
    simp only [Bool.or_eq_true,not_or,List.isEmpty_iff,Bool.not_eq_true] at hc
    rw [applyCacheHeaders_eq headers hv ht hs,mergeVary_run_of_not_readable hc.1]
    rw [Multimap.getAll_insert_of_ne _ _ (by decide)]
    exact hc.2

theorem securityStep_run {endpoint : EndpointMetadata} (headers : HeaderMap)
    (hv : PoliciesValid endpoint) :
    ∃ out, (Mutation.ifSome endpoint.securityHeaders applySecurityHeaders).run headers =
        (.ok (),out) ∧
      (∀ d ∈ endpoint.securityHeaders.elim [] declaredHeaders, ∃ value,
        HeaderValue.fromStr d.text = some value ∧ out.getAll d.name = [value]) ∧
      ∀ name, name ∉ (endpoint.securityHeaders.elim [] declaredHeaders).map DeclaredHeader.name →
        out.getAll name = headers.getAll name := by
  cases h : endpoint.securityHeaders with
  | none => exact ⟨headers,rfl,by simp,fun _ _ => rfl⟩
  | some policy =>
    obtain ⟨hp,he⟩ := hv.security policy h
    exact applySecurityHeaders_run headers hp he

/-- Valid policies that can be translated set exactly their own headers. -/
theorem applyResponsePolicies_run {endpoint : EndpointMetadata} {headers : HeaderMap}
    (hv : PoliciesValid endpoint) (hf : translationFailure endpoint headers = none) :
    ∃ out, (applyResponsePolicies endpoint).run headers = (.ok (),out) ∧
      (∀ d ∈ endpointHeaders endpoint, ∃ value, HeaderValue.fromStr d.text = some value ∧
        out.getAll d.name = [value]) ∧
      ∀ name, name ∉ (endpointHeaders endpoint).map DeclaredHeader.name →
        (name = .vary → ¬ MergesVary endpoint) → out.getAll name = headers.getAll name := by
  obtain ⟨mid,hr,hw,hframe⟩ := securityStep_run headers hv
  have hvary : mid.getAll .vary = headers.getAll .vary :=
    hframe _ (not_mem_securityNames endpoint .vary (by decide))
  rw [applyResponsePolicies,Mutation.run_bind_of_ok hr]
  cases h : endpoint.responseCache with
  | none =>
    refine ⟨mid,rfl,?_,?_⟩
    · simpa [endpointHeaders,h] using hw
    · intro name hn _
      exact hframe name (by simpa [endpointHeaders,h] using hn)
  | some policy =>
    have hc : cacheFailure policy (mid.getAll .vary) = none := by
      rw [hvary]
      simpa [translationFailure,h] using hf
    obtain ⟨out,hro,hwo,hfo⟩ := applyCacheHeaders_run (hv.cache policy h) hc
    have hsecurity : ∀ d ∈ endpoint.securityHeaders.elim [] declaredHeaders,
        out.getAll d.name = mid.getAll d.name := by
      intro d hd
      obtain ⟨hcontrol,hnotVary⟩ := ne_of_mem_securityHeaders hd
      exact hfo d.name hcontrol fun he => absurd he hnotVary
    refine ⟨out,hro,?_,?_⟩
    · intro d hd
      rw [endpointHeaders,h,List.mem_append] at hd
      rcases hd with hd | hd
      · obtain ⟨value,hs,hg⟩ := hw d hd
        exact ⟨value,hs,(hsecurity d hd).trans hg⟩
      · exact hwo d hd
    · intro name hn hmv
      simp only [endpointHeaders,h,List.map_append,List.mem_append,not_or] at hn
      have hcontrol : name ≠ .cacheControl := by
        rintro rfl
        exact hn.2 (cacheControl_mem_of_cacheFailure_none hc)
      have hempty : name = .vary → policy.vary = [] := by
        intro he
        by_contra hne
        exact hmv he ⟨policy,h,hne⟩
      rw [hfo name hcontrol hempty,hframe name hn.1]

/-- Valid policies that cannot be translated fail with the error of that failure. -/
theorem applyResponsePolicies_run_error {endpoint : EndpointMetadata} {headers : HeaderMap}
    {error : SoapError} (hv : PoliciesValid endpoint)
    (hf : translationFailure endpoint headers = some error) :
    ((applyResponsePolicies endpoint).run headers).1 = .error error := by
  obtain ⟨mid,hr,-,hframe⟩ := securityStep_run headers hv
  rw [applyResponsePolicies,Mutation.run_bind_of_ok hr]
  obtain ⟨policy,h,hc⟩ := Option.bind_eq_some_iff.mp hf
  rw [h]
  apply applyCacheHeaders_run_error (hv.cache policy h)
  rwa [hframe _ (not_mem_securityNames endpoint .vary (by decide))]

end
end SoapAxum.Policy
