import SoapAxum.Http.Reference
import SoapAxum.Router.Layers
import SoapAxum.Router.SetCookie
import SoapAxum.Text.Utf8

/-! The translation of response policies against a reader of the headers, which takes them apart as a
client does. -/
namespace SoapAxum.Router
open SoapAxum.Http SoapAxum.Text SoapAxum.Data SoapAxum.Semantics SoapAxum.Policy SoapAxum.Request

/-- A directive by its name in lowercase, with what is assigned to it. -/
def readDirective (piece : Str) : Str × Option Str := match splitOnce '=' piece with
  | none => (piece.map toAsciiLower,none)
  | some (name,value) => (name.map toAsciiLower,some value)

def readDirectives (sep : Char) (line : Str) : List (Str × Option Str) :=
  ((line.splitOn sep).map trim).map readDirective

/-- What a `max-age` directive says, in seconds. -/
def readMaxAge (directives : List (Str × Option Str)) : Option ℕ := do
  let value ← directives.lookup "max-age".toList
  readSeconds (← value)

structure HstsReading where
  seconds : ℕ
  includeSubdomains : Bool
  preload : Bool
  deriving DecidableEq,Repr

/-- A `Strict-Transport-Security` line, which is nothing without `max-age`. -/
def readHsts (line : Str) : Option HstsReading := do
  let directives := readDirectives ';' line
  let seconds ← readMaxAge directives
  some
    { seconds
      includeSubdomains := directives.any (·.1 = "includesubdomains".toList)
      preload := directives.any (·.1 = "preload".toList) }

structure CacheReading where
  visibility : CacheVisibility
  seconds : Option ℕ
  deriving DecidableEq,Repr

/-- A `Cache-Control` line. Where nothing may be stored, no age counts. -/
def readCacheControl (line : Str) : Option CacheReading :=
  let directives := readDirectives ',' line
  if directives.any (·.1 = "no-store".toList) then some ⟨.noStore,none⟩
  else if directives.any (·.1 = "private".toList) then some ⟨.private,readMaxAge directives⟩
  else if directives.any (·.1 = "public".toList) then some ⟨.public,readMaxAge directives⟩
  else none

def readFrameOptions (line : Str) : Option FrameOptions :=
  if line = "DENY".toList then some .deny
  else if line = "SAMEORIGIN".toList then some .sameOrigin
  else none

def readReferrerPolicy (line : Str) : Option ReferrerPolicy :=
  if line = "no-referrer".toList then some .noReferrer
  else if line = "strict-origin-when-cross-origin".toList then some .strictOriginWhenCrossOrigin
  else none

/-- The policies of an endpoint as far as its responses tell. -/
structure PolicyReading where
  noSniff : Bool
  frameOptions : Option FrameOptions
  referrerPolicy : Option ReferrerPolicy
  contentSecurityPolicy : Option Str
  hsts : Option HstsReading
  cache : Option CacheReading
  deriving DecidableEq,Repr

/-- The text of a header that has a single line. -/
def readLine (headers : HeaderMap) (name : HeaderName) : Option Str := match headers.getAll name with
  | [value] => decodeUtf8 value.bytes
  | _ => none

def readPolicies (headers : HeaderMap) : PolicyReading where
  noSniff := readLine headers .xContentTypeOptions = some "nosniff".toList
  frameOptions := (readLine headers .xFrameOptions).bind readFrameOptions
  referrerPolicy := (readLine headers .referrerPolicy).bind readReferrerPolicy
  contentSecurityPolicy := readLine headers .contentSecurityPolicy
  hsts := (readLine headers .strictTransportSecurity).bind readHsts
  cache := (readLine headers .cacheControl).bind readCacheControl

/-- What there is to read, with durations in whole seconds. -/
def declaredReading (endpoint : EndpointMetadata) : PolicyReading where
  noSniff := endpoint.securityHeaders.any (·.noSniff)
  frameOptions := endpoint.securityHeaders.bind (·.frameOptions)
  referrerPolicy := endpoint.securityHeaders.bind (·.referrerPolicy)
  contentSecurityPolicy := endpoint.securityHeaders.bind (·.contentSecurityPolicy)
  hsts := (endpoint.securityHeaders.bind (·.hsts)).map fun hsts =>
    ⟨hsts.maxAge.secs,hsts.includeSubdomains,hsts.preload⟩
  cache := endpoint.responseCache.map fun cache =>
    ⟨cache.visibility,if cache.visibility = .noStore then none else cache.maxAge.map (·.secs)⟩

/-- Directives that are joined are read one by one. -/
theorem readDirectives_intercalate {sep : Char} {pieces : List Str} (hs : sep ≠ ' ')
    (hne : pieces ≠ []) (hsep : ∀ piece ∈ pieces, sep ∉ piece)
    (htrim : ∀ piece ∈ pieces, trim piece = piece) :
    readDirectives sep ([sep,' '].intercalate pieces) = pieces.map readDirective := by
  rw [readDirectives,splitOn_intercalate_space hne hsep hs,List.map_map]
  refine List.map_congr_left fun piece hp => ?_
  rw [Function.comp_apply,htrim piece hp]

lemma isToken_maxAge : IsToken "max-age".toList := isToken_of_all (by decide) (by decide)

lemma trim_maxAgeText (n : ℕ) : trim (maxAgeText n) = maxAgeText n :=
  trim_assignment isToken_maxAge (trim_token (isToken_toDigits n))

lemma not_mem_maxAgeText {c : Char} (n : ℕ) (hc : ¬ IsTchar c) (he : c ≠ '=') :
    c ∉ maxAgeText n := by
  intro h
  rcases List.mem_append.mp h with h | h
  · exact token_not_mem isToken_maxAge hc h
  · rcases List.mem_cons.mp h with h | h
    · exact he h
    · exact token_not_mem (isToken_toDigits n) hc h

lemma readDirective_maxAgeText (n : ℕ) :
    readDirective (maxAgeText n) = ("max-age".toList,some (Nat.toDigits 10 n)) := by
  have hsplit : splitOnce '=' (maxAgeText n) = some ("max-age".toList,Nat.toDigits 10 n) :=
    splitOnce_append _ (by decide)
  rw [readDirective,hsplit]
  rfl

theorem readHsts_hstsPieces (hsts : HstsPolicy) : readHsts ([';',' '].intercalate (hstsPieces hsts)) =
    some ⟨hsts.maxAge.secs,hsts.includeSubdomains,hsts.preload⟩ := by
  have hflags : ∀ piece ∈ hstsPieces hsts, ';' ∉ piece ∧ trim piece = piece := by
    intro piece hp
    rcases List.mem_cons.mp hp with rfl | hp
    · exact ⟨not_mem_maxAgeText _ (by decide) (by decide),trim_maxAgeText _⟩
    · rcases List.mem_append.mp hp with hp | hp <;> split_ifs at hp <;> simp at hp <;> subst hp <;>
        exact ⟨by decide,rfl⟩
  have hread : readDirectives ';' ([';',' '].intercalate (hstsPieces hsts)) =
      (hstsPieces hsts).map readDirective :=
    readDirectives_intercalate (by decide) (List.cons_ne_nil _ _)
      (fun piece hp => (hflags piece hp).1) fun piece hp => (hflags piece hp).2
  have hage : readMaxAge ((hstsPieces hsts).map readDirective) = some hsts.maxAge.secs := by
    rw [hstsPieces,List.map_cons,readDirective_maxAgeText]
    exact CookieAttribute.readSeconds_toDigits _
  have hsubdomains : readDirective "includeSubDomains".toList = ("includesubdomains".toList,none) := by
    decide
  have hpreload : readDirective "preload".toList = ("preload".toList,none) := by decide
  rw [readHsts,hread]
  simp only [hage]
  rw [hstsPieces,List.map_cons,readDirective_maxAgeText,List.map_append,apply_ite (List.map _),
    apply_ite (List.map _),List.map_singleton,List.map_singleton,hsubdomains,hpreload]
  cases hsts.includeSubdomains <;> cases hsts.preload <;> rfl

theorem readCacheControl_cacheControlText {policy : ResponseCachePolicy} {text : Str}
    (h : cacheControlText policy = .ok text) : readCacheControl text = some ⟨policy.visibility,
      if policy.visibility = .noStore then none else policy.maxAge.map (·.secs)⟩ := by
  have hread : ∀ (word : Str) (n : ℕ), word ∈ ["private".toList,"public".toList] →
      readDirectives ',' ([',',' '].intercalate [word,maxAgeText n]) =
        [(word,none),("max-age".toList,some (Nat.toDigits 10 n))] := by
    intro word n hw
    rw [readDirectives_intercalate (by decide) (List.cons_ne_nil _ _),List.map_cons,List.map_singleton,
      readDirective_maxAgeText]
    · rcases List.mem_pair.mp hw with rfl | rfl <;> rfl
    · intro piece hp
      rcases List.mem_pair.mp hp with rfl | rfl
      · rcases List.mem_pair.mp hw with rfl | rfl <;> decide
      · exact not_mem_maxAgeText n (by decide) (by decide)
    · intro piece hp
      rcases List.mem_pair.mp hp with rfl | rfl
      · rcases List.mem_pair.mp hw with rfl | rfl <;> rfl
      · exact trim_maxAgeText n
  have hage : ∀ (word : Str) (n : ℕ), word ∈ ["private".toList,"public".toList] →
      readMaxAge [(word,none),("max-age".toList,some (Nat.toDigits 10 n))] = some n := by
    intro word n hw
    have hlookup : List.lookup "max-age".toList
        [(word,none),("max-age".toList,some (Nat.toDigits 10 n))] = some (some (Nat.toDigits 10 n)) := by
      rcases List.mem_pair.mp hw with rfl | rfl <;> rfl
    rw [readMaxAge,hlookup]
    exact CookieAttribute.readSeconds_toDigits n
  obtain ⟨pieces,hp,rfl⟩ := cacheControlText_eq_ok.mp h
  obtain ⟨visibility,maxAge,vary⟩ := policy
  cases visibility with
  | noStore =>
    obtain rfl := Option.some.inj hp
    rfl
  | «private» => cases maxAge with
    | none => cases hp
    | some maxAge =>
      obtain rfl := Option.some.inj hp
      have hmem : "private".toList ∈ ["private".toList,"public".toList] := List.mem_cons_self
      rw [readCacheControl,hread _ maxAge.secs hmem,hage _ _ hmem]
      rfl
  | «public» => cases maxAge with
    | none => cases hp
    | some maxAge =>
      obtain rfl := Option.some.inj hp
      have hmem : "public".toList ∈ ["private".toList,"public".toList] :=
        List.mem_cons_of_mem _ (List.mem_singleton_self _)
      rw [readCacheControl,hread _ maxAge.secs hmem,hage _ _ hmem]
      rfl

/-- The declared text of a header, if there is one. -/
def declaredText (declared : List DeclaredHeader) (name : HeaderName) : Option Str :=
  (declared.find? fun d => d.name = name).map (·.text)

lemma declaredText_append (declared declared' : List DeclaredHeader) (name : HeaderName) :
    declaredText (declared ++ declared') name =
      (declaredText declared name).or (declaredText declared' name) := by
  rw [declaredText,List.find?_append,Option.map_or]
  rfl

/-- Headers of one name are declared under it alone. -/
theorem declaredText_of_name {declared : List DeclaredHeader} {own : HeaderName}
    (h : ∀ d ∈ declared, d.name = own) (name : HeaderName) :
    declaredText declared name = if name = own then declared.head?.map (·.text) else none := by
  rw [declaredText]
  cases declared with
  | nil => split_ifs <;> rfl
  | cons d declared =>
    by_cases hn : name = own
    · rw [if_pos hn,List.find?_cons_of_pos (by simp [h d List.mem_cons_self,hn])]
      rfl
    · rw [if_neg hn,Option.map_eq_none_iff,List.find?_eq_none]
      intro e he
      rw [decide_eq_true_eq,h e he]
      exact Ne.symm hn

def frameOptionsText : FrameOptions → Str
  | .deny => "DENY".toList
  | .sameOrigin => "SAMEORIGIN".toList

def referrerPolicyText : ReferrerPolicy → Str
  | .noReferrer => "no-referrer".toList
  | .strictOriginWhenCrossOrigin => "strict-origin-when-cross-origin".toList

/-- The text that a security policy declares for each of its headers. -/
def securityText (policy : SecurityHeadersPolicy) (name : HeaderName) : Option Str :=
  if name = .xContentTypeOptions then if policy.noSniff then some "nosniff".toList else none
  else if name = .xFrameOptions then policy.frameOptions.map frameOptionsText
  else if name = .referrerPolicy then policy.referrerPolicy.map referrerPolicyText
  else if name = .contentSecurityPolicy then policy.contentSecurityPolicy
  else if name = .strictTransportSecurity then policy.hsts.map fun hsts => [';',' '].intercalate (hstsPieces hsts)
  else none

theorem declaredText_declaredHeaders (policy : SecurityHeadersPolicy) (name : HeaderName) :
    declaredText (declaredHeaders policy) name = securityText policy name := by
  obtain ⟨noSniff,frameOptions,referrerPolicy,contentSecurityPolicy,hsts⟩ := policy
  rw [declaredHeaders,declaredText_append,declaredText_append,declaredText_append,
    declaredText_append,@declaredText_of_name _ .xContentTypeOptions,
    @declaredText_of_name _ .xFrameOptions,@declaredText_of_name _ .referrerPolicy,
    @declaredText_of_name _ .contentSecurityPolicy,@declaredText_of_name _ .strictTransportSecurity]
  · rw [securityText]
    by_cases hsniff : name = .xContentTypeOptions
    · subst hsniff
      cases noSniff <;> rfl
    by_cases hframe : name = .xFrameOptions
    · subst hframe
      rcases frameOptions with _ | _ | _ <;> rfl
    by_cases hreferrer : name = .referrerPolicy
    · subst hreferrer
      rcases referrerPolicy with _ | _ | _ <;> rfl
    by_cases hcsp : name = .contentSecurityPolicy
    · subst hcsp
      cases contentSecurityPolicy <;> rfl
    by_cases hsts' : name = .strictTransportSecurity
    · subst hsts'
      cases hsts <;> rfl
    · simp only [if_neg hsniff,if_neg hframe,if_neg hreferrer,if_neg hcsp,if_neg hsts',Option.or_none]
  all_goals
    intro d hd
    split at hd
    all_goals first
      | exact absurd hd List.not_mem_nil
      | rw [List.mem_singleton.mp hd]

/-- A declared header is read as its text. -/
theorem readLine_of_declared {headers : HeaderMap} {d : DeclaredHeader}
    (h : ∃ value, HeaderValue.fromStr d.text = some value ∧ headers.getAll d.name = [value]) :
    readLine headers d.name = some d.text := by
  obtain ⟨value,hs,hg⟩ := h
  rw [readLine,hg]
  rw [HeaderValue.fromStr] at hs
  split_ifs at hs
  rw [← Option.some.inj hs]
  exact decodeUtf8_eq_some.mpr rfl

/-- After the policies, each of their headers is read as it is declared. -/
theorem readLine_applied {endpoint : EndpointMetadata} {headers out : HeaderMap} {name : HeaderName}
    (hdeclared : ∀ d ∈ endpointHeaders endpoint, ∃ value, HeaderValue.fromStr d.text = some value ∧
      out.getAll d.name = [value])
    (hother : name ∉ (endpointHeaders endpoint).map DeclaredHeader.name →
      out.getAll name = headers.getAll name) (hnew : headers.getAll name = []) :
    readLine out name = declaredText (endpointHeaders endpoint) name := by
  rw [declaredText]
  cases hf : (endpointHeaders endpoint).find? fun d => d.name = name with
  | some d =>
    have hname : d.name = name := by simpa using List.find?_some hf
    subst hname
    exact readLine_of_declared (hdeclared d (List.mem_of_find?_eq_some hf))
  | none =>
    have habsent : name ∉ (endpointHeaders endpoint).map DeclaredHeader.name := by
      intro hm
      obtain ⟨d,hd,rfl⟩ := List.mem_map.mp hm
      simpa using List.find?_eq_none.mp hf d hd
    rw [readLine,hother habsent,hnew]
    rfl

def policyNames : List HeaderName := [.xContentTypeOptions,.xFrameOptions,.referrerPolicy,
  .contentSecurityPolicy,.strictTransportSecurity,.cacheControl]

lemma declaredText_cacheHeaders {policy : ResponseCachePolicy} {text : Str}
    (h : cacheControlText policy = .ok text) (name : HeaderName) :
    declaredText (cacheHeaders policy) name = if name = .cacheControl then some text else none := by
  rw [cacheHeaders_of_ok h,declaredText_of_name fun d hd => by rw [List.mem_singleton.mp hd]]
  rfl

lemma readFrameOptions_text (value : FrameOptions) :
    readFrameOptions (frameOptionsText value) = some value := by
  cases value <;> rfl

lemma readReferrerPolicy_text (value : ReferrerPolicy) :
    readReferrerPolicy (referrerPolicyText value) = some value := by
  cases value <;> rfl

/-- The text that the policies of an endpoint declare for each of their headers. -/
theorem declaredText_endpointHeaders {endpoint : EndpointMetadata} {headers : HeaderMap}
    (hf : translationFailure endpoint headers = none) :
    (∀ name, name ≠ .cacheControl → declaredText (endpointHeaders endpoint) name =
      endpoint.securityHeaders.bind fun policy => securityText policy name) ∧
    declaredText (endpointHeaders endpoint) .cacheControl =
      endpoint.responseCache.bind fun policy => (cacheControlText policy).toOption := by
  have hsecurity : ∀ name, declaredText (endpoint.securityHeaders.elim [] declaredHeaders) name =
      endpoint.securityHeaders.bind fun policy => securityText policy name := by
    intro name
    cases endpoint.securityHeaders with
    | none => rfl
    | some policy => exact declaredText_declaredHeaders policy name
  have hcache : ∀ name, declaredText (endpoint.responseCache.elim [] cacheHeaders) name =
      if name = .cacheControl then
        endpoint.responseCache.bind fun policy => (cacheControlText policy).toOption
      else none := by
    intro name
    cases hc : endpoint.responseCache with
    | none => split_ifs <;> rfl
    | some policy => cases ht : cacheControlText policy with
      | error error => simp [translationFailure,hc,cacheFailure,ht] at hf
      | ok text =>
        rw [Option.elim_some,declaredText_cacheHeaders ht,Option.bind_some,ht]
        rfl
  constructor
  · intro name hn
    rw [endpointHeaders,declaredText_append,hsecurity,hcache,if_neg hn,Option.or_none]
  · rw [endpointHeaders,declaredText_append,hsecurity,hcache,if_pos rfl]
    cases endpoint.securityHeaders <;> rfl

/-- A client reads the declared policies off a response to which they could be applied, unless the
response had policies of its own. -/
theorem policies_read_back [Platform] (endpoint : EndpointMetadata) (headers out : HeaderMap)
    (hvalid : PoliciesValid endpoint) (hnew : ∀ name ∈ policyNames, headers.getAll name = [])
    (h : (applyResponsePolicies endpoint).run headers = (.ok (),out)) :
    readPolicies out = declaredReading endpoint := by
  have hf : translationFailure endpoint headers = none := by
    cases hf : translationFailure endpoint headers with
    | none => rfl
    | some error =>
      have herror := applyResponsePolicies_run_error hvalid hf
      rw [h] at herror
      nomatch herror
  obtain ⟨out',hrun,hdeclared,hother⟩ := applyResponsePolicies_run hvalid hf
  obtain rfl : out = out' := congrArg Prod.snd (h.symm.trans hrun)
  have hread : ∀ name ∈ policyNames,
      readLine out name = declaredText (endpointHeaders endpoint) name := by
    intro name hn
    refine readLine_applied hdeclared (fun habsent => hother name habsent ?_) (hnew name hn)
    rintro rfl
    exact absurd hn (by decide)
  obtain ⟨hsecurity,hcache⟩ := declaredText_endpointHeaders hf
  have hline : ∀ name ∈ policyNames, name ≠ .cacheControl → readLine out name =
      endpoint.securityHeaders.bind fun policy => securityText policy name :=
    fun name hn hne => (hread name hn).trans (hsecurity name hne)
  have hcontrol : readLine out .cacheControl =
      endpoint.responseCache.bind fun policy => (cacheControlText policy).toOption :=
    (hread .cacheControl (by decide)).trans hcache
  rw [readPolicies,declaredReading,hline .xContentTypeOptions (by decide) (by decide),
    hline .xFrameOptions (by decide) (by decide),hline .referrerPolicy (by decide) (by decide),
    hline .contentSecurityPolicy (by decide) (by decide),
    hline .strictTransportSecurity (by decide) (by decide),hcontrol]
  have hages : (endpoint.responseCache.bind fun policy => (cacheControlText policy).toOption).bind
      readCacheControl = endpoint.responseCache.map fun cache => ⟨cache.visibility,
        if cache.visibility = .noStore then none else cache.maxAge.map (·.secs)⟩ := by
    cases hc : endpoint.responseCache with
    | none => rfl
    | some policy => cases ht : cacheControlText policy with
      | error error => simp [translationFailure,hc,cacheFailure,ht] at hf
      | ok text =>
        rw [Option.bind_some,ht]
        exact readCacheControl_cacheControlText ht
  rw [hages]
  cases endpoint.securityHeaders with
  | none => rfl
  | some policy =>
    obtain ⟨noSniff,frameOptions,referrerPolicy,contentSecurityPolicy,hsts⟩ := policy
    congr 1
    · cases noSniff <;> rfl
    · cases frameOptions with
      | none => rfl
      | some value => exact readFrameOptions_text value
    · cases referrerPolicy with
      | none => rfl
      | some value => exact readReferrerPolicy_text value
    · cases hsts with
      | none => rfl
      | some hsts => exact readHsts_hstsPieces hsts

section
local instance policyReadingPlatform : Platform := referencePlatform

theorem policies_read_back_article : ∃ out,
    (applyResponsePolicies cachedEndpoint).run Multimap.empty = (.ok (),out) ∧
    readPolicies out = ⟨true,some .deny,none,none,none,some ⟨.public,some 60⟩⟩ := by
  have htranslates : translationFailure cachedEndpoint Multimap.empty = none := rfl
  obtain ⟨out,hrun,-⟩ := applyResponsePolicies_run cachedEndpoint_policiesEncode.toPoliciesValid
    htranslates
  exact ⟨out,hrun,policies_read_back cachedEndpoint Multimap.empty out
    cachedEndpoint_policiesEncode.toPoliciesValid (fun _ _ => rfl) hrun⟩

end
end SoapAxum.Router
