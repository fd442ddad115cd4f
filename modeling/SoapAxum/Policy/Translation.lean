import SoapAxum.Http.Contract
import SoapAxum.Semantics.Mutation

/-! Translation of the portable response policies of an endpoint into concrete headers. -/
namespace SoapAxum.Policy
open SoapAxum.Http SoapAxum.Text SoapAxum.Data SoapAxum.Semantics

def headerValue (kind : String) (value : Str) : SoapResult HeaderValue :=
  match HeaderValue.fromStr value with
  | some value => .ok value
  | none => .error ((SoapError.validation (kind ++ " cannot be encoded as an HTTP header")).withSource
      [.technical "failed to parse header value"])

lemma headerValue_eq_ok {kind : String} {text : Str} {value : HeaderValue} :
    headerValue kind text = .ok value ↔ HeaderValue.fromStr text = some value := by
  rw [headerValue]
  cases HeaderValue.fromStr text <;> simp

def asSecs (duration : Duration) : Str := Nat.toDigits 10 duration.secs

def frameOptionsValue : FrameOptions → HeaderValue
  | .deny => .fromStatic "DENY" (by decide)
  | .sameOrigin => .fromStatic "SAMEORIGIN" (by decide)

def referrerPolicyValue : ReferrerPolicy → HeaderValue
  | .noReferrer => .fromStatic "no-referrer" (by decide)
  | .strictOriginWhenCrossOrigin => .fromStatic "strict-origin-when-cross-origin" (by decide)

def hstsText (hsts : HstsPolicy) : Str :=
  "max-age=".toList ++ asSecs hsts.maxAge ++
    (if hsts.includeSubdomains then "; includeSubDomains".toList else []) ++
    (if hsts.preload then "; preload".toList else [])

section
variable [Platform]

def applySecurityHeaders (policy : SecurityHeadersPolicy) : Mutation SoapError HeaderMap Unit := do
  .ofExcept policy.validate
  (if policy.noSniff then
    .modify (·.insert .xContentTypeOptions (.fromStatic "nosniff" (by decide)))
  else pure ())
  .ifSome policy.frameOptions fun frameOptions =>
    .modify (·.insert .xFrameOptions (frameOptionsValue frameOptions))
  .ifSome policy.referrerPolicy fun referrerPolicy =>
    .modify (·.insert .referrerPolicy (referrerPolicyValue referrerPolicy))
  .ifSome policy.contentSecurityPolicy fun contentSecurityPolicy => do
    let value ← .ofExcept (headerValue "content security policy" contentSecurityPolicy)
    .modify (·.insert .contentSecurityPolicy value)
  .ifSome policy.hsts fun hsts => do
    let value ← .ofExcept (headerValue "HSTS policy" (hstsText hsts))
    .modify (·.insert .strictTransportSecurity value)

end

def pushUnique (values : List Str) (candidate : Str) : List Str :=
  if values.any fun existing => eqIgnoreAsciiCase existing candidate then values
  else values ++ [candidate]

/-- The names that one `Vary` line lists. -/
def varyNames (line : Str) : List Str :=
  ((line.splitOn ',').map trim).filter fun name => !name.isEmpty

/-- Collect the names of one line. There is no result when the line lists `*`. -/
def collectNames : List Str → List Str → Option (List Str)
  | [],values => some values
  | name :: names,values =>
    if name = ['*'] then none else collectNames names (pushUnique values name)

def invalidVary : SoapError :=
  (SoapError.validation "invalid Vary header").withSource
    [.technical "failed to convert header to a str"]

/-- Collect the names of all `Vary` lines. There is no result when a line lists `*`. -/
def collectVary : List HeaderValue → List Str → SoapResult (Option (List Str))
  | [],values => .ok (some values)
  | value :: lines,values => match value.toStr with
    | none => .error invalidVary
    | some line => match collectNames (varyNames line) values with
      | none => .ok none
      | some values => collectVary lines values

def mergeVary (policy : ResponseCachePolicy) : Mutation SoapError HeaderMap Unit :=
  if policy.vary.isEmpty then pure () else do
    let headers ← .get
    match ← .ofExcept (collectVary (headers.getAll .vary) []) with
    | none => .modify (·.insert .vary (.fromStatic "*" (by decide)))
    | some values =>
      let values := policy.vary.foldl (fun values name => pushUnique values name.text) values
      let value ← .ofExcept (headerValue "Vary policy" (", ".toList.intercalate values))
      .modify (·.insert .vary value)

def cacheControlText (policy : ResponseCachePolicy) : SoapResult Str :=
  match policy.visibility,policy.maxAge with
  | .noStore,_ => .ok "no-store".toList
  | .private,some maxAge => .ok ("private, max-age=".toList ++ asSecs maxAge)
  | .public,some maxAge => .ok ("public, max-age=".toList ++ asSecs maxAge)
  | _,_ => .error (.validation "invalid response cache policy reached Axum translation")

section
variable [Platform]

def applyCacheHeaders (policy : ResponseCachePolicy) : Mutation SoapError HeaderMap Unit := do
  .ofExcept policy.validate
  let value ← .ofExcept (cacheControlText policy)
  let value ← .ofExcept (headerValue "response cache policy" value)
  .modify (·.insert .cacheControl value)
  mergeVary policy

def applyResponsePolicies (endpoint : EndpointMetadata) : Mutation SoapError HeaderMap Unit := do
  .ifSome endpoint.securityHeaders applySecurityHeaders
  .ifSome endpoint.responseCache applyCacheHeaders

end
end SoapAxum.Policy
