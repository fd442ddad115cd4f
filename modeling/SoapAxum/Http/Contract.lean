import SoapAxum.Http.Error
import SoapAxum.Http.Header

/-! The transport-neutral contract the adapter is written against: endpoint metadata, response
effects and policies as data, and the functions of other crates as one interface. -/
namespace SoapAxum.Http
open SoapAxum.Text SoapAxum.Data

abbrev Bytes := List UInt8

structure Duration where
  secs : ℕ
  nanos : ℕ
  deriving DecidableEq,Repr

inductive SameSite where
  | strict
  | lax
  | none
  deriving DecidableEq,Repr

structure ResponseCookie where
  name : Str
  value : Str
  path : Option Str
  domain : Option Str
  maxAge : Option Duration
  secure : Bool
  httpOnly : Bool
  sameSite : Option SameSite
  deriving DecidableEq,Repr

structure HttpResponseEffects where
  status : Option StatusCode
  headers : HeaderMap
  cookies : List ResponseCookie
  deriving DecidableEq,Repr

def HttpResponseEffects.new : HttpResponseEffects := ⟨none,Multimap.empty,[]⟩

structure HttpErrorBody where
  code : String
  message : String
  diagnosticId : Option String
  deriving DecidableEq,Repr

structure HttpErrorResponse where
  status : StatusCode
  body : HttpErrorBody
  headers : HeaderMap
  deriving DecidableEq,Repr

abbrev HttpErrorMapper := SoapError → HttpErrorResponse

inductive FrameOptions where
  | deny
  | sameOrigin
  deriving DecidableEq,Repr

inductive ReferrerPolicy where
  | noReferrer
  | strictOriginWhenCrossOrigin
  deriving DecidableEq,Repr

structure HstsPolicy where
  maxAge : Duration
  includeSubdomains : Bool
  preload : Bool
  deriving DecidableEq,Repr

structure SecurityHeadersPolicy where
  noSniff : Bool
  frameOptions : Option FrameOptions
  referrerPolicy : Option ReferrerPolicy
  contentSecurityPolicy : Option Str
  hsts : Option HstsPolicy
  deriving DecidableEq,Repr

inductive CacheVisibility where
  | noStore
  | «private»
  | «public»
  deriving DecidableEq,Repr

structure ResponseCachePolicy where
  visibility : CacheVisibility
  maxAge : Option Duration
  vary : List HeaderName
  deriving DecidableEq,Repr

inductive HttpEnforcementCapability where
  | authentication
  | requestValidation
  | rateLimit
  | cors
  | csrf
  deriving DecidableEq,Repr

structure EndpointId where
  value : String
  deriving DecidableEq,Repr

structure Method where
  name : String
  deriving DecidableEq,Repr

/-- A declared body limit, never zero. -/
structure BodyLimitPolicy where
  maxBytes : ℕ
  maxBytes_pos : 0 < maxBytes
  deriving DecidableEq,Repr

inductive RateLimitScope where
  | «global»
  | clientIp
  | principal
  | apiKey
  | custom (name : String)
  deriving DecidableEq,Repr

structure RateLimitPolicy where
  requests : ℕ
  period : Duration
  burst : Option ℕ
  scope : RateLimitScope
  deriving DecidableEq,Repr

/-- What the adapter reads of an endpoint declaration. The capabilities are those that
`required_enforcement_capabilities` answers. -/
structure EndpointMetadata where
  id : EndpointId
  method : Method
  path : String
  successStatus : StatusCode
  bodyLimit : Option BodyLimitPolicy
  timeout : Option Duration
  securityHeaders : Option SecurityHeadersPolicy
  responseCache : Option ResponseCachePolicy
  requiredEnforcementCapabilities : List HttpEnforcementCapability
  rateLimit : Option RateLimitPolicy := none
  deriving DecidableEq,Repr

structure EndpointCatalog where
  endpoints : List EndpointMetadata
  deriving DecidableEq,Repr

def EndpointCatalog.endpoint (catalog : EndpointCatalog) (id : EndpointId) :
    Option EndpointMetadata := catalog.endpoints.find? fun endpoint => endpoint.id = id

structure Response where
  status : StatusCode
  headers : HeaderMap
  body : Bytes
  deriving DecidableEq,Repr

/-- The code outside this crate that the adapter calls or carries along. -/
class Platform where
  /-- `usize::MAX` of the target. -/
  usizeMax : ℕ
  Extensions : Type
  EndpointHook : Type
  MethodFilter : Type
  newEndpointId : String → SoapResult EndpointId
  methodFilter : Method → Option MethodFilter
  capabilityName : HttpEnforcementCapability → String
  validateEffects : HttpResponseEffects → SoapResult Unit
  validateCookie : ResponseCookie → SoapResult Unit
  validateSecurityHeaders : SecurityHeadersPolicy → SoapResult Unit
  validateResponseCache : ResponseCachePolicy → SoapResult Unit
  defaultErrorMapper : HttpErrorMapper
  /-- `serde_json::to_vec` on an error body. -/
  toVec : HttpErrorBody → Option Bytes
  /-- Axum's own answer to a path parameter that is not UTF-8 once decoded. -/
  invalidUtf8InPathParam : Str → Response

section
variable [Platform]

def EndpointId.new (value : String) : SoapResult EndpointId := Platform.newEndpointId value
def HttpResponseEffects.validate (effects : HttpResponseEffects) : SoapResult Unit :=
  Platform.validateEffects effects
def ResponseCookie.validate (cookie : ResponseCookie) : SoapResult Unit :=
  Platform.validateCookie cookie
def SecurityHeadersPolicy.validate (policy : SecurityHeadersPolicy) : SoapResult Unit :=
  Platform.validateSecurityHeaders policy
def ResponseCachePolicy.validate (policy : ResponseCachePolicy) : SoapResult Unit :=
  Platform.validateResponseCache policy

end
end SoapAxum.Http
