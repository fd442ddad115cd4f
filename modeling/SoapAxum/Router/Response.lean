import SoapAxum.Policy.Translation

/-! Responses of the adapter: error mapping, response effects, cookies, and the response of an
endpoint outcome or a guard rejection. -/
namespace SoapAxum.Router
open SoapAxum.Http SoapAxum.Text SoapAxum.Data SoapAxum.Semantics SoapAxum.Policy

/-- A serialized successful response before conversion. -/
structure RouteResponse where
  status : Option StatusCode
  headers : HeaderMap
  body : Bytes
  effects : HttpResponseEffects
  deriving DecidableEq,Repr

/-- The outcome that middleware passes outwards. -/
structure EndpointOutcome where
  result : SoapResult RouteResponse
  effects : HttpResponseEffects

structure EndpointGuardRejection where
  error : SoapError
  effects : HttpResponseEffects
  deriving DecidableEq,Repr

def EndpointGuardRejection.new (error : SoapError) : EndpointGuardRejection := ⟨error,.new⟩

namespace EndpointOutcome

def success (response : RouteResponse) : EndpointOutcome := ⟨.ok response,.new⟩
def failure (error : SoapError) : EndpointOutcome := ⟨.error error,.new⟩
def fromResult (result : SoapResult RouteResponse) : EndpointOutcome := ⟨result,.new⟩

end EndpointOutcome

def applicationJson : HeaderValue := .fromStatic "application/json" (by decide)

def sameSiteText : SameSite → Str
  | .strict => "Strict".toList
  | .lax => "Lax".toList
  | .none => "None".toList

/-- The text of a `Set-Cookie` header. -/
def cookieText (cookie : ResponseCookie) : Str :=
  cookie.name ++ '=' :: cookie.value ++
    cookie.path.elim [] (fun path => "; Path=".toList ++ path) ++
    cookie.domain.elim [] (fun domain => "; Domain=".toList ++ domain) ++
    cookie.maxAge.elim [] (fun maxAge => "; Max-Age=".toList ++ asSecs maxAge) ++
    (if cookie.secure then "; Secure".toList else []) ++
    (if cookie.httpOnly then "; HttpOnly".toList else []) ++
    cookie.sameSite.elim [] (fun sameSite => "; SameSite=".toList ++ sameSiteText sameSite)

def replaceHeaders (target source : HeaderMap) : HeaderMap := target.overlay source

section
variable [Platform]

def serializeErrorBody (body : HttpErrorBody) : Bytes :=
  (Platform.toVec body).getD (utf8
    "\x7b\"code\":\"internal_error\",\"message\":\"failed to encode error response\",\"diagnostic_id\":null\x7d".toList)

/-- A protocol rejection in the chain answers for itself, any other error goes to the mapper. -/
def mappedError (mapper : HttpErrorMapper) (error : SoapError) : HttpErrorResponse :=
  match HttpRejection.find error with
  | some rejection =>
    { status := rejection.status
      body := ⟨rejection.code,rejection.message,error.diagnosticId⟩
      headers := Multimap.empty }
  | none => mapper error

def errorResponse (mapper : HttpErrorMapper) (error : SoapError) : Response :=
  let mapped := mappedError mapper error
  { status := mapped.status
    headers := mapped.headers.insert .contentType applicationJson
    body := serializeErrorBody mapped.body }

def encodeCookie (cookie : ResponseCookie) : SoapResult HeaderValue := do
  cookie.validate
  match HeaderValue.fromStr (cookieText cookie) with
  | some value => .ok value
  | none => .error ((SoapError.validation "response cookie cannot be encoded").withSource
      [.technical "failed to parse header value"])

def appendCookies : List ResponseCookie → Mutation SoapError Response Unit
  | [] => pure ()
  | cookie :: cookies => do
    let encoded ← .ofExcept (encodeCookie cookie)
    .modify fun response => { response with headers := response.headers.append .setCookie encoded }
    appendCookies cookies

def applyEffects (effects : HttpResponseEffects) : Mutation SoapError Response Unit := do
  .ofExcept effects.validate
  .ifSome effects.status fun status => .modify fun response => { response with status }
  .modify fun response =>
    { response with headers := replaceHeaders response.headers effects.headers }
  appendCookies effects.cookies

def successResponse (successStatus : StatusCode) (routeResponse : RouteResponse) :
    SoapResult Response := do
  routeResponse.effects.validate
  let response : Response :=
    { status := routeResponse.status.getD successStatus
      headers := routeResponse.headers
      body := routeResponse.body }
  match (applyEffects routeResponse.effects).run response with
  | (.ok (),response) => .ok response
  | (.error error,_) => .error error

def outcomeResponse (mapper : HttpErrorMapper) (successStatus : StatusCode)
    (outcome : EndpointOutcome) : Response :=
  match outcome.effects.validate with
  | .error error => errorResponse mapper error
  | .ok () =>
    let built : SoapResult Response := match outcome.result with
      | .ok routeResponse => successResponse successStatus routeResponse
      | .error error => .ok (errorResponse mapper error)
    match built with
    | .error error => errorResponse mapper error
    | .ok response => match (applyEffects outcome.effects).run response with
      | (.ok (),response) => response
      | (.error error,_) => errorResponse mapper error

/-- The response of a guard rejection before the endpoint policies. -/
def rejectionResponse (mapper : HttpErrorMapper) (rejection : EndpointGuardRejection) : Response :=
  match (applyEffects rejection.effects).run (errorResponse mapper rejection.error) with
  | (.ok (),response) => response
  | (.error error,_) => errorResponse mapper error

/-- Apply the policies of an endpoint, or answer with their error instead. -/
def withPolicies (mapper : HttpErrorMapper) (endpoint : EndpointMetadata) (response : Response) :
    Response :=
  match (applyResponsePolicies endpoint).run response.headers with
  | (.ok (),headers) => { response with headers }
  | (.error error,_) => errorResponse mapper error

end
end SoapAxum.Router
