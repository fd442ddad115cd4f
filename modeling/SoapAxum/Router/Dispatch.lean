import SoapAxum.Endpoint.Pipeline
import SoapAxum.Request.Cookies
import SoapAxum.Request.Query

/-! Dispatch of a matched request: normalization, guards, body, middleware and target, response
policies, all under the deadline of the endpoint. -/
namespace SoapAxum.Router
open SoapAxum.Http SoapAxum.Text SoapAxum.Data SoapAxum.Semantics SoapAxum.Request SoapAxum.Endpoint

inductive BodyError where
  | lengthLimit
  | other (source : List ErrorLink)

/-- A request body as it arrives. -/
inductive Body where
  | done
  | data (chunk : Bytes) (rest : Body)
  | failed (error : BodyError)
  | pending (rest : Body)
  | stalled

/-- Collect a body of at most `remaining` bytes. -/
def toBytes : ℕ → Body → Future (Except BodyError Bytes)
  | _,.done => pure (.ok [])
  | remaining,.data chunk rest =>
    if remaining < chunk.length then pure (.error .lengthLimit) else do
      match ← toBytes (remaining-chunk.length) rest with
      | .ok bytes => pure (.ok (chunk ++ bytes))
      | .error error => pure (.error error)
  | _,.failed error => pure (.error error)
  | remaining,.pending rest => .pending (toBytes remaining rest)
  | _,.stalled => .stalled

section
variable [Platform]

/-- The request the framework hands over, with its body still unread. -/
structure IncomingRequest where
  method : Method
  uri : Uri
  headers : HeaderMap
  extensions : Platform.Extensions
  body : Body

structure EndpointRuntime where
  endpoint : EndpointMetadata
  target : EndpointTarget
  guards : List EndpointGuard
  middleware : List EndpointMiddleware
  hooks : List Platform.EndpointHook
  errorMapper : HttpErrorMapper
  maxBodyBytes : ℕ

namespace EndpointRuntime

def normalizeHead (runtime : EndpointRuntime) (params : List (Str × Str))
    (request : IncomingRequest) : SoapResult (RouteRequestHead × Body) := do
  let cookies ← parseCookies request.headers
  let queryParameters ← parseQuery request.uri.query
  let pathParameters := (∅ : BTreeMap Str Str).insertMany params
  let normalized := NormalizedRequestHead.new request.method request.uri request.headers cookies
    pathParameters queryParameters
  .ok (⟨runtime.endpoint,normalized,request.extensions⟩,request.body)

/-- A head is normalized exactly if its cookies and its query can be parsed. -/
theorem normalizeHead_eq_ok {runtime : EndpointRuntime} {params : List (Str × Str)}
    {request : IncomingRequest} {head : RouteRequestHead} {body : Body} :
    runtime.normalizeHead params request = .ok (head,body) ↔ ∃ cookies queryParameters,
      parseCookies request.headers = .ok cookies ∧
      parseQuery request.uri.query = .ok queryParameters ∧
      head = ⟨runtime.endpoint,.new request.method request.uri request.headers cookies
        ((∅ : BTreeMap Str Str).insertMany params) queryParameters,request.extensions⟩ ∧
      body = request.body := by
  unfold normalizeHead
  simp only [Fallible.bind_eq_ok]
  constructor
  · rintro ⟨cookies,hc,query,hq,hhead⟩
    obtain ⟨rfl,rfl⟩ := Prod.mk.inj (Except.ok.inj hhead)
    exact ⟨cookies,query,hc,hq,rfl,rfl⟩
  · rintro ⟨cookies,query,hc,hq,rfl,rfl⟩
    exact ⟨cookies,hc,query,hq,rfl⟩

def bodyLimit (runtime : EndpointRuntime) : ℕ :=
  let endpointLimit := match runtime.endpoint.bodyLimit with
    | some policy => if policy.maxBytes ≤ Platform.usizeMax then policy.maxBytes else Platform.usizeMax
    | none => runtime.maxBodyBytes
  min endpointLimit runtime.maxBodyBytes

def readBody (runtime : EndpointRuntime) (body : Body) : Future (SoapResult Bytes) := do
  match ← toBytes runtime.bodyLimit body with
  | .ok bytes => pure (.ok bytes)
  | .error .lengthLimit => pure (.error ((HttpRejection.payloadTooLarge
      ("request body exceeds the " ++ toString runtime.bodyLimit ++ "-byte limit")).withSource
      [.technical "length limit exceeded",.technical "length limit exceeded"]).intoError)
  | .error (.other source) =>
    pure (.error ((SoapError.infrastructure "failed to read HTTP request body").withSource source))

/-- Call every hook, in order. -/
def notify (runtime : EndpointRuntime) (event : HookEvent) : Coroutine Event Unit :=
  .reportAll ((List.range runtime.hooks.length).map fun index => .hook index event)

def applyPolicies (runtime : EndpointRuntime) (response : Response) : Coroutine Event Response := do
  .report (.applyingPolicies response)
  pure (withPolicies runtime.errorMapper runtime.endpoint response)

def errorResponseWithPolicies (runtime : EndpointRuntime) (error : SoapError) :
    Coroutine Event Response :=
  runtime.applyPolicies (errorResponse runtime.errorMapper error)

def guardRejectionResponse (runtime : EndpointRuntime) (request : RouteRequestHead)
    (rejection : EndpointGuardRejection) : Coroutine Event Response := do
  let response ← runtime.applyPolicies (rejectionResponse runtime.errorMapper rejection)
  runtime.notify (.guardRejection request rejection.error (.ofResponse response))
  pure response

def timeoutError (endpoint : EndpointMetadata) : SoapError :=
  .timeout ("endpoint `" ++ endpoint.id.value ++ "` request timed out")

def timeoutResponse (runtime : EndpointRuntime) : Coroutine Event Response := do
  let error := timeoutError runtime.endpoint
  let response ← runtime.errorResponseWithPolicies error
  runtime.notify (.timeout runtime.endpoint error (.ofResponse response))
  pure response

/-- The loop over the guards, which ends at the first rejection. -/
def checkGuards : List EndpointGuard → RouteRequestHead →
    Coroutine Event (RouteRequestHead × Option EndpointGuardRejection)
  | [],head => pure (head,none)
  | guard :: guards,head => do
    let (head,result) ← .await (guard.check head)
    match result with
    | .ok () =>
      .report (.guardAccepted guard)
      checkGuards guards head
    | .error rejection =>
      .report (.guardRejected guard)
      pure (head,some rejection)

/-- From the buffered request to the response. -/
def respond (runtime : EndpointRuntime) (request : RouteRequest) : Coroutine Event Response := do
  runtime.notify (.request request)
  let (request,outcome) ← EndpointNext.run ⟨runtime.middleware,runtime.target⟩ request
  runtime.notify (.outcome request outcome)
  let response ← runtime.applyPolicies
    (outcomeResponse runtime.errorMapper runtime.endpoint.successStatus outcome)
  runtime.notify (.response request (.ofResponse response))
  pure response

/-- From the admitted request head to the response. -/
def readAndRespond (runtime : EndpointRuntime) (head : RouteRequestHead) (body : Body) :
    Coroutine Event Response := do
  match ← .await (runtime.readBody body) with
  | .error error =>
    let response ← runtime.errorResponseWithPolicies error
    runtime.notify (.bodyRejection head error (.ofResponse response))
    pure response
  | .ok body =>
    .report (.bodyRead body)
    runtime.respond (head.withBody body)

def dispatchPipeline (runtime : EndpointRuntime) (params : List (Str × Str))
    (request : IncomingRequest) : Coroutine Event Response :=
  match runtime.normalizeHead params request with
  | .error error => do
    let response ← runtime.errorResponseWithPolicies error
    runtime.notify (.normalizationRejection runtime.endpoint error (.ofResponse response))
    pure response
  | .ok (head,body) => do
    runtime.notify (.requestHead head)
    match ← checkGuards runtime.guards head with
    | (head,some rejection) => runtime.guardRejectionResponse head rejection
    | (head,none) => runtime.readAndRespond head body

/-- Dispatch a request. The clock says how often the pipeline is found suspended before a deadline
is seen to have passed. -/
def dispatch (runtime : EndpointRuntime) (clock : Duration → ℕ) (params : List (Str × Str))
    (request : IncomingRequest) : Coroutine Event Response :=
  let pipeline := runtime.dispatchPipeline params request
  match runtime.endpoint.timeout with
  | some timeout => do
    match ← Coroutine.timeout (clock timeout) pipeline with
    | some response => pure response
    | none => runtime.timeoutResponse
  | none => pipeline

/-- Decode the captured path parameters as the framework's extractor does. It answers on its own for
the first that is not UTF-8. -/
def decodeCaptures : List (Str × Str) → Except Str (List (Str × Str))
  | [] => .ok []
  | (name,value) :: captures => match decodeUtf8 (percentDecode (utf8 value)) with
    | none => .error name
    | some value => do
      let params ← decodeCaptures captures
      .ok ((name,value) :: params)

/-- The handler of a route: the extractor first, then the closure. -/
def handle (runtime : EndpointRuntime) (clock : Duration → ℕ) (captures : List (Str × Str))
    (request : IncomingRequest) : Coroutine Event Response :=
  match decodeCaptures captures with
  | .error name => pure (Platform.invalidUtf8InPathParam name)
  | .ok params => runtime.dispatch clock params request

end EndpointRuntime
end
end SoapAxum.Router
