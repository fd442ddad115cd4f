import SoapAxum.Request.ClientIp
import SoapAxum.Text.Debug

/-! The debug output of requests. Headers, cookies and parameters are written by name, a body by its
length, and the request target as it is. -/
namespace SoapAxum.Request
open SoapAxum.Http SoapAxum.Text SoapAxum.Data

/-- The debug output of other crates, and the characters that the Unicode tables of the standard
library have written by their code. -/
class Debugging where
  escaped : Char → Bool
  endpointId : EndpointId → Debug
  messageId : MessageId → Debug

/-- The target as the client wrote it. -/
def Uri.text (uri : Uri) : Str :=
  uri.scheme.elim [] (fun scheme => scheme ++ "://".toList) ++ uri.authority.elim [] id ++
    uri.path ++ uri.query.elim [] (fun query => '?' :: query)

section
variable [Debugging]

def debugNames (names : List Str) : Debug := debugList (names.map (debugStr Debugging.escaped))

def NormalizedRequestHead.debug (head : NormalizedRequestHead) : Debug := fun alternate =>
  (debugStruct alternate "NormalizedRequestHead".toList
    |>.field "method".toList (display head.method.name.toList)
    |>.field "uri".toList (display head.uri.text)
    |>.field "header_names".toList (debugNames (head.headers.names.map HeaderName.text))
    |>.field "cookie_names".toList (debugNames head.cookies.keys)
    |>.field "path_parameter_names".toList (debugNames head.pathParameters.keys)
    |>.field "query_parameter_names".toList (debugNames head.queryParameters.keys)
    |>.field "client_ip".toList (debugOption (head.clientIp.map fun ip => display ip.display))
    |>.field "request_id".toList (debugOption (head.requestId.map Debugging.messageId))
    |>.finishNonExhaustive)

def NormalizedRequest.debug (request : NormalizedRequest) : Debug := fun alternate =>
  (debugStruct alternate "NormalizedRequest".toList
    |>.field "head".toList request.head.debug
    |>.field "body_length".toList (display (Nat.toDigits 10 request.body.length))
    |>.finishNonExhaustive)

def RouteRequestHead.debug [Platform] (head : RouteRequestHead) : Debug := fun alternate =>
  (debugStruct alternate "RouteRequestHead".toList
    |>.field "endpoint".toList (Debugging.endpointId head.endpoint.id)
    |>.field "request".toList head.normalized.debug
    |>.finishNonExhaustive)

def RouteRequest.debug [Platform] (request : RouteRequest) : Debug := fun alternate =>
  (debugStruct alternate "RouteRequest".toList
    |>.field "endpoint".toList (Debugging.endpointId request.endpoint.id)
    |>.field "request".toList request.normalized.debug
    |>.finishNonExhaustive)

end

/-- The four types of requests that a program can ask for their debug output. -/
inductive Shown where
  | normalizedRequestHead
  | normalizedRequest
  | routeRequestHead
  | routeRequest
  deriving DecidableEq,Repr

def Shown.debug [Platform] [Debugging] (head : RouteRequestHead) (body : Bytes) : Shown → Debug
  | normalizedRequestHead => head.normalized.debug
  | normalizedRequest => (head.withBody body).normalized.debug
  | routeRequestHead => head.debug
  | routeRequest => (head.withBody body).debug

/-- Heads that differ in values alone, and in the target, which has some of the values in it. -/
structure SameNames (head head' : NormalizedRequestHead) : Prop where
  method : head.method = head'.method
  headers : head.headers.names = head'.headers.names
  cookies : ∀ name, name ∈ head.cookies ↔ name ∈ head'.cookies
  pathParameters : ∀ name, name ∈ head.pathParameters ↔ name ∈ head'.pathParameters
  queryParameters : ∀ name, name ∈ head.queryParameters ↔ name ∈ head'.queryParameters
  clientIp : head.clientIp = head'.clientIp
  requestId : head.requestId = head'.requestId

lemma SameNames.setClientIp {head head' : NormalizedRequestHead} (h : SameNames head head')
    (clientIp : IpAddr) : SameNames (head.setClientIp clientIp) (head'.setClientIp clientIp) :=
  { h with clientIp := rfl }

lemma SameNames.setRequestId {head head' : NormalizedRequestHead} (h : SameNames head head')
    (requestId : MessageId) :
    SameNames (head.setRequestId requestId) (head'.setRequestId requestId) :=
  { h with requestId := rfl }

section
variable [Debugging]

/-- Of everything that may differ, a head shows the target. -/
theorem SameNames.debug_iff {head head' : NormalizedRequestHead} (h : SameNames head head')
    (alternate : Bool) :
    head.debug alternate = head'.debug alternate ↔ head.uri.text = head'.uri.text := by
  unfold NormalizedRequestHead.debug
  rw [h.method,h.headers,BTreeMap.keys_eq_of_mem_iff h.cookies,
    BTreeMap.keys_eq_of_mem_iff h.pathParameters,BTreeMap.keys_eq_of_mem_iff h.queryParameters,
    h.clientIp,h.requestId,DebugStruct.finishNonExhaustive_field_inj]
  -- The six fields behind the target are the same.
  iterate 6 rw [DebugStruct.field_field_inj]
  rw [DebugStruct.field_inj]
  rfl

/-- A request shows its head, and of its body the length. -/
theorem debug_normalizedRequest_iff {request request' : NormalizedRequest}
    (hb : request.body.length = request'.body.length) (alternate : Bool) :
    request.debug alternate = request'.debug alternate ↔
      request.head.debug alternate = request'.head.debug alternate := by
  unfold NormalizedRequest.debug
  rw [hb,DebugStruct.finishNonExhaustive_field_inj,DebugStruct.field_field_inj,
    DebugStruct.field_inj]

variable [Platform]

lemma debug_routeRequestHead_iff {head head' : RouteRequestHead}
    (he : head.endpoint = head'.endpoint) (alternate : Bool) :
    head.debug alternate = head'.debug alternate ↔
      head.normalized.debug alternate = head'.normalized.debug alternate := by
  unfold RouteRequestHead.debug
  rw [he,DebugStruct.finishNonExhaustive_field_inj,DebugStruct.field_inj]

lemma debug_routeRequest_iff {request request' : RouteRequest}
    (he : request.endpoint = request'.endpoint) (alternate : Bool) :
    request.debug alternate = request'.debug alternate ↔
      request.normalized.debug alternate = request'.normalized.debug alternate := by
  unfold RouteRequest.debug
  rw [he,DebugStruct.finishNonExhaustive_field_inj,DebugStruct.field_inj]

/-- However a request is shown, the target is what can tell it from one with the same names. -/
theorem SameNames.shown_iff {head head' : RouteRequestHead} {body body' : Bytes}
    (h : SameNames head.normalized head'.normalized) (he : head.endpoint = head'.endpoint)
    (hb : body.length = body'.length) (shown : Shown) (alternate : Bool) :
    shown.debug head body alternate = shown.debug head' body' alternate ↔
      head.normalized.uri.text = head'.normalized.uri.text := by
  have hhead := h.debug_iff alternate
  have hbody : (head.withBody body).normalized.body.length =
      (head'.withBody body').normalized.body.length := hb
  have hrequest := debug_normalizedRequest_iff hbody alternate
  cases shown with
  | normalizedRequestHead => exact hhead
  | normalizedRequest => exact hrequest.trans hhead
  | routeRequestHead => exact (debug_routeRequestHead_iff he alternate).trans hhead
  | routeRequest =>
    have houter := @debug_routeRequest_iff _ _ (head.withBody body) (head'.withBody body') he alternate
    exact houter.trans (hrequest.trans hhead)

end
end SoapAxum.Request
