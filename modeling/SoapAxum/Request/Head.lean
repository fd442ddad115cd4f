import SoapAxum.Data.BTreeMap
import SoapAxum.Http.Contract

/-! The normalized request, before and after its body has been read. -/
namespace SoapAxum.Request
open SoapAxum.Http SoapAxum.Text SoapAxum.Data

/-- A request target. The path is matched by the framework, the adapter reads the query. Most
requests leave the scheme and the authority out. -/
structure Uri where
  scheme : Option Str := none
  authority : Option Str := none
  path : Str
  query : Option Str
  deriving DecidableEq,Repr

inductive IpAddr where
  | v4 (octets : BitVec 32)
  | v6 (octets : BitVec 128)
  deriving DecidableEq,Repr

structure MessageId where
  text : String
  deriving DecidableEq,Repr

structure NormalizedRequestHead where
  method : Method
  uri : Uri
  headers : HeaderMap
  cookies : BTreeMap Str Str
  pathParameters : BTreeMap Str Str
  queryParameters : BTreeMap Str (List Str)
  clientIp : Option IpAddr
  requestId : Option MessageId

namespace NormalizedRequestHead

def new (method : Method) (uri : Uri) (headers : HeaderMap) (cookies : BTreeMap Str Str)
    (pathParameters : BTreeMap Str Str) (queryParameters : BTreeMap Str (List Str)) :
    NormalizedRequestHead :=
  ⟨method,uri,headers,cookies,pathParameters,queryParameters,none,none⟩

def setClientIp (head : NormalizedRequestHead) (clientIp : IpAddr) : NormalizedRequestHead :=
  { head with clientIp := some clientIp }

def setRequestId (head : NormalizedRequestHead) (requestId : MessageId) : NormalizedRequestHead :=
  { head with requestId := some requestId }

end NormalizedRequestHead

structure NormalizedRequest where
  head : NormalizedRequestHead
  body : Bytes

section
variable [Platform]

/-- What a guard sees and may change. -/
structure RouteRequestHead where
  endpoint : EndpointMetadata
  normalized : NormalizedRequestHead
  extensions : Platform.Extensions

/-- What middleware and the target see. Middleware may change it. -/
structure RouteRequest where
  endpoint : EndpointMetadata
  normalized : NormalizedRequest
  extensions : Platform.Extensions

def RouteRequestHead.withBody (head : RouteRequestHead) (body : Bytes) : RouteRequest :=
  ⟨head.endpoint,⟨head.normalized,body⟩,head.extensions⟩

end
end SoapAxum.Request
