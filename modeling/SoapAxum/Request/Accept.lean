import SoapAxum.Request.Head
import SoapAxum.Semantics.Fallible

/-! Content negotiation: which `Accept` headers let the adapter answer with JSON. -/
namespace SoapAxum.Request
open SoapAxum.Http SoapAxum.Text SoapAxum.Data SoapAxum.Semantics

def isAsciiDigitByte (byte : UInt8) : Bool := 0x30 ≤ byte && byte ≤ 0x39

/-- Whether a quality is above zero, if it is one. -/
def parseQuality (value : Str) : Option Bool :=
  let (whole,fraction) := (splitOnce '.' value).getD (value,[])
  let fraction := utf8 fraction
  if fraction.length > 3 || !fraction.all isAsciiDigitByte then none
  else if whole = ['0'] then some (fraction.any (· != 0x30))
  else if whole = ['1'] ∧ fraction.all (· == 0x30) then some true
  else none

/-- One pass of the loop over the parameters of a media range. -/
def readParameter (allowed : Bool) (parameter : Str) : SoapResult Bool :=
  match splitOnce '=' (trim parameter) with
  | none =>
    .error (HttpRejection.badRequest "Accept header contains an invalid parameter").intoError
  | some (name,value) =>
    if eqIgnoreAsciiCase (trim name) ['q'] then match parseQuality (trim value) with
      | none =>
        .error (HttpRejection.badRequest "Accept header contains an invalid quality value").intoError
      | some allowed => .ok allowed
    else .ok allowed

/-- The loop over the items of a line, which ends at the first acceptable one. -/
def acceptItems : List Str → SoapResult Bool
  | [] => .ok false
  | item :: items =>
    let segments := (trim item).splitOn ';'
    match splitOnce '/' (trim (segments.headD [])) with
    | none =>
      .error (HttpRejection.badRequest "Accept header contains an invalid media range").intoError
    | some (kind,subtype) => do
      let allowed ← segments.tail.foldlM readParameter true
      if allowed && (kind == ['*'] || eqIgnoreAsciiCase kind "application".toList) &&
          (subtype == ['*'] || eqIgnoreAsciiCase subtype "json".toList) then .ok true
      else acceptItems items

def acceptValueAllowsJson (value : Str) : SoapResult Bool := acceptItems (value.splitOn ',')

def notAcceptable : SoapError :=
  (HttpRejection.notAcceptable "client does not accept an application/json response").intoError

/-- The loop over the lines of the header, which ends at the first acceptable one. -/
def acceptLines : List HeaderValue → SoapResult Unit
  | [] => .error notAcceptable
  | value :: values => match value.toStr with
    | none => .error ((HttpRejection.badRequest "Accept header is not valid visible text").withSource
        [.technical "failed to convert header to a str"]).intoError
    | some value => do
      if ← acceptValueAllowsJson value then .ok () else acceptLines values

def RouteRequest.requireJsonAcceptable [Platform] (request : RouteRequest) : SoapResult Unit :=
  let values := request.normalized.head.headers.getAll .accept
  if values.isEmpty then .ok () else acceptLines values

end SoapAxum.Request
