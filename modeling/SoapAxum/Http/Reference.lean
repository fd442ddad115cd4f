import SoapAxum.Http.Contract

/-! A platform with every part concrete, on which the definitions of the adapter can be run. -/
namespace SoapAxum.Http
open SoapAxum.Text SoapAxum.Data

/-- A character inside a JSON string. -/
def jsonChar (c : Char) : Str :=
  if c = '"' then "\\\"".toList
  else if c = '\\' then "\\\\".toList
  else if c.toNat = 8 then "\\b".toList
  else if c = '\t' then "\\t".toList
  else if c = '\n' then "\\n".toList
  else if c.toNat = 12 then "\\f".toList
  else if c = '\r' then "\\r".toList
  else if c.toNat < 32 then "\\u00".toList ++ [Nat.digitChar (c.toNat/16),Nat.digitChar (c.toNat%16)]
  else [c]

def jsonString (s : String) : Str := '"' :: s.toList.flatMap jsonChar ++ ['"']

def jsonErrorBody (body : HttpErrorBody) : Bytes :=
  utf8 ("\x7b\"code\":".toList ++ jsonString body.code ++ ",\"message\":".toList ++
    jsonString body.message ++ ",\"diagnostic_id\":".toList ++
    body.diagnosticId.elim "null".toList jsonString ++ "\x7d".toList)

/-- Every kind of error with its own status, and the message as it is. -/
def referenceErrorMapper : HttpErrorMapper := fun error =>
  { status := match error.kind with
      | .validation => 422
      | .notFound => 404
      | .conflict => 409
      | .timeout => 504
      | _ => 500
    body := ⟨"error",error.message,error.diagnosticId⟩
    headers := Multimap.empty }

def referenceCapabilityName : HttpEnforcementCapability → String
  | .authentication => "authentication"
  | .requestValidation => "request validation"
  | .rateLimit => "rate limit"
  | .cors => "cors"
  | .csrf => "csrf"

@[reducible] def referencePlatform : Platform where
  usizeMax := 0xFFFFFFFFFFFFFFFF
  Extensions := Unit
  EndpointHook := Unit
  MethodFilter := Method
  newEndpointId value := if value = "" then .error (.validation "empty endpoint id") else .ok ⟨value⟩
  methodFilter method :=
    if method.name ∈ ["CONNECT","DELETE","GET","HEAD","OPTIONS","PATCH","POST","PUT","TRACE"] then
      some method else none
  capabilityName := referenceCapabilityName
  validateEffects _ := .ok ()
  validateCookie _ := .ok ()
  validateSecurityHeaders _ := .ok ()
  validateResponseCache policy := match policy.visibility,policy.maxAge with
    | .noStore,none => .ok ()
    | .private,some _ => .ok ()
    | .public,some _ => .ok ()
    | _,_ => .error (.validation "inconsistent response cache policy")
  defaultErrorMapper := referenceErrorMapper
  toVec body := some (jsonErrorBody body)
  invalidUtf8InPathParam _ :=
    { status := 400
      headers := Multimap.empty.append .contentType
        (.fromStatic "text/plain; charset=utf-8" (by decide))
      body := utf8 "Invalid URL: Cannot parse value at index 0".toList }

end SoapAxum.Http
