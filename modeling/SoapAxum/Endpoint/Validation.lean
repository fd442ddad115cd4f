import SoapAxum.Endpoint.Passage

/-! The validation middleware. It shows the request to a validator, and runs the rest of the pipeline
only if that finds nothing. -/
namespace SoapAxum.Endpoint
open SoapAxum.Http SoapAxum.Text SoapAxum.Data SoapAxum.Semantics SoapAxum.Request SoapAxum.Router

/-- What other crates see of a request. -/
structure HttpRequestView where
  method : Method
  uri : Uri
  headers : HeaderMap
  cookie : Str → Option Str
  pathParameter : Str → Option Str
  queryParameters : Str → Option (List Str)
  clientIp : Option IpAddr
  requestId : Option MessageId

def NormalizedRequestHead.view (head : NormalizedRequestHead) : HttpRequestView where
  method := head.method
  uri := head.uri
  headers := head.headers
  cookie name := head.cookies[name]?
  pathParameter name := head.pathParameters[name]?
  queryParameters name := head.queryParameters[name]?
  clientIp := head.clientIp
  requestId := head.requestId

structure HttpValidationInput where
  endpoint : EndpointMetadata
  request : HttpRequestView
  body : Bytes

/-- `HttpValidationService::validate` of `soaprs-validation`. -/
abbrev HttpValidationService := HttpValidationInput → Future (SoapResult Unit)

section
variable [Platform]

def validationInput (request : RouteRequest) : HttpValidationInput :=
  ⟨request.endpoint,NormalizedRequestHead.view request.normalized.head,request.normalized.body⟩

structure ValidationMiddleware where
  service : HttpValidationService

namespace ValidationMiddleware

def handle (middleware : ValidationMiddleware) (request : RouteRequest) : Future Handling := do
  match ← middleware.service (validationInput request) with
  | .error error => pure (.shortCircuit request (.failure error))
  | .ok () => pure (.delegate request fun request outcome => pure (request,outcome))

def endpointMiddleware (middleware : ValidationMiddleware) : EndpointMiddleware where
  enforcementCapabilities := [.requestValidation]
  handle := middleware.handle

variable {middleware : ValidationMiddleware} {request left : RouteRequest}

lemma value_handle_of_error {error : SoapError}
    (h : (middleware.service (validationInput request)).value = some (.error error)) :
    (middleware.handle request).value = some (.shortCircuit request (.failure error)) := by
  rw [handle,Coroutine.value_bind,h]
  rfl

lemma value_handle_of_ok (h : (middleware.service (validationInput request)).value = some (.ok ())) :
    (middleware.handle request).value =
      some (.delegate request fun request outcome => pure (request,outcome)) := by
  rw [handle,Coroutine.value_bind,h]
  rfl

/-- Only a request that the validator accepts is handed on, and it is handed on as it was. -/
theorem delegates_iff : Delegates middleware.endpointMiddleware request left ↔
    left = request ∧ (middleware.service (validationInput request)).value = some (.ok ()) := by
  constructor
  · intro h
    cases hv : (middleware.service (validationInput request)).value with
    | none =>
      have hnone : (middleware.handle request).value = none := by
        rw [handle,Coroutine.value_bind,hv]
        rfl
      rcases h with ⟨after,h⟩ | ⟨polls,after,h⟩ <;> exact nomatch hnone.symm.trans h
    | some verdict =>
      cases verdict with
      | error error =>
        have hanswers := value_handle_of_error hv
        rcases h with ⟨after,h⟩ | ⟨polls,after,h⟩ <;>
          exact nomatch Option.some.inj (hanswers.symm.trans h)
      | ok u =>
        have hdelegates := value_handle_of_ok hv
        rcases h with ⟨after,h⟩ | ⟨polls,after,h⟩
        · obtain ⟨rfl,-⟩ := Handling.delegate.inj (Option.some.inj (hdelegates.symm.trans h))
          exact ⟨rfl,rfl⟩
        · exact nomatch Option.some.inj (hdelegates.symm.trans h)
  · rintro ⟨rfl,h⟩
    exact .delegate _ (value_handle_of_ok h)

lemma answersOrDelegates (middleware : ValidationMiddleware) :
    middleware.endpointMiddleware.AnswersOrDelegates := by
  intro request seen polls after h
  obtain ⟨rfl,hvalid⟩ := delegates_iff.mp (.abandon polls after h)
  exact nomatch Option.some.inj ((value_handle_of_ok hvalid).symm.trans h)

end ValidationMiddleware
end
end SoapAxum.Endpoint
