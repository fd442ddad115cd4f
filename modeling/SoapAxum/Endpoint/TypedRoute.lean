import SoapAxum.Endpoint.RouteIo

/-! Typed JSON routes from the buffered request to the outcome: what is checked before the operation is
started, in which order, and what can still go wrong after it. -/
namespace SoapAxum.Endpoint
open SoapAxum.Http SoapAxum.Text SoapAxum.Data SoapAxum.Semantics SoapAxum.Request SoapAxum.Router

section
variable [Platform] {I O WireInput WireOutput : Type}

/-- Everything that is checked before the operation is started. -/
structure Admits (io : TypedJsonRouteIo I O WireInput WireOutput) (request : RouteRequest)
    (input : I) : Prop where
  contentType : request.requireJsonContentType = .ok ()
  acceptable : request.requireJsonAcceptable = .ok ()
  body : ∃ wireInput, io.fromSlice request.normalized.body = .ok wireInput ∧
    io.mapInput request wireInput = .ok input

/-- The first check that a request does not pass. -/
inductive Refuses (io : TypedJsonRouteIo I O WireInput WireOutput) (request : RouteRequest) :
    SoapError → Prop
  | contentType (error : SoapError) (refused : request.requireJsonContentType = .error error) :
      Refuses io request error
  | body (error : JsonError) (contentType : request.requireJsonContentType = .ok ())
      (refused : io.fromSlice request.normalized.body = .error error) :
      Refuses io request (jsonBodyError error)
  | accept (error : SoapError) (wireInput : WireInput)
      (contentType : request.requireJsonContentType = .ok ())
      (body : io.fromSlice request.normalized.body = .ok wireInput)
      (refused : request.requireJsonAcceptable = .error error) : Refuses io request error
  | input (error : SoapError) (wireInput : WireInput)
      (contentType : request.requireJsonContentType = .ok ())
      (body : io.fromSlice request.normalized.body = .ok wireInput)
      (acceptable : request.requireJsonAcceptable = .ok ())
      (refused : io.mapInput request wireInput = .error error) : Refuses io request error

/-- What becomes of a request: the operation is not started, or it fails, or its output cannot be
mapped or serialized, or there is a JSON response. -/
inductive TypedOutcome (io : TypedJsonRouteIo I O WireInput WireOutput)
    (operation : RouteRequest → I → Future (SoapResult O)) (request : RouteRequest) :
    List I → EndpointOutcome → Prop
  | refused (error : SoapError) (refuses : Refuses io request error) :
      TypedOutcome io operation request [] (.failure error)
  | failed (input : I) (error : SoapError) (admits : Admits io request input)
      (answer : (operation request input).value = some (.error error)) :
      TypedOutcome io operation request [input] (.failure error)
  | unmapped (input : I) (output : O) (error : SoapError) (admits : Admits io request input)
      (answer : (operation request input).value = some (.ok output))
      (mapped : io.mapOutput output request.endpoint = .error error) :
      TypedOutcome io operation request [input] (.failure error)
  | unserialized (input : I) (output : O) (response : JsonResponse WireOutput) (text : String)
      (admits : Admits io request input)
      (answer : (operation request input).value = some (.ok output))
      (mapped : io.mapOutput output request.endpoint = .ok response)
      (serialized : io.toVec response.value = .error text) :
      TypedOutcome io operation request [input] (.failure (serializationError text))
  | responded (input : I) (output : O) (response : JsonResponse WireOutput) (body : Bytes)
      (admits : Admits io request input)
      (answer : (operation request input).value = some (.ok output))
      (mapped : io.mapOutput output request.endpoint = .ok response)
      (serialized : io.toVec response.value = .ok body) :
      TypedOutcome io operation request [input] (.success
        { status := response.status
          headers := response.headers.insert .contentType applicationJson
          body
          effects := response.effects })

namespace TypedJsonRouteIo

variable {io : TypedJsonRouteIo I O WireInput WireOutput} {request : RouteRequest}

lemma mapRequest_eq_ok {input : I} :
    io.routeIo.mapRequest request = .ok input ↔ Admits io request input := by
  simp only [routeIo,Fallible.bind_eq_ok,RouteRequest.decodeJson,Fallible.mapError_eq_ok]
  constructor
  · rintro ⟨wireInput,⟨⟨⟩,hc,hb⟩,⟨⟩,ha,hi⟩
    exact ⟨hc,ha,wireInput,hb,hi⟩
  · rintro ⟨hc,ha,wireInput,hb,hi⟩
    exact ⟨wireInput,⟨(),hc,hb⟩,(),ha,hi⟩

theorem mapRequest_eq_error {error : SoapError} :
    io.routeIo.mapRequest request = .error error ↔ Refuses io request error := by
  have hmap : io.routeIo.mapRequest request = (do
      request.requireJsonContentType
      let wireInput ← (io.fromSlice request.normalized.body).mapError jsonBodyError
      request.requireJsonAcceptable
      io.mapInput request wireInput) := by
    change (request.decodeJson io.fromSlice >>= _) = _
    rw [RouteRequest.decodeJson]
    cases request.requireJsonContentType <;> rfl
  rw [hmap]
  constructor
  · intro h
    cases hc : request.requireJsonContentType with
    | error e =>
      rw [hc] at h
      exact Except.error.inj h ▸ .contentType e hc
    | ok u =>
      cases hb : io.fromSlice request.normalized.body with
      | error e =>
        rw [hc,hb] at h
        exact Except.error.inj h ▸ .body e hc hb
      | ok wireInput =>
        cases ha : request.requireJsonAcceptable with
        | error e =>
          rw [hc,hb,ha] at h
          exact Except.error.inj h ▸ .accept e wireInput hc hb ha
        | ok v =>
          rw [hc,hb,ha] at h
          exact .input error wireInput hc hb ha h
  · intro h
    cases h with
    | contentType error refused =>
      rw [refused]
      rfl
    | body error contentType refused =>
      rw [contentType,refused]
      rfl
    | accept error wireInput contentType body refused =>
      rw [contentType,body,refused]
      rfl
    | input error wireInput contentType body acceptable refused =>
      rw [contentType,body,acceptable]
      exact refused

/-- Once the operation has been started, the client is known to accept JSON. -/
theorem mapResponseFor_of_admits {input : I} (h : Admits io request input) (output : O) :
    io.routeIo.mapResponseFor output request = io.mapResponse output request.endpoint := by
  change (request.requireJsonAcceptable >>= _) = _
  rw [h.acceptable]
  rfl

/-- The outcome of an operation whose output can be mapped and serialized. -/
theorem value_invoke {operation : RouteRequest → I → Future (SoapResult O)} {input : I} {output : O}
    {response : JsonResponse WireOutput} {body : Bytes} (hadmits : Admits io request input)
    (hanswer : (operation request input).value = some (.ok output))
    (hmapped : io.mapOutput output request.endpoint = .ok response)
    (hserialized : io.toVec response.value = .ok body) :
    (invoke io.routeIo operation request).value =
      some (.success ((response.header .contentType applicationJson).withBytes body)) := by
  have hreturns := returns_invoke.mpr (Or.inr ⟨input,_,mapRequest_eq_ok.mpr hadmits,rfl,hanswer,rfl⟩)
  rw [hreturns.2]
  change some (EndpointOutcome.fromResult (io.routeIo.mapResponseFor output request)) = _
  rw [mapResponseFor_of_admits hadmits,mapResponse,hmapped,Fallible.ok_bind,
    JsonResponse.intoRouteResponse,hserialized]
  rfl

end TypedJsonRouteIo

/-- A typed JSON route starts its operation at most once, and exactly when the content type, the body,
the `Accept` header and the input mapping have passed, in this order. Negotiation never fails after
the operation, and whatever fails after it is an error of the operation, of the output mapping or of
the serializer. -/
theorem typed_json_route (io : TypedJsonRouteIo I O WireInput WireOutput)
    (operation : RouteRequest → I → Future (SoapResult O)) (request : RouteRequest)
    (started : List I) (outcome : EndpointOutcome) :
    Coroutine.Returns (invoke io.routeIo operation request) started outcome ↔
      TypedOutcome io operation request started outcome := by
  rw [returns_invoke]
  constructor
  · rintro (⟨error,hm,rfl,rfl⟩ | ⟨input,answer,hm,rfl,ha,rfl⟩)
    · exact .refused error (TypedJsonRouteIo.mapRequest_eq_error.mp hm)
    · have hadmits := TypedJsonRouteIo.mapRequest_eq_ok.mp hm
      cases answer with
      | error error => exact .failed input error hadmits ha
      | ok output =>
        change TypedOutcome io operation request [input]
          (.fromResult (io.routeIo.mapResponseFor output request))
        rw [TypedJsonRouteIo.mapResponseFor_of_admits hadmits,TypedJsonRouteIo.mapResponse]
        cases hresponse : io.mapOutput output request.endpoint with
        | error error => exact .unmapped input output error hadmits ha hresponse
        | ok response =>
          rw [Fallible.ok_bind,JsonResponse.intoRouteResponse]
          cases hbody : io.toVec response.value with
          | error text => exact .unserialized input output response text hadmits ha hresponse hbody
          | ok body => exact .responded input output response body hadmits ha hresponse hbody
  · intro h
    cases h with
    | refused error refuses =>
      exact Or.inl ⟨error,TypedJsonRouteIo.mapRequest_eq_error.mpr refuses,rfl,rfl⟩
    | failed input error admits answer =>
      exact Or.inr ⟨input,_,TypedJsonRouteIo.mapRequest_eq_ok.mpr admits,rfl,answer,rfl⟩
    | unmapped input output error admits answer mapped =>
      refine Or.inr ⟨input,_,TypedJsonRouteIo.mapRequest_eq_ok.mpr admits,rfl,answer,?_⟩
      change _ = EndpointOutcome.fromResult (io.routeIo.mapResponseFor output request)
      rw [TypedJsonRouteIo.mapResponseFor_of_admits admits,TypedJsonRouteIo.mapResponse,mapped]
      rfl
    | unserialized input output response text admits answer mapped serialized =>
      refine Or.inr ⟨input,_,TypedJsonRouteIo.mapRequest_eq_ok.mpr admits,rfl,answer,?_⟩
      change _ = EndpointOutcome.fromResult (io.routeIo.mapResponseFor output request)
      rw [TypedJsonRouteIo.mapResponseFor_of_admits admits,TypedJsonRouteIo.mapResponse,mapped,
        Fallible.ok_bind,JsonResponse.intoRouteResponse,serialized]
      rfl
    | responded input output response body admits answer mapped serialized =>
      refine Or.inr ⟨input,_,TypedJsonRouteIo.mapRequest_eq_ok.mpr admits,rfl,answer,?_⟩
      change _ = EndpointOutcome.fromResult (io.routeIo.mapResponseFor output request)
      rw [TypedJsonRouteIo.mapResponseFor_of_admits admits,TypedJsonRouteIo.mapResponse,mapped,
        Fallible.ok_bind,JsonResponse.intoRouteResponse,serialized]
      rfl

end
end SoapAxum.Endpoint
