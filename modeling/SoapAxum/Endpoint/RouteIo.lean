import SoapAxum.Endpoint.JsonResponse
import SoapAxum.Endpoint.Binding
import SoapAxum.Request.ContentType

/-! Route mappings between HTTP and the typed input and output of a target, and the targets that run
between the two halves of a mapping. -/
namespace SoapAxum.Endpoint
open SoapAxum.Http SoapAxum.Text SoapAxum.Data SoapAxum.Semantics SoapAxum.Request SoapAxum.Router

section
variable [Platform] {I O WireInput WireOutput : Type}

/-- Maps requests to the input of a target and its output to responses. A mapping that looks at the
request for its response has its own `mapResponseFor`. -/
structure RouteIo (I O : Type) where
  mapRequest : RouteRequest → SoapResult I
  mapResponse : O → EndpointMetadata → SoapResult RouteResponse
  mapResponseFor : O → RouteRequest → SoapResult RouteResponse :=
    fun output request => mapResponse output request.endpoint

/-- A JSON body is mapped by two functions of the application. `fromSlice` is the parser of the
transport object. -/
structure JsonRouteIo (I O WireInput : Type) where
  fromSlice : Bytes → Except JsonError WireInput
  mapInput : RouteRequest → WireInput → SoapResult I
  mapOutput : O → EndpointMetadata → SoapResult RouteResponse

def JsonRouteIo.routeIo (io : JsonRouteIo I O WireInput) : RouteIo I O where
  mapRequest request := do
    let wireInput ← request.decodeJson io.fromSlice
    io.mapInput request wireInput
  mapResponse := io.mapOutput

/-- JSON in both directions, with the serializer `toVec` of the transport output. -/
structure TypedJsonRouteIo (I O WireInput WireOutput : Type) where
  fromSlice : Bytes → Except JsonError WireInput
  toVec : Serializer WireOutput
  mapInput : RouteRequest → WireInput → SoapResult I
  mapOutput : O → EndpointMetadata → SoapResult (JsonResponse WireOutput)

namespace TypedJsonRouteIo

def mapResponse (io : TypedJsonRouteIo I O WireInput WireOutput) (output : O)
    (endpoint : EndpointMetadata) : SoapResult RouteResponse := do
  let response ← io.mapOutput output endpoint
  response.intoRouteResponse io.toVec

def routeIo (io : TypedJsonRouteIo I O WireInput WireOutput) : RouteIo I O where
  mapRequest request := do
    let wireInput ← request.decodeJson io.fromSlice
    request.requireJsonAcceptable
    io.mapInput request wireInput
  mapResponse := io.mapResponse
  mapResponseFor output request := do
    request.requireJsonAcceptable
    io.mapResponse output request.endpoint

end TypedJsonRouteIo

/-- No body is read. -/
structure EmptyRouteIo (I O : Type) where
  mapInput : RouteRequest → SoapResult I
  mapOutput : O → EndpointMetadata → SoapResult RouteResponse

def EmptyRouteIo.routeIo (io : EmptyRouteIo I O) : RouteIo I O where
  mapRequest := io.mapInput
  mapResponse := io.mapOutput

/-- `UseCase` of `soaprs-core`. -/
structure UseCase (I O : Type) where
  execute : I → Future (SoapResult O)

structure HttpHandler (I O : Type) where
  handle : RouteRequest → I → Future (SoapResult O)

/-- Run an operation between the two halves of a mapping. The operation is started with the input
that is reported. -/
def invoke (routeIo : RouteIo I O) (operation : RouteRequest → I → Future (SoapResult O))
    (request : RouteRequest) : Coroutine I EndpointOutcome :=
  match routeIo.mapRequest request with
  | .error error => pure (.failure error)
  | .ok input => do
    .report input
    match ← .await (operation request input) with
    | .ok output => pure (.fromResult (routeIo.mapResponseFor output request))
    | .error error => pure (.failure error)

/-- The target as an endpoint calls it. -/
def mappedTarget (routeIo : RouteIo I O) (operation : RouteRequest → I → Future (SoapResult O)) :
    EndpointTarget := ⟨fun request => (invoke routeIo operation request).mute⟩

structure UseCaseTarget (I O : Type) where
  useCase : UseCase I O
  routeIo : RouteIo I O

def UseCaseTarget.endpointTarget (target : UseCaseTarget I O) : EndpointTarget :=
  mappedTarget target.routeIo fun _ input => target.useCase.execute input

structure HandlerTarget (I O : Type) where
  handler : HttpHandler I O
  routeIo : RouteIo I O

def HandlerTarget.endpointTarget (target : HandlerTarget I O) : EndpointTarget :=
  mappedTarget target.routeIo target.handler.handle

/-- A use case that waits for its mapping. -/
structure UseCaseBinding (I O : Type) where
  useCase : UseCase I O

structure HandlerBinding (I O : Type) where
  handler : HttpHandler I O

def UseCaseBinding.routeIo (binding : UseCaseBinding I O) (routeIo : RouteIo I O) : EndpointBinding :=
  .routeIo (UseCaseTarget.endpointTarget ⟨binding.useCase,routeIo⟩)

def HandlerBinding.routeIo (binding : HandlerBinding I O) (routeIo : RouteIo I O) : EndpointBinding :=
  .routeIo (HandlerTarget.endpointTarget ⟨binding.handler,routeIo⟩)

/-- The operation is started on the input of the request, if there is one. -/
theorem trace_invoke (routeIo : RouteIo I O) (operation : RouteRequest → I → Future (SoapResult O))
    (request : RouteRequest) :
    (invoke routeIo operation request).trace = (routeIo.mapRequest request).toOption.toList := by
  rw [invoke]
  cases routeIo.mapRequest request with
  | error error => rfl
  | ok input =>
    simp only [Coroutine.trace_bind,Coroutine.trace_report,Coroutine.value_report,Option.elim_some,
      Coroutine.trace_await,Coroutine.value_await,List.nil_append]
    cases (operation request input).value with
    | none => rfl
    | some answer => cases answer <;> rfl

/-- Every run of an operation: it is not started without its input, and its answer or its error is
the outcome. -/
theorem returns_invoke {routeIo : RouteIo I O}
    {operation : RouteRequest → I → Future (SoapResult O)} {request : RouteRequest}
    {started : List I} {outcome : EndpointOutcome} :
    Coroutine.Returns (invoke routeIo operation request) started outcome ↔
      (∃ error, routeIo.mapRequest request = .error error ∧ started = [] ∧
        outcome = .failure error) ∨
      ∃ input answer, routeIo.mapRequest request = .ok input ∧ started = [input] ∧
        (operation request input).value = some answer ∧
        outcome = .fromResult (answer.bind (routeIo.mapResponseFor · request)) := by
  rw [invoke]
  cases hm : routeIo.mapRequest request with
  | error error =>
    rw [Coroutine.returns_pure]
    constructor
    · rintro ⟨rfl,rfl⟩
      exact Or.inl ⟨error,rfl,rfl,rfl⟩
    · rintro (⟨_,he,rfl,rfl⟩ | ⟨_,_,hok,-⟩)
      · obtain rfl := Except.error.inj he
        exact ⟨rfl,rfl⟩
      · nomatch hok
  | ok input =>
    simp only [Coroutine.returns_report_bind,Coroutine.returns_await_bind]
    constructor
    · rintro ⟨_,rfl,answer,ha,hr⟩
      refine Or.inr ⟨input,answer,rfl,?_,ha,?_⟩
      · cases answer <;> obtain ⟨rfl,-⟩ := Coroutine.returns_pure.mp hr <;> rfl
      · cases answer <;> obtain ⟨-,rfl⟩ := Coroutine.returns_pure.mp hr <;> rfl
    · rintro (⟨_,he,-⟩ | ⟨_,answer,hok,rfl,ha,rfl⟩)
      · nomatch he
      · obtain rfl := Except.ok.inj hok
        refine ⟨[],rfl,answer,ha,?_⟩
        cases answer <;> exact Coroutine.returns_pure.mpr ⟨rfl,rfl⟩

end
end SoapAxum.Endpoint
