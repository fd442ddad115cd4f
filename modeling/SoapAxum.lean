import SoapAxum.Semantics.Coroutine
import SoapAxum.Semantics.Mutation
import SoapAxum.Semantics.Fallible
import SoapAxum.Semantics.Footprint
import SoapAxum.Semantics.Deadline
import SoapAxum.Semantics.Agreement
import SoapAxum.Semantics.Occurrences
import SoapAxum.Semantics.Erasure
import SoapAxum.Text.Ascii
import SoapAxum.Text.Utf8
import SoapAxum.Text.Digits
import SoapAxum.Text.Debug
import SoapAxum.Data.Multimap
import SoapAxum.Data.Distinct
import SoapAxum.Data.BTreeMap
import SoapAxum.Data.HashMap
import SoapAxum.Http.Header
import SoapAxum.Http.Error
import SoapAxum.Http.Contract
import SoapAxum.Http.Reference
import SoapAxum.Policy.Translation
import SoapAxum.Policy.Headers
import SoapAxum.Policy.Vary
import SoapAxum.Policy.Application
import SoapAxum.Policy.Merge
import SoapAxum.Request.Cookies
import SoapAxum.Request.Query
import SoapAxum.Request.Parameters
import SoapAxum.Request.Components
import SoapAxum.Request.Form
import SoapAxum.Request.Head
import SoapAxum.Request.ClientIp
import SoapAxum.Request.Decode
import SoapAxum.Request.Accept
import SoapAxum.Request.Negotiation
import SoapAxum.Request.AcceptItems
import SoapAxum.Request.AcceptGrammar
import SoapAxum.Request.ContentType
import SoapAxum.Request.Quality
import SoapAxum.Request.TypedHeaders
import SoapAxum.Request.Debug
import SoapAxum.Router.Response
import SoapAxum.Router.Rejection
import SoapAxum.Router.Cookie
import SoapAxum.Router.Effects
import SoapAxum.Router.SetCookie
import SoapAxum.Router.Layers
import SoapAxum.Router.PolicyReading
import SoapAxum.Endpoint.Pipeline
import SoapAxum.Endpoint.Binding
import SoapAxum.Endpoint.Trace
import SoapAxum.Endpoint.Onion
import SoapAxum.Endpoint.Passage
import SoapAxum.Endpoint.JsonResponse
import SoapAxum.Endpoint.RouteIo
import SoapAxum.Endpoint.TypedRoute
import SoapAxum.Endpoint.Validation
import SoapAxum.Guard.RateLimit
import SoapAxum.Guard.RateLimitKey
import SoapAxum.Router.Dispatch
import SoapAxum.Router.Lifecycle
import SoapAxum.Guard.Authentication
import SoapAxum.Router.Admission
import SoapAxum.Router.Exits
import SoapAxum.Router.Redaction
import SoapAxum.Router.Deadline
import SoapAxum.Router.Body
import SoapAxum.Router.Timing
import SoapAxum.Router.Phases
import SoapAxum.Router.Observers
import SoapAxum.Router.Reach
import SoapAxum.Router.Protection
import SoapAxum.Router.Restriction
import SoapAxum.Router.Delivery
import SoapAxum.Router.Execution
import SoapAxum.Builder.Plugin
import SoapAxum.Builder.Builder
import SoapAxum.Builder.History
import SoapAxum.Builder.Calls
import SoapAxum.Builder.Composition
import SoapAxum.Builder.Enforcement
import SoapAxum.Builder.Nesting
import SoapAxum.Builder.Failure
import SoapAxum.Builder.Order
