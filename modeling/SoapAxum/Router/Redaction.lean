import SoapAxum.Request.Debug
import SoapAxum.Request.Form
import SoapAxum.Router.Exits

/-! What the debug output of a normalized request gives away. -/
namespace SoapAxum.Router
open SoapAxum.Http SoapAxum.Text SoapAxum.Data SoapAxum.Semantics SoapAxum.Request
open SoapAxum.Router.EndpointRuntime

/-- The pairs of a query that may be missing. -/
def queryPairs (query : Option Str) : List (Str × Str) :=
  query.elim [] fun query => formPairs (utf8 query)

theorem mem_of_parseQuery {query : Option Str} {parameters : BTreeMap Str (List Str)}
    (h : parseQuery query = .ok parameters) (name : Str) :
    name ∈ parameters ↔ name ∈ (queryPairs query).map Prod.fst := by
  cases query with
  | none =>
    obtain rfl := Except.ok.inj h
    simp [queryPairs]
  | some query =>
    obtain ⟨-,-,rfl⟩ := parseQuery_eq_ok.mp h
    rw [Std.ExtTreeMap.mem_iff_isSome_getElem?,getElem?_foldl_pushParameter_empty]
    by_cases hm : name ∈ (formPairs (utf8 query)).map Prod.fst <;> simp [queryPairs,hm]

/-- Heads have the same names if the requests and the captures have. -/
theorem sameNames_of_normalizeHead [Platform] {runtime : EndpointRuntime}
    {params params' : List (Str × Str)} {request request' : IncomingRequest}
    {head head' : RouteRequestHead} {rest rest' : Body}
    (hn : runtime.normalizeHead params request = .ok (head,rest))
    (hn' : runtime.normalizeHead params' request' = .ok (head',rest'))
    (hmethod : request.method = request'.method)
    (hheaders : request.headers.names = request'.headers.names)
    (hcookies : parseCookies request.headers = parseCookies request'.headers)
    (hparams : params.map Prod.fst = params'.map Prod.fst)
    (hquery : (queryPairs request.uri.query).map Prod.fst =
      (queryPairs request'.uri.query).map Prod.fst) :
    SameNames head.normalized head'.normalized := by
  obtain ⟨cookies,parameters,hc,hq,rfl,-⟩ := normalizeHead_eq_ok.mp hn
  obtain ⟨cookies',parameters',hc',hq',rfl,-⟩ := normalizeHead_eq_ok.mp hn'
  rw [hcookies] at hc
  obtain rfl := Except.ok.inj (hc.symm.trans hc')
  constructor
  case method => exact hmethod
  case headers => exact hheaders
  case cookies => exact fun name => Iff.rfl
  case pathParameters =>
    intro name
    change name ∈ (∅ : BTreeMap Str Str).insertMany params ↔
      name ∈ (∅ : BTreeMap Str Str).insertMany params'
    rw [Std.ExtTreeMap.mem_insertMany_list,Std.ExtTreeMap.mem_insertMany_list,hparams]
  case queryParameters =>
    intro name
    have hname := mem_of_parseQuery hq name
    rw [hquery] at hname
    exact hname.trans (mem_of_parseQuery hq' name).symm
  case clientIp => rfl
  case requestId => rfl

/-- The head with the address and the identity that the boundary has set, if any. -/
def identify [Platform] (clientIp : Option IpAddr) (requestId : Option MessageId)
    (head : RouteRequestHead) : RouteRequestHead :=
  let normalized := clientIp.elim head.normalized head.normalized.setClientIp
  { head with normalized := requestId.elim normalized normalized.setRequestId }

theorem sameNames_identify [Platform] {head head' : RouteRequestHead}
    (h : SameNames head.normalized head'.normalized) (clientIp : Option IpAddr)
    (requestId : Option MessageId) : SameNames (identify clientIp requestId head).normalized
      (identify clientIp requestId head').normalized := by
  unfold identify
  cases clientIp with
  | none =>
    cases requestId with
    | none => exact h
    | some requestId => exact h.setRequestId requestId
  | some clientIp =>
    cases requestId with
    | none => exact h.setClientIp clientIp
    | some requestId => exact (h.setClientIp clientIp).setRequestId requestId

lemma uri_identify [Platform] (clientIp : Option IpAddr) (requestId : Option MessageId)
    (head : RouteRequestHead) :
    (identify clientIp requestId head).normalized.uri = head.normalized.uri := by
  unfold identify
  cases clientIp <;> cases requestId <;> rfl

/-- Two requests with the same names are shown alike exactly if they have the same target. -/
theorem debug_hides_values_iff [Platform] [Debugging] {runtime : EndpointRuntime}
    {params params' : List (Str × Str)} {request request' : IncomingRequest}
    {head head' : RouteRequestHead} {rest rest' : Body} {body body' : Bytes}
    (hn : runtime.normalizeHead params request = .ok (head,rest))
    (hn' : runtime.normalizeHead params' request' = .ok (head',rest'))
    (h : SameNames head.normalized head'.normalized) (hb : body.length = body'.length)
    (clientIp : Option IpAddr) (requestId : Option MessageId) (shown : Shown) (alternate : Bool) :
    shown.debug (identify clientIp requestId head) body alternate =
        shown.debug (identify clientIp requestId head') body' alternate ↔
      request.uri.text = request'.uri.text := by
  have hsame := sameNames_identify h clientIp requestId
  obtain ⟨_,_,-,-,rfl,-⟩ := normalizeHead_eq_ok.mp hn
  obtain ⟨_,_,-,-,rfl,-⟩ := normalizeHead_eq_ok.mp hn'
  rw [hsame.shown_iff rfl hb,uri_identify,uri_identify]
  rfl

/-- Requests with the same names that are shown differently, in whatever way they are shown. -/
def ToldApart [Platform] [Debugging] (runtime : EndpointRuntime) (params params' : List (Str × Str))
    (request request' : IncomingRequest) : Prop :=
  ∃ head head' rest rest', runtime.normalizeHead params request = .ok (head,rest) ∧
    runtime.normalizeHead params' request' = .ok (head',rest') ∧
    SameNames head.normalized head'.normalized ∧
    ∀ (shown : Shown) (body : Bytes) (alternate : Bool),
      shown.debug head body alternate ≠ shown.debug head' body alternate

section

/-- Identifiers are written as their quoted text in a tuple. -/
@[reducible] def referenceDebugging : Debugging where
  escaped c := c.toNat < 32 || c.toNat == 127
  endpointId id := display
    ("EndpointId(".toList ++ debugStr (fun _ => false) id.value.toList false ++ ")".toList)
  messageId id := display
    ("MessageId(".toList ++ debugStr (fun _ => false) id.text.toList false ++ ")".toList)

local instance redactionPlatform : Platform := referencePlatform
local instance redactionDebugging : Debugging := referenceDebugging

/-- An article requested by its identifier, with a form as the query and one `Accept` line. -/
def articleQuery (id : Str) (pairs : List (Str × Str)) (accept : HeaderValue) : IncomingRequest :=
  { articleRequest with
    uri := { path := "/articles/".toList ++ id,query := some (serializePairs pairs) }
    headers := Multimap.empty.appendAll .accept [accept] }

lemma exists_normalizeHead_articleQuery (id : Str) (pairs : List (Str × Str))
    (accept : HeaderValue) : ∃ head, (articleRuntime cachedEndpoint (varyOutcome [])).normalizeHead
      [("id".toList,id)] (articleQuery id pairs accept) = .ok (head,.done) :=
  ⟨_,normalizeHead_eq_ok.mpr ⟨∅,_,rfl,parseQuery_serializePairs pairs,rfl,rfl⟩⟩

theorem sameNames_articleQuery {id id' : Str} {pairs pairs' : List (Str × Str)}
    {accept accept' : HeaderValue} {head head' : RouteRequestHead}
    (hn : (articleRuntime cachedEndpoint (varyOutcome [])).normalizeHead
      [("id".toList,id)] (articleQuery id pairs accept) = .ok (head,.done))
    (hn' : (articleRuntime cachedEndpoint (varyOutcome [])).normalizeHead
      [("id".toList,id')] (articleQuery id' pairs' accept') = .ok (head',.done))
    (h : pairs.map Prod.fst = pairs'.map Prod.fst) : SameNames head.normalized head'.normalized := by
  apply sameNames_of_normalizeHead hn hn' rfl rfl rfl rfl
  change (formPairs (utf8 (serializePairs pairs))).map Prod.fst =
    (formPairs (utf8 (serializePairs pairs'))).map Prod.fst
  rw [formPairs_serializePairs,formPairs_serializePairs,h]

theorem debug_hides_values_iff_article :
    let runtime := articleRuntime cachedEndpoint (varyOutcome [])
    ∃ head head', runtime.normalizeHead [("id".toList,"7".toList)] (articleQuery "7".toList []
        (.fromStatic "text/plain" (by decide))) = .ok (head,.done) ∧
      runtime.normalizeHead [("id".toList,"7".toList)] (articleQuery "7".toList []
        (.fromStatic "application/json" (by decide))) = .ok (head',.done) ∧
      ∀ (shown : Shown) alternate, shown.debug (identify none none head) [1] alternate =
        shown.debug (identify none none head') [2] alternate := by
  obtain ⟨head,hn⟩ := exists_normalizeHead_articleQuery "7".toList []
    (.fromStatic "text/plain" (by decide))
  obtain ⟨head',hn'⟩ := exists_normalizeHead_articleQuery "7".toList []
    (.fromStatic "application/json" (by decide))
  have hsame := sameNames_articleQuery hn hn' rfl
  refine ⟨head,head',hn,hn',fun shown alternate => ?_⟩
  exact (debug_hides_values_iff hn hn' hsame rfl none none shown alternate).mpr rfl

theorem toldApart_articleQuery {id id' : Str} {pairs pairs' : List (Str × Str)}
    (accept : HeaderValue) (hnames : pairs.map Prod.fst = pairs'.map Prod.fst)
    (htext : (articleQuery id pairs accept).uri.text ≠ (articleQuery id' pairs' accept).uri.text) :
    ToldApart (articleRuntime cachedEndpoint (varyOutcome [])) [("id".toList,id)] [("id".toList,id')]
      (articleQuery id pairs accept) (articleQuery id' pairs' accept) := by
  obtain ⟨head,hn⟩ := exists_normalizeHead_articleQuery id pairs accept
  obtain ⟨head',hn'⟩ := exists_normalizeHead_articleQuery id' pairs' accept
  have hsame := sameNames_articleQuery hn hn' hnames
  refine ⟨head,head',_,_,hn,hn',hsame,?_⟩
  intro shown body alternate hdebug
  obtain ⟨_,_,-,-,rfl,-⟩ := normalizeHead_eq_ok.mp hn
  obtain ⟨_,_,-,-,rfl,-⟩ := normalizeHead_eq_ok.mp hn'
  exact htext ((hsame.shown_iff rfl rfl shown alternate).mp hdebug)

/-- The targets `/articles/7?token=alice` and `/articles/7?token=bob` are told apart, and so are
`/articles/7?` and `/articles/8?`. -/
theorem debug_shows_query_and_path_values :
    let runtime := articleRuntime cachedEndpoint (varyOutcome [])
    let accept := .fromStatic "text/plain" (by decide)
    ToldApart runtime [("id".toList,"7".toList)] [("id".toList,"7".toList)]
      (articleQuery "7".toList [("token".toList,"alice".toList)] accept)
      (articleQuery "7".toList [("token".toList,"bob".toList)] accept) ∧
    ToldApart runtime [("id".toList,"7".toList)] [("id".toList,"8".toList)]
      (articleQuery "7".toList [] accept) (articleQuery "8".toList [] accept) :=
  ⟨toldApart_articleQuery _ rfl (by decide),toldApart_articleQuery _ rfl (by decide)⟩

end
end SoapAxum.Router
