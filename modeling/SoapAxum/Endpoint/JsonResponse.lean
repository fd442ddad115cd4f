import SoapAxum.Router.Effects

/-! Responses as route mappings build them: a transport object or bytes, and then calls that set the
status, single headers and the effects. -/
namespace SoapAxum.Endpoint
open SoapAxum.Http SoapAxum.Text SoapAxum.Data SoapAxum.Semantics SoapAxum.Router

/-- The calls of a response builder. -/
inductive ResponseCall where
  | status (status : StatusCode)
  | header (name : HeaderName) (value : HeaderValue)
  | effects (effects : HttpResponseEffects)

namespace ResponseCall

def statuses (calls : List ResponseCall) : List StatusCode := calls.filterMap fun
  | .status code => some code
  | _ => none

/-- The values that are set for a header, in call order. -/
def valuesOf (name : HeaderName) (calls : List ResponseCall) : List HeaderValue :=
  calls.filterMap fun
    | .header name' value => if name' = name then some value else none
    | _ => none

def effectSets (calls : List ResponseCall) : List HttpResponseEffects := calls.filterMap fun
  | .effects set => some set
  | _ => none

lemma statuses_append (calls calls' : List ResponseCall) :
    statuses (calls ++ calls') = statuses calls ++ statuses calls' := List.filterMap_append

lemma valuesOf_append (name : HeaderName) (calls calls' : List ResponseCall) :
    valuesOf name (calls ++ calls') = valuesOf name calls ++ valuesOf name calls' :=
  List.filterMap_append

lemma effectSets_append (calls calls' : List ResponseCall) :
    effectSets (calls ++ calls') = effectSets calls ++ effectSets calls' := List.filterMap_append

end ResponseCall

/-- `serde_json::to_vec` on values of one type. -/
abbrev Serializer (T : Type) := T → Except String Bytes

def serializationError (text : String) : SoapError :=
  (SoapError.infrastructure "failed to serialize HTTP response").withSource [.technical text]

section
variable [Platform] {T : Type}

/-- A transport object with the metadata of its response. Effects are only attached once they have
passed their check. -/
structure JsonResponse (T : Type) where
  value : T
  status : Option StatusCode
  headers : HeaderMap
  effects : HttpResponseEffects
  checked : effects = .new ∨ effects.validate = .ok ()

namespace JsonResponse

def new (value : T) : JsonResponse T := ⟨value,none,Multimap.empty,.new,Or.inl rfl⟩

def setStatus (response : JsonResponse T) (status : StatusCode) : JsonResponse T :=
  { response with status := some status }

def header (response : JsonResponse T) (name : HeaderName) (value : HeaderValue) : JsonResponse T :=
  { response with headers := response.headers.insert name value }

def attach (response : JsonResponse T) (effects : HttpResponseEffects) :
    SoapResult (JsonResponse T) :=
  match h : effects.validate with
  | .error error => .error error
  | .ok () => .ok { response with effects,checked := Or.inr h }

def perform (response : JsonResponse T) : ResponseCall → SoapResult (JsonResponse T)
  | .status status => .ok (response.setStatus status)
  | .header name value => .ok (response.header name value)
  | .effects effects => response.attach effects

def intoRouteResponse (toVec : Serializer T) (response : JsonResponse T) : SoapResult RouteResponse := do
  let body ← (toVec response.value).mapError serializationError
  .ok { status := response.status
        headers := response.headers.insert .contentType applicationJson
        body
        effects := response.effects }

/-- The response with a body in place of the transport object. -/
def withBytes (response : JsonResponse T) (body : Bytes) : RouteResponse :=
  ⟨response.status,response.headers,body,response.effects⟩

end JsonResponse

namespace RouteResponse

def bytes (body : Bytes) : RouteResponse := ⟨none,Multimap.empty,body,.new⟩

def empty : RouteResponse := bytes []

def json (toVec : Serializer T) (value : T) : SoapResult RouteResponse := do
  let body ← (toVec value).mapError serializationError
  let response := bytes body
  .ok { response with headers := response.headers.insert .contentType applicationJson }

def setStatus (response : RouteResponse) (status : StatusCode) : RouteResponse :=
  { response with status := some status }

def header (response : RouteResponse) (name : HeaderName) (value : HeaderValue) : RouteResponse :=
  { response with headers := response.headers.insert name value }

def attach (response : RouteResponse) (effects : HttpResponseEffects) : SoapResult RouteResponse := do
  effects.validate
  .ok { response with effects }

def perform (response : RouteResponse) : ResponseCall → SoapResult RouteResponse
  | .status status => .ok (setStatus response status)
  | .header name value => .ok (header response name value)
  | .effects effects => attach response effects

end RouteResponse

/-- The last call of each kind counts, and every attached effect set has passed its check. -/
structure BuiltFrom (base : RouteResponse) (calls : List ResponseCall) (response : RouteResponse) :
    Prop where
  checked : ∀ effects ∈ ResponseCall.effectSets calls, effects.validate = .ok ()
  status : response.status = (ResponseCall.statuses calls).getLast?.or base.status
  headers : ∀ name, response.headers.getAll name =
    ((ResponseCall.valuesOf name calls).getLast?.elim (base.headers.getAll name) fun value => [value])
  body : response.body = base.body
  effects : response.effects = (ResponseCall.effectSets calls).getLast?.getD base.effects

theorem BuiltFrom.perform {base response response' : RouteResponse} {calls : List ResponseCall}
    {call : ResponseCall} (h : BuiltFrom base calls response)
    (hp : RouteResponse.perform response call = .ok response') :
    BuiltFrom base (calls ++ [call]) response' := by
  obtain ⟨hchecked,hstatus,hheaders,hbody,heffects⟩ := h
  cases call with
  | status status =>
    obtain rfl := Except.ok.inj hp
    have hnone : ResponseCall.effectSets [.status status] = [] := rfl
    constructor
    · rwa [ResponseCall.effectSets_append,hnone,List.append_nil]
    · rw [ResponseCall.statuses_append]
      exact congrArg (Option.or · _) List.getLast?_concat.symm
    · intro name
      have hname : ResponseCall.valuesOf name [.status status] = [] := rfl
      rw [ResponseCall.valuesOf_append,hname,List.append_nil]
      exact hheaders name
    · exact hbody
    · rwa [ResponseCall.effectSets_append,hnone,List.append_nil]
  | header name value =>
    obtain rfl := Except.ok.inj hp
    have hnone : ResponseCall.effectSets [.header name value] = [] := rfl
    have hstatuses : ResponseCall.statuses [.header name value] = [] := rfl
    constructor
    · rwa [ResponseCall.effectSets_append,hnone,List.append_nil]
    · rwa [ResponseCall.statuses_append,hstatuses,List.append_nil]
    · intro other
      rw [RouteResponse.header,Multimap.getAll_insert,hheaders,ResponseCall.valuesOf_append]
      by_cases hn : other = name
      · subst hn
        have hset : ResponseCall.valuesOf other [.header other value] = [value] := by
          simp [ResponseCall.valuesOf]
        rw [hset,List.getLast?_concat,if_pos rfl,Option.elim_some]
      · have hset : ResponseCall.valuesOf other [.header name value] = [] := by
          simp [ResponseCall.valuesOf,Ne.symm hn]
        rw [hset,List.append_nil,if_neg hn]
    · exact hbody
    · rwa [ResponseCall.effectSets_append,hnone,List.append_nil]
  | effects effects =>
    obtain ⟨⟨⟩,hvalid,hok⟩ := Fallible.bind_eq_ok.mp hp
    obtain rfl := Except.ok.inj hok
    have hsets : ResponseCall.effectSets [.effects effects] = [effects] := rfl
    have hstatuses : ResponseCall.statuses [.effects effects] = [] := rfl
    constructor
    · intro e he
      rw [ResponseCall.effectSets_append,hsets] at he
      rcases List.mem_append.mp he with he | he
      · exact hchecked e he
      · obtain rfl := List.mem_singleton.mp he
        exact hvalid
    · rwa [ResponseCall.statuses_append,hstatuses,List.append_nil]
    · intro name
      have hname : ResponseCall.valuesOf name [.effects effects] = [] := rfl
      rw [ResponseCall.valuesOf_append,hname,List.append_nil]
      exact hheaders name
    · exact hbody
    · rw [ResponseCall.effectSets_append,hsets,List.getLast?_concat]
      rfl

lemma builtFrom_nil (base : RouteResponse) : BuiltFrom base [] base :=
  ⟨by simp [ResponseCall.effectSets],rfl,fun _ => rfl,rfl,rfl⟩

/-- What a chain of calls builds. -/
theorem builtFrom_of_foldlM {base response : RouteResponse} {calls : List ResponseCall}
    (h : calls.foldlM RouteResponse.perform base = .ok response) : BuiltFrom base calls response := by
  have hstep : ∀ past built call built', BuiltFrom base past built →
      RouteResponse.perform built call = .ok built' → BuiltFrom base (past ++ [call]) built' :=
    fun _ _ _ _ hb hp => hb.perform hp
  have hlog := Fallible.foldlM_log hstep (builtFrom_nil base) h
  simpa using hlog

/-- The first effect set of a chain that does not pass its check, with its error. -/
def FirstUnchecked (calls : List ResponseCall) (error : SoapError) : Prop :=
  ∃ before effects after, ResponseCall.effectSets calls = before ++ effects :: after ∧
    (∀ e ∈ before, e.validate = .ok ()) ∧ effects.validate = .error error

theorem firstUnchecked_cons {effects : HttpResponseEffects} {calls : List ResponseCall}
    {error : SoapError} (h : effects.validate = .ok ()) :
    FirstUnchecked (.effects effects :: calls) error ↔ FirstUnchecked calls error := by
  have hsets : ResponseCall.effectSets (.effects effects :: calls) =
    effects :: ResponseCall.effectSets calls := rfl
  unfold FirstUnchecked
  rw [hsets]
  constructor
  · rintro ⟨before,bad,after,hsplit,hbefore,hbad⟩
    cases before with
    | nil =>
      obtain ⟨rfl,rfl⟩ := List.cons.inj hsplit
      rw [h] at hbad
      nomatch hbad
    | cons first before =>
      obtain ⟨rfl,hrest⟩ := List.cons.inj hsplit
      exact ⟨before,bad,after,hrest,(List.forall_mem_cons.mp hbefore).2,hbad⟩
  · rintro ⟨before,bad,after,hsplit,hbefore,hbad⟩
    exact ⟨effects :: before,bad,after,by rw [hsplit]; rfl,List.forall_mem_cons.mpr ⟨h,hbefore⟩,hbad⟩

/-- A chain of calls fails exactly at its first unchecked effect set. -/
theorem foldlM_perform_error {base : RouteResponse} {calls : List ResponseCall} {error : SoapError} :
    calls.foldlM RouteResponse.perform base = .error error ↔ FirstUnchecked calls error := by
  induction calls generalizing base with
  | nil =>
    refine iff_of_false (fun h => nomatch h) ?_
    rintro ⟨before,effects,after,h,-⟩
    simp [ResponseCall.effectSets] at h
  | cons call calls ih =>
    rw [List.foldlM_cons]
    cases call with
    | status status => exact ih
    | header name value => exact ih
    | effects effects =>
      rw [RouteResponse.perform,RouteResponse.attach]
      cases hv : effects.validate with
      | error error' =>
        constructor
        · intro h
          obtain rfl := Except.error.inj h
          exact ⟨[],effects,_,rfl,by simp,hv⟩
        · rintro ⟨before,bad,after,hsplit,hbefore,hbad⟩
          cases before with
          | nil =>
            obtain ⟨rfl,-⟩ := List.cons.inj hsplit
            rw [hv] at hbad
            exact congrArg Except.error (Except.error.inj hbad)
          | cons first before =>
            obtain ⟨rfl,-⟩ := List.cons.inj hsplit
            have hfirst := (List.forall_mem_cons.mp hbefore).1
            rw [hv] at hfirst
            nomatch hfirst
      | ok u => exact ih.trans (firstUnchecked_cons hv).symm

namespace JsonResponse

/-- Both builders do the same to what they have in common. -/
theorem perform_withBytes (body : Bytes) (response : JsonResponse T) (call : ResponseCall) :
    RouteResponse.perform (response.withBytes body) call =
      (response.perform call).map (·.withBytes body) := by
  cases call with
  | status status => rfl
  | header name value => rfl
  | effects effects =>
    rw [RouteResponse.perform,RouteResponse.attach,perform,attach]
    split
    · next error h =>
      rw [h]
      rfl
    · next h => exact Fallible.bind_eq_ok.mpr ⟨(),h,rfl⟩

theorem value_perform {response response' : JsonResponse T} {call : ResponseCall}
    (h : response.perform call = .ok response') : response'.value = response.value := by
  cases call with
  | status status => exact Except.ok.inj h ▸ rfl
  | header name value => exact Except.ok.inj h ▸ rfl
  | effects effects =>
    rw [perform,attach] at h
    split at h
    · nomatch h
    · exact Except.ok.inj h ▸ rfl

lemma value_foldlM {response response' : JsonResponse T} {calls : List ResponseCall}
    (h : calls.foldlM perform response = .ok response') : response'.value = response.value := by
  induction calls generalizing response with
  | nil => exact Except.ok.inj h ▸ rfl
  | cons call calls ih =>
    obtain ⟨mid,hmid,h⟩ := Fallible.bind_eq_ok.mp h
    exact (ih h).trans (value_perform hmid)

lemma builtFrom_of_foldlM {response response' : JsonResponse T} {calls : List ResponseCall}
    (body : Bytes) (h : calls.foldlM perform response = .ok response') :
    BuiltFrom (response.withBytes body) calls (response'.withBytes body) := by
  refine Endpoint.builtFrom_of_foldlM ?_
  rw [Fallible.foldlM_map (perform_withBytes body),h]
  rfl

theorem foldlM_perform_error {response : JsonResponse T} {calls : List ResponseCall}
    {error : SoapError} :
    calls.foldlM perform response = .error error ↔ FirstUnchecked calls error := by
  have hbytes : calls.foldlM RouteResponse.perform (response.withBytes []) = .error error ↔
      FirstUnchecked calls error := Endpoint.foldlM_perform_error
  rw [← hbytes,Fallible.foldlM_map (perform_withBytes [])]
  cases calls.foldlM perform response with
  | error e =>
    exact ⟨fun h => congrArg _ (Except.error.inj h),fun h => congrArg _ (Except.error.inj h)⟩
  | ok built => exact iff_of_false (fun h => nomatch h) (fun h => nomatch h)

end JsonResponse

/-- A response built around a transport object fails with the error of the first effect set that does
not pass its check, or else if the object cannot be serialized. Otherwise it is the serialized object
as JSON, whatever content type was set, and every other part is as its last call has it. -/
theorem json_response_chain (toVec : Serializer T) (value : T) (calls : List ResponseCall) :
    let built := calls.foldlM JsonResponse.perform (JsonResponse.new value) >>=
      JsonResponse.intoRouteResponse toVec
    (∀ error, built = .error error ↔ FirstUnchecked calls error ∨
      (∀ effects ∈ ResponseCall.effectSets calls, effects.validate = .ok ()) ∧
        ∃ text, toVec value = .error text ∧ error = serializationError text) ∧
    ∀ response, built = .ok response → toVec value = .ok response.body ∧
      (∀ effects ∈ ResponseCall.effectSets calls, effects.validate = .ok ()) ∧
      response.status = (ResponseCall.statuses calls).getLast? ∧
      response.effects = (ResponseCall.effectSets calls).getLast?.getD .new ∧
      response.headers.getAll .contentType = [applicationJson] ∧
      ∀ name, name ≠ .contentType →
        response.headers.getAll name = (ResponseCall.valuesOf name calls).getLast?.toList := by
  have hfirst : ∀ error, calls.foldlM JsonResponse.perform (JsonResponse.new value) = .error error ↔
      FirstUnchecked calls error := fun _ => JsonResponse.foldlM_perform_error
  cases hchain : calls.foldlM JsonResponse.perform (JsonResponse.new value) with
  | error error =>
    rw [hchain] at hfirst
    have hunchecked := (hfirst error).mp rfl
    refine ⟨fun error' => ?_,fun _ h => nomatch h⟩
    constructor
    · intro h
      obtain rfl := Except.error.inj h
      exact Or.inl hunchecked
    · rintro (h | ⟨hall,-⟩)
      · obtain rfl := Except.error.inj ((hfirst error').mpr h)
        rfl
      · obtain ⟨before,effects,after,hsets,-,hbad⟩ := hunchecked
        rw [hall effects (by simp [hsets])] at hbad
        nomatch hbad
  | ok built =>
    rw [hchain] at hfirst
    have hvalue : built.value = value := JsonResponse.value_foldlM hchain
    have hbuilt := fun body => JsonResponse.builtFrom_of_foldlM body hchain
    rw [Fallible.ok_bind,JsonResponse.intoRouteResponse,hvalue]
    cases htext : toVec value with
    | error text =>
      refine ⟨fun error => ?_,fun _ h => nomatch h⟩
      constructor
      · intro h
        obtain rfl := Except.error.inj h
        exact Or.inr ⟨(hbuilt []).checked,text,rfl,rfl⟩
      · rintro (h | ⟨-,text',ht,rfl⟩)
        · nomatch (hfirst error).mpr h
        · obtain rfl := Except.error.inj ht
          rfl
    | ok body =>
      obtain ⟨hchecked,hstatus,hheaders,-,heffects⟩ := hbuilt body
      refine ⟨fun error => iff_of_false (fun h => nomatch h) ?_,?_⟩
      · rintro (h | ⟨-,text,ht,-⟩)
        · nomatch (hfirst error).mpr h
        · nomatch ht
      · intro response hresponse
        obtain rfl := Except.ok.inj hresponse
        refine ⟨rfl,hchecked,hstatus.trans (Option.or_none ..),heffects,?_,?_⟩
        · exact Multimap.getAll_insert_self _ _ _
        · intro name hn
          rw [Multimap.getAll_insert_of_ne _ _ hn]
          refine (hheaders name).trans ?_
          cases (ResponseCall.valuesOf name calls).getLast? <;> rfl

end
end SoapAxum.Endpoint
