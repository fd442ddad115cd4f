import SoapAxum.Http.Reference
import SoapAxum.Router.Layers
import SoapAxum.Router.Lifecycle
import SoapAxum.Semantics.Fallible

/-! The authentication guard. It asks a service who sent the request, has the answer authorized, and
only then leaves it to the rest of the pipeline. -/
namespace SoapAxum.Guard
open SoapAxum.Http SoapAxum.Text SoapAxum.Data SoapAxum.Semantics SoapAxum.Request SoapAxum.Router
open SoapAxum.Endpoint SoapAxum.Router.EndpointRuntime

/-- Authentication stored in the extensions of a request. -/
structure AuthContext (Authentication : Type) where
  authentication : Authentication
  deriving DecidableEq,Repr

/-- The parts of `soaprs-auth` and `soaprs-auth-http` that the guard uses, for one type of
principals, with the extensions as far as they hold its context. -/
class Authenticating [Platform] where
  Authentication : Type
  AuthorizationPolicy : Type
  AuthorizationDecision : Type
  AuthChallenge : Type
  /-- The `authorization` of a declaration. -/
  authorization : EndpointMetadata → AuthorizationPolicy
  /-- `DefaultAuthorizationEvaluator::evaluate`. -/
  evaluate : Option Authentication → AuthorizationPolicy → SoapResult AuthorizationDecision
  enforce : AuthorizationDecision → SoapResult Unit
  unauthorizedEffects : List AuthChallenge → SoapResult HttpResponseEffects
  getContext : Platform.Extensions → Option (AuthContext Authentication)
  insertContext : Platform.Extensions → AuthContext Authentication → Platform.Extensions
  getContext_insertContext : ∀ extensions context,
    getContext (insertContext extensions context) = some context

open Authenticating

/-- `SoapErrorKind::Unauthorized`. -/
def unauthorized : SoapErrorKind := .other "unauthorized"

section
variable [Platform] [Authenticating]

/-- `HttpAuthenticationService::authenticate` of one service. -/
abbrev HttpAuthenticationService :=
  RouteRequestHead → AuthorizationPolicy → Future (SoapResult (Option Authentication))

abbrev HttpAuthorization := Option Authentication → RouteRequestHead → Future (SoapResult Unit)

def builtInAuthorization : HttpAuthorization := fun authentication request => pure do
  let decision ← evaluate authentication (authorization request.endpoint)
  enforce decision

structure AuthenticationGuard where
  service : HttpAuthenticationService
  authorization : HttpAuthorization
  challenges : List AuthChallenge

namespace AuthenticationGuard

def new (service : HttpAuthenticationService) : AuthenticationGuard :=
  ⟨service,builtInAuthorization,[]⟩

def challenge (guard : AuthenticationGuard) (challenge : AuthChallenge) : AuthenticationGuard :=
  { guard with challenges := guard.challenges ++ [challenge] }

def withAuthorization (guard : AuthenticationGuard) (authorization : HttpAuthorization) :
    AuthenticationGuard := { guard with authorization }

def failure (guard : AuthenticationGuard) (error : SoapError) : EndpointGuardRejection :=
  let isUnauthorized := error.kind == unauthorized
  let rejection := EndpointGuardRejection.new error
  if isUnauthorized && !guard.challenges.isEmpty then
    match unauthorizedEffects guard.challenges with
    | .ok effects => { rejection with effects }
    | .error error => .new error
  else rejection

/-- The head once its sender has been authorized. -/
def expose (head : RouteRequestHead) : Option Authentication → RouteRequestHead
  | some authentication =>
    { head with extensions := insertContext head.extensions ⟨authentication⟩ }
  | none => head

def check (guard : AuthenticationGuard) (head : RouteRequestHead) :
    Future (RouteRequestHead × EndpointGuardResult) := do
  match ← guard.service head (Authenticating.authorization head.endpoint) with
  | .error error => pure (head,.error (guard.failure error))
  | .ok authentication =>
    match ← guard.authorization authentication head with
    | .error error => pure (head,.error (guard.failure error))
    | .ok () => pure (expose head authentication,.ok ())

def endpointGuard (guard : AuthenticationGuard) : EndpointGuard where
  enforcementCapabilities := [.authentication]
  check := guard.check

/-- The service answered, and the guard's own authorization accepted the answer. -/
structure Admits (guard : AuthenticationGuard) (head : RouteRequestHead)
    (answer : Option Authentication) : Prop where
  answered : (guard.service head (Authenticating.authorization head.endpoint)).value =
    some (.ok answer)
  authorized : (guard.authorization answer head).value = some (.ok ())

/-- Everything a check can do: reject and leave the head alone, or expose what was authorized. -/
theorem value_check {guard : AuthenticationGuard} {head left : RouteRequestHead}
    {result : EndpointGuardResult} (h : (guard.check head).value = some (left,result)) :
    (∃ rejection, result = .error rejection ∧ left = head) ∨
      ∃ answer, result = .ok () ∧ guard.Admits head answer ∧ left = expose head answer := by
  unfold check at h
  rw [Coroutine.value_bind,Option.bind_eq_some_iff] at h
  obtain ⟨answer,hservice,h⟩ := h
  cases answer with
  | error error =>
    obtain ⟨rfl,rfl⟩ := Prod.mk.inj (Option.some.inj h)
    exact Or.inl ⟨_,rfl,rfl⟩
  | ok answer =>
    rw [Coroutine.value_bind,Option.bind_eq_some_iff] at h
    obtain ⟨verdict,hverdict,h⟩ := h
    cases verdict with
    | error error =>
      obtain ⟨rfl,rfl⟩ := Prod.mk.inj (Option.some.inj h)
      exact Or.inl ⟨_,rfl,rfl⟩
    | ok u =>
      obtain ⟨rfl,rfl⟩ := Prod.mk.inj (Option.some.inj h)
      exact Or.inr ⟨answer,rfl,⟨hservice,hverdict⟩,rfl⟩

/-- The service does not answer for the request, or the authorization does not accept its answer. -/
inductive Refuses (guard : AuthenticationGuard) (head : RouteRequestHead) (error : SoapError) : Prop
  | unauthenticated (answered : (guard.service head (Authenticating.authorization head.endpoint)).value =
      some (.error error))
  | unauthorized (answer : Option Authentication)
      (answered : (guard.service head (Authenticating.authorization head.endpoint)).value =
        some (.ok answer))
      (refused : (guard.authorization answer head).value = some (.error error))

theorem value_check_of_refuses {guard : AuthenticationGuard} {head : RouteRequestHead}
    {error : SoapError} (h : guard.Refuses head error) :
    (guard.endpointGuard.check head).value = some (head,.error (guard.failure error)) := by
  change (guard.check head).value = _
  rw [check,Coroutine.value_bind]
  rcases h with answered | ⟨answer,answered,refused⟩
  · rw [answered]
    rfl
  · rw [answered,Option.bind_some,Coroutine.value_bind,refused]
    rfl

/-- The effects of a refusal: the challenges, if there are any and authentication is what is missing. -/
def shownEffects (guard : AuthenticationGuard) (error : SoapError)
    (challenges : HttpResponseEffects) : HttpResponseEffects :=
  if error.kind = unauthorized ∧ guard.challenges ≠ [] then challenges else .new

theorem failure_eq {guard : AuthenticationGuard} {error : SoapError} {challenges : HttpResponseEffects}
    (h : unauthorizedEffects guard.challenges = .ok challenges) :
    guard.failure error = ⟨error,guard.shownEffects error challenges⟩ := by
  rw [failure,shownEffects]
  by_cases hkind : error.kind = unauthorized
  · cases hc : guard.challenges with
    | nil => simp [hkind,EndpointGuardRejection.new]
    | cons first rest =>
      rw [hc] at h
      simp [hkind,h,EndpointGuardRejection.new]
  · simp [hkind,EndpointGuardRejection.new]

end AuthenticationGuard

/-- Any other guard. The endpoint is out of its reach, and it inserts no context. -/
structure OtherGuard where
  guard : EndpointGuard
  endpoint_eq : ∀ {head left result}, (guard.check head).value = some (left,result) →
    left.endpoint = head.endpoint
  inserts_nothing : ∀ {head left result context}, (guard.check head).value = some (left,result) →
    getContext left.extensions = some context → getContext head.extensions = some context

inductive ListedGuard where
  | authentication (guard : AuthenticationGuard)
  | other (guard : OtherGuard)

namespace ListedGuard

def guard : ListedGuard → EndpointGuard
  | authentication guard => guard.endpointGuard
  | other guard => guard.guard

/-- The authentication that the service of the guard returns, if it is asked and returns one. -/
def returned (head : RouteRequestHead) : ListedGuard → Option Authentication
  | authentication guard =>
    match (guard.service head (Authenticating.authorization head.endpoint)).value with
    | some (.ok answer) => answer
    | _ => none
  | other _ => none

end ListedGuard

/-- The authentication of the last guard whose service returned one, when the guards are run from
the head up to the first that rejects. -/
def lastAuthentication : List ListedGuard → RouteRequestHead → Option Authentication
  | [],_ => none
  | item :: items,head => match (item.guard.check head).value with
    | some (left,.ok ()) => (lastAuthentication items left).or (item.returned head)
    | _ => item.returned head

/-- One of the guards vouches for the authentication: its service returned it for the head as the
guards before it had left it, and its authorization accepted it. -/
def VouchedBy (endpoint : EndpointMetadata) (items : List ListedGuard) (head : RouteRequestHead)
    (authentication : Authentication) : Prop :=
  ∃ earlier guard later seen, items = earlier ++ .authentication guard :: later ∧
    Accepts (earlier.map ListedGuard.guard) head seen ∧ seen.endpoint = endpoint ∧
    guard.Admits seen (some authentication)

/-- Another guard removed a context, and no service behind it returned a new one. -/
def Removed (items : List ListedGuard) (head : RouteRequestHead) : Prop :=
  ∃ earlier guard later seen left, items = earlier ++ .other guard :: later ∧
    Accepts (earlier.map ListedGuard.guard) head seen ∧
    (guard.guard.check seen).value = some (left,.ok ()) ∧
    (getContext seen.extensions).isSome ∧ getContext left.extensions = none ∧
    lastAuthentication later left = none

namespace ListedGuard

/-- What one step of the loop does to the context. -/
theorem getContext_of_accepted {item : ListedGuard} {head left : RouteRequestHead}
    (h : (item.guard.check head).value = some (left,.ok ())) :
    (∃ authentication, item.returned head = some authentication ∧
        getContext left.extensions = some ⟨authentication⟩ ∧
        ∃ guard, item = .authentication guard ∧ guard.Admits head (some authentication)) ∨
      (item.returned head = none ∧ getContext left.extensions = getContext head.extensions) ∨
      ∃ guard, item = .other guard ∧ (getContext head.extensions).isSome ∧
        getContext left.extensions = none := by
  cases item with
  | authentication guard =>
    obtain ⟨rejection,hr,-⟩ | ⟨answer,-,hadmits,rfl⟩ := guard.value_check h
    · contradiction
    · have hreturned : (ListedGuard.authentication guard).returned head = answer := by
        unfold returned
        simp only [hadmits.answered]
      rw [hreturned]
      cases answer with
      | none => exact Or.inr (Or.inl ⟨rfl,rfl⟩)
      | some authentication =>
        exact Or.inl ⟨authentication,rfl,getContext_insertContext _ _,guard,rfl,hadmits⟩
  | other guard =>
    right
    cases hc : getContext left.extensions with
    | some context => exact Or.inl ⟨rfl,(guard.inserts_nothing h hc).symm⟩
    | none =>
      cases hh : getContext head.extensions with
      | none => exact Or.inl ⟨rfl,rfl⟩
      | some context => exact Or.inr ⟨guard,rfl,rfl,rfl⟩

lemma endpoint_eq {item : ListedGuard} {head left : RouteRequestHead} {result : EndpointGuardResult}
    (h : (item.guard.check head).value = some (left,result)) : left.endpoint = head.endpoint := by
  cases item with
  | authentication guard =>
    obtain ⟨rejection,-,rfl⟩ | ⟨answer,-,-,rfl⟩ := guard.value_check h
    · rfl
    · cases answer <;> rfl
  | other guard => exact guard.endpoint_eq h

end ListedGuard

lemma VouchedBy.cons {endpoint : EndpointMetadata} {item : ListedGuard} {items : List ListedGuard}
    {head left : RouteRequestHead} {authentication : Authentication}
    (hcheck : (item.guard.check head).value = some (left,.ok ()))
    (h : VouchedBy endpoint items left authentication) :
    VouchedBy endpoint (item :: items) head authentication := by
  obtain ⟨earlier,guard,later,seen,rfl,haccepts,hendpoint,hadmits⟩ := h
  exact ⟨item :: earlier,guard,later,seen,rfl,.cons _ _ head left seen hcheck haccepts,hendpoint,
    hadmits⟩

/-- A context behind some guards was there before them, or one of them vouches for it. -/
theorem vouchedBy_of_accepts {items : List ListedGuard} {head seen : RouteRequestHead}
    {context : AuthContext Authentication} (h : Accepts (items.map ListedGuard.guard) head seen)
    (hc : getContext seen.extensions = some context) :
    getContext head.extensions = some context ∨
      VouchedBy head.endpoint items head context.authentication := by
  induction items generalizing head with
  | nil =>
    cases h
    exact Or.inl hc
  | cons item items ih =>
    cases h with
    | cons _ _ _ left _ hcheck hrest =>
      rcases ih hrest with hleft | hvouched
      · obtain ⟨authentication,-,hcontext,guard,rfl,hadmits⟩ | ⟨-,hkept⟩ | ⟨guard,-,-,hnone⟩ :=
          ListedGuard.getContext_of_accepted hcheck
        · rw [hleft] at hcontext
          obtain rfl := Option.some.inj hcontext
          exact Or.inr ⟨[],guard,items,head,rfl,.nil head,rfl,hadmits⟩
        · exact Or.inl (hkept ▸ hleft)
        · rw [hleft] at hnone
          contradiction
      · rw [ListedGuard.endpoint_eq hcheck] at hvouched
        exact Or.inr (hvouched.cons hcheck)

lemma Removed.cons {item : ListedGuard} {items : List ListedGuard} {head left : RouteRequestHead}
    (hcheck : (item.guard.check head).value = some (left,.ok ())) (h : Removed items left) :
    Removed (item :: items) head := by
  obtain ⟨earlier,guard,later,seen,gone,rfl,haccepts,hremoves,hsome,hnone,hlast⟩ := h
  exact ⟨item :: earlier,guard,later,seen,gone,rfl,.cons _ _ head left seen hcheck haccepts,hremoves,
    hsome,hnone,hlast⟩

/-- Behind the loop there is the context of the last service that returned one, and else what was
there before, unless it was removed. -/
theorem getContext_of_accepts {items : List ListedGuard} {head seen : RouteRequestHead}
    (h : Accepts (items.map ListedGuard.guard) head seen) :
    getContext seen.extensions =
        ((lastAuthentication items head).map AuthContext.mk).or (getContext head.extensions) ∨
      (getContext seen.extensions = none ∧ Removed items head) := by
  induction items generalizing head with
  | nil =>
    cases h
    exact Or.inl rfl
  | cons item items ih =>
    cases h with
    | cons _ _ _ left _ hcheck hrest =>
      have hlast : lastAuthentication (item :: items) head =
          (lastAuthentication items left).or (item.returned head) := by
        rw [lastAuthentication,hcheck]
      rw [hlast]
      rcases ih hrest with hkept | ⟨hnone,hremoved⟩
      · obtain ⟨authentication,hreturned,hcontext,-⟩ | ⟨hreturned,hsame⟩ | ⟨guard,rfl,hsome,hgone⟩ :=
          ListedGuard.getContext_of_accepted hcheck
        · left
          rw [hkept,hreturned,hcontext]
          cases lastAuthentication items left <;> rfl
        · left
          rw [hkept,hreturned,hsame]
          cases lastAuthentication items left <;> rfl
        · cases hl : lastAuthentication items left with
          | none =>
            right
            rw [hkept,hl,hgone]
            exact ⟨rfl,[],guard,items,head,left,rfl,.nil head,hcheck,hsome,hgone,hl⟩
          | some authentication =>
            left
            rw [hkept,hl]
            rfl
      · exact Or.inr ⟨hnone,hremoved.cons hcheck⟩

/-- Wherever the loop over the guards stands, a context that is there was authorized by the guard
that left it. A guard that rejects leaves the head alone, and behind the loop there is the context of
the last service that returned one, unless another guard removed it. -/
theorem auth_context_is_authorized {runtime : EndpointRuntime} {items : List ListedGuard}
    {params : List (Str × Str)} {request : IncomingRequest} {head : RouteRequestHead} {body : Body}
    (hg : runtime.guards = items.map ListedGuard.guard)
    (hn : runtime.normalizeHead params request = .ok (head,body))
    (hc : getContext request.extensions = none) :
    (∀ before rest seen context, items = before ++ rest →
        Accepts (before.map ListedGuard.guard) head seen →
        getContext seen.extensions = some context →
        VouchedBy runtime.endpoint before head context.authentication) ∧
      (∀ before item rest seen left rejection, items = before ++ item :: rest →
        Accepts (before.map ListedGuard.guard) head seen →
        (item.guard.check seen).value = some (left,.error rejection) →
        (∀ context, getContext left.extensions = some context →
          VouchedBy runtime.endpoint before head context.authentication) ∧
        ∀ guard, item = .authentication guard → left = seen) ∧
      ∀ t seen, Coroutine.Returns (checkGuards runtime.guards head) t (seen,none) →
        getContext seen.extensions = (lastAuthentication items head).map AuthContext.mk ∨
        (getContext seen.extensions = none ∧ Removed items head) := by
  have hhead : head.endpoint = runtime.endpoint ∧ head.extensions = request.extensions := by
    obtain ⟨_,_,-,-,rfl,-⟩ := normalizeHead_eq_ok.mp hn
    exact ⟨rfl,rfl⟩
  obtain ⟨hendpoint,hstart⟩ := hhead
  have hvouched : ∀ {before : List ListedGuard} {seen : RouteRequestHead}
      {context : AuthContext Authentication}, Accepts (before.map ListedGuard.guard) head seen →
      getContext seen.extensions = some context →
      VouchedBy runtime.endpoint before head context.authentication := by
    intro before seen context haccepts hseen
    rcases vouchedBy_of_accepts haccepts hseen with hhead | hv
    · rw [hstart,hc] at hhead
      contradiction
    · rwa [hendpoint] at hv
  refine ⟨?_,?_,?_⟩
  · intro before rest seen context _ haccepts hseen
    exact hvouched haccepts hseen
  · intro before item rest seen left rejection _ haccepts hcheck
    cases item with
    | authentication guard =>
      obtain ⟨_,-,rfl⟩ | ⟨_,hok,-,-⟩ := guard.value_check hcheck
      · exact ⟨fun context hseen => hvouched haccepts hseen,fun _ _ => rfl⟩
      · contradiction
    | other guard =>
      refine ⟨?_,?_⟩
      · intro context hleft
        exact hvouched haccepts (guard.inserts_nothing hcheck hleft)
      · intro _ h
        contradiction
  · intro t seen hreturns
    obtain ⟨-,haccepts,-⟩ | ⟨_,_,_,_,_,-,hrejected,-⟩ := returns_checkGuards hreturns
    · rw [hg] at haccepts
      have hlast := getContext_of_accepts haccepts
      rwa [hstart,hc,Option.or_none] at hlast
    · contradiction

end

section

/-- The reference platform with extensions that hold a name, if any. -/
@[reducible] def namedPlatform : Platform :=
  { referencePlatform with Extensions := Option (AuthContext String) }

local instance authenticationPlatform : Platform := namedPlatform

/-- Everybody has a name, and the endpoints are open to `alice`. -/
@[reducible] def namedAuthenticating : Authenticating where
  Authentication := String
  AuthorizationPolicy := List String
  AuthorizationDecision := Bool
  AuthChallenge := Unit
  authorization _ := ["alice"]
  evaluate authentication policy := .ok (authentication.any fun name => policy.contains name)
  enforce decision := if decision then .ok () else .error (.new unauthorized "not permitted")
  unauthorizedEffects _ := .ok .new
  getContext extensions := extensions
  insertContext _ context := some context
  getContext_insertContext _ _ := rfl

local instance authenticationReference : Authenticating := namedAuthenticating

def aliceGuard : AuthenticationGuard := .new fun _ _ => pure (.ok (some "alice"))

/-- A guard that clears the extensions and then answers. -/
def clearingGuard (result : EndpointGuardResult) : OtherGuard where
  guard := ⟨[],fun head => pure ({ head with extensions := none },result)⟩
  endpoint_eq h := (Prod.mk.inj (Option.some.inj h)).1 ▸ rfl
  inserts_nothing h hc := by
    rw [← (Prod.mk.inj (Option.some.inj h)).1] at hc
    contradiction

def namedRuntime (items : List ListedGuard) : EndpointRuntime where
  endpoint := cachedEndpoint
  target := ⟨fun _ => pure (.failure (.new .notFound "no article"))⟩
  guards := items.map ListedGuard.guard
  middleware := []
  hooks := []
  errorMapper := referenceErrorMapper
  maxBodyBytes := 1024

def namedRequest : IncomingRequest where
  method := ⟨"GET"⟩
  uri := { path := "/articles/1".toList,query := none }
  headers := Multimap.empty
  extensions := none
  body := .done

def namedHead : RouteRequestHead where
  endpoint := cachedEndpoint
  normalized := NormalizedRequestHead.new ⟨"GET"⟩ { path := "/articles/1".toList,query := none }
    Multimap.empty ∅ ((∅ : BTreeMap Str Str).insertMany []) ∅
  extensions := none

lemma normalizeHead_named (items : List ListedGuard) :
    (namedRuntime items).normalizeHead [] namedRequest = .ok (namedHead,.done) := rfl

def aliceItems : List ListedGuard := [.authentication aliceGuard]

def aliceHead : RouteRequestHead := AuthenticationGuard.expose namedHead (some "alice")

lemma accepts_alice : Accepts (aliceItems.map ListedGuard.guard) namedHead aliceHead :=
  .cons _ _ namedHead aliceHead aliceHead rfl (.nil aliceHead)

theorem auth_context_is_authorized_alice :
    VouchedBy cachedEndpoint aliceItems namedHead "alice" ∧
      (getContext aliceHead.extensions =
          (lastAuthentication aliceItems namedHead).map AuthContext.mk ∨
        (getContext aliceHead.extensions = none ∧ Removed aliceItems namedHead)) := by
  have hguards : (namedRuntime aliceItems).guards = aliceItems.map ListedGuard.guard := rfl
  obtain ⟨hpoint,-,hend⟩ := auth_context_is_authorized hguards (normalizeHead_named _) rfl
  exact ⟨hpoint aliceItems [] aliceHead ⟨"alice"⟩ rfl accepts_alice rfl,hend _ _ ⟨rfl,rfl⟩⟩

def maintenance : EndpointGuardRejection := .new (.new .timeout "closed for maintenance")

/-- A guard behind the authentication that clears the extensions leaves no context, and if it
rejects, it has changed the extensions all the same. -/
theorem auth_context_can_be_removed :
    (∃ items t seen, (namedRuntime items).normalizeHead [] namedRequest = .ok (namedHead,.done) ∧
        getContext namedRequest.extensions = none ∧
        Coroutine.Returns (checkGuards (namedRuntime items).guards namedHead) t (seen,none) ∧
        lastAuthentication items namedHead = some "alice" ∧ getContext seen.extensions = none) ∧
      ∃ left, Accepts (aliceItems.map ListedGuard.guard) namedHead aliceHead ∧
        ((clearingGuard (.error maintenance)).guard.check aliceHead).value =
          some (left,.error maintenance) ∧ left.extensions ≠ aliceHead.extensions := by
  refine ⟨⟨[.authentication aliceGuard,.other (clearingGuard (.ok ()))],_,_,
    normalizeHead_named _,rfl,⟨rfl,rfl⟩,rfl,rfl⟩,_,accepts_alice,rfl,?_⟩
  intro h
  contradiction

end
end SoapAxum.Guard
