import Mathlib.Order.Bounds.Basic
import SoapAxum.Endpoint.Pipeline
import SoapAxum.Router.Layers

/-! The rate limit guard. It asks a limiter for the quota of the endpoint, at most once, and rejects
on every failure on the way. -/
namespace SoapAxum.Guard
open SoapAxum.Http SoapAxum.Text SoapAxum.Data SoapAxum.Semantics SoapAxum.Request SoapAxum.Router
open SoapAxum.Endpoint SoapAxum.Policy

/-- The parts of `soaprs-rate-limit` that the guard uses. -/
class RateLimiting where
  RateLimitRule : Type
  RateLimitKey : Type
  newRule : ℕ → Duration → SoapResult RateLimitRule
  burst : RateLimitRule → ℕ → RateLimitRule
  newKey : Str → SoapResult RateLimitKey
  /-- `RateLimitKey::as_str`. -/
  keyText : RateLimitKey → Str
  /-- `SoapError::rate_limited`. -/
  rateLimited : SoapError

open RateLimiting

inductive RateLimitDecision where
  | allowed
  | rejected (retryAfter : Duration)
  deriving DecidableEq,Repr

def u64Max : ℕ := 0xFFFFFFFFFFFFFFFF

def saturatingAdd (a b : ℕ) : ℕ := min (a+b) u64Max

def retryAfterSeconds (duration : Duration) : ℕ :=
  max (saturatingAdd duration.secs (if 0 < duration.nanos then 1 else 0)) 1

def retryAfterHeader (duration : Duration) : SoapResult HeaderValue :=
  match HeaderValue.fromStr (Nat.toDigits 10 (retryAfterSeconds duration)) with
  | some value => .ok value
  | none => .error ((SoapError.infrastructure "rate-limit retry delay cannot be encoded").withSource
      [.technical "failed to parse header value"])

section
variable [RateLimiting]

/-- One call of the limiter with its arguments. -/
structure LimiterCall where
  key : RateLimitKey
  rule : RateLimitRule

abbrev RateLimiter := RateLimitKey → RateLimitRule → Future (SoapResult RateLimitDecision)

/-- `RateLimitService::check` with the calls that it makes of its limiter. -/
abbrev RateLimitService :=
  RateLimitKey → RateLimitRule → Coroutine LimiterCall (SoapResult RateLimitDecision)

/-- What is assumed of the service: it makes one call of the limiter, with what it is given, and
answers what that answers. -/
structure RateLimitService.Forwards (service : RateLimitService) (limiter : RateLimiter) : Prop where
  calls : ∀ key rule, (service key rule).trace = [⟨key,rule⟩]
  answers : ∀ key rule, (service key rule).value = (limiter key rule).value

/-- The service allows nothing on its own account. -/
def RateLimitService.AllowsOnly (service : RateLimitService) (limiter : RateLimiter) : Prop :=
  ∀ key rule, (service key rule).value = some (.ok .allowed) →
    (limiter key rule).value = some (.ok .allowed)

lemma RateLimitService.Forwards.allowsOnly {service : RateLimitService} {limiter : RateLimiter}
    (h : service.Forwards limiter) : service.AllowsOnly limiter := fun key rule hallowed =>
  (h.answers key rule).symm.trans hallowed

def rule (policy : RateLimitPolicy) : SoapResult RateLimitRule := do
  let rule ← newRule policy.requests policy.period
  match policy.burst with
  | some burst => .ok (RateLimiting.burst rule burst)
  | none => .ok rule

def quotaRejection (retryAfter : HeaderValue) : EndpointGuardRejection :=
  { EndpointGuardRejection.new rateLimited with
    effects := { HttpResponseEffects.new with
      headers := Multimap.empty.insert .retryAfter retryAfter } }

/-- What the guard answers for the answer of the limiter. -/
def verdict : SoapResult RateLimitDecision → EndpointGuardResult
  | .error error => .error (.new error)
  | .ok .allowed => .ok ()
  | .ok (.rejected retryAfter) => match retryAfterHeader retryAfter with
    | .error error => .error (.new error)
    | .ok retryAfter => .error (quotaRejection retryAfter)

variable [Platform]

abbrev HttpRateLimitKeyResolver :=
  RateLimitPolicy → RouteRequestHead → Future (SoapResult RateLimitKey)

structure RateLimitGuard where
  service : RateLimitService
  keyResolver : HttpRateLimitKeyResolver

namespace RateLimitGuard

/-- The guard from the resolved key on. -/
def askService (guard : RateLimitGuard) (rule : RateLimitRule) :
    SoapResult RateLimitKey → Coroutine LimiterCall EndpointGuardResult
  | .error error => pure (.error (.new error))
  | .ok key => do
    let decision ← guard.service key rule
    pure (verdict decision)

def check (guard : RateLimitGuard) (head : RouteRequestHead) :
    Coroutine LimiterCall EndpointGuardResult :=
  match head.endpoint.rateLimit with
  | none => pure (.ok ())
  | some policy => match Guard.rule policy with
    | .error error => pure (.error (.new error))
    | .ok rule => do
      let key ← .await (guard.keyResolver policy head)
      guard.askService rule key

/-- The guard as an endpoint runs it. The request head is only read. -/
def endpointGuard (guard : RateLimitGuard) : EndpointGuard where
  enforcementCapabilities := [.rateLimit]
  check head := do
    let result ← (guard.check head).mute
    pure (head,result)

end RateLimitGuard
end

/-- The whole delay in nanoseconds. -/
def asNanos (duration : Duration) : ℕ := duration.secs*1000000000+duration.nanos

/-- The delay is rounded up to whole seconds, at least one, as far as the integer type goes. -/
theorem retryAfterSeconds_eq {duration : Duration} (h : duration.nanos < 1000000000) :
    ∃ k, IsLeast {k | 1 ≤ k ∧ asNanos duration ≤ k*1000000000} k ∧
      retryAfterSeconds duration = min k u64Max := by
  have hcap : 1 ≤ u64Max := by decide
  unfold retryAfterSeconds saturatingAdd asNanos
  refine ⟨max (duration.secs+if 0 < duration.nanos then 1 else 0) 1,⟨⟨?_,?_⟩,?_⟩,?_⟩
  · omega
  · split_ifs <;> omega
  · rintro k ⟨hk,hwait⟩
    split_ifs <;> omega
  · omega

lemma asNanos_le_of_lt {duration : Duration} (h : duration.nanos < 1000000000)
    (hcap : retryAfterSeconds duration < u64Max) :
    asNanos duration ≤ retryAfterSeconds duration*1000000000 := by
  obtain ⟨k,⟨⟨-,hwait⟩,-⟩,hk⟩ := retryAfterSeconds_eq h
  have hmin : retryAfterSeconds duration = k := by omega
  rwa [hmin]

lemma retryAfterSeconds_mono {d d' : Duration} (h : d.nanos < 1000000000)
    (h' : d'.nanos < 1000000000) (hle : asNanos d ≤ asNanos d') :
    retryAfterSeconds d ≤ retryAfterSeconds d' := by
  obtain ⟨k,⟨-,hleast⟩,hk⟩ := retryAfterSeconds_eq h
  obtain ⟨k',⟨⟨hpos,hwait⟩,-⟩,hk'⟩ := retryAfterSeconds_eq h'
  have hkk : k ≤ k' := hleast ⟨hpos,hle.trans hwait⟩
  omega

/-- Digits always make a header value. -/
theorem retryAfterHeader_eq (duration : Duration) : ∃ value,
    retryAfterHeader duration = .ok value ∧
      value.toStr = some (Nat.toDigits 10 (retryAfterSeconds duration)) := by
  obtain ⟨value,hvalue,-,htext⟩ := HeaderValue.fromStr_visible (visibleText_toDigits (retryAfterSeconds duration))
  refine ⟨value,?_,htext⟩
  unfold retryAfterHeader
  rw [hvalue]

section
variable [RateLimiting]

theorem verdict_eq_ok {decision : SoapResult RateLimitDecision} :
    verdict decision = .ok () ↔ decision = .ok .allowed := by
  cases decision with
  | error error => simp [verdict]
  | ok decision =>
    cases decision with
    | allowed => simp [verdict]
    | rejected retryAfter =>
      obtain ⟨value,hvalue,-⟩ := retryAfterHeader_eq retryAfter
      simp [verdict,hvalue]

variable [Platform] {guard : RateLimitGuard} {head : RouteRequestHead}

namespace RateLimitGuard

lemma check_of_none (h : head.endpoint.rateLimit = none) : guard.check head = pure (.ok ()) := by
  unfold check
  rw [h]

lemma check_of_rule_error {policy : RateLimitPolicy} {error : SoapError}
    (h : head.endpoint.rateLimit = some policy) (hr : Guard.rule policy = .error error) :
    guard.check head = pure (.error (.new error)) := by
  unfold check
  simp only [h,hr]

lemma check_of_rule {policy : RateLimitPolicy} {rule : RateLimitRule}
    (h : head.endpoint.rateLimit = some policy) (hr : Guard.rule policy = .ok rule) :
    guard.check head = Coroutine.await (guard.keyResolver policy head) >>= guard.askService rule := by
  unfold check
  simp only [h,hr]

lemma value_check_of_rule {policy : RateLimitPolicy} {rule : RateLimitRule}
    {key : SoapResult RateLimitKey} (h : head.endpoint.rateLimit = some policy)
    (hr : Guard.rule policy = .ok rule) (hk : (guard.keyResolver policy head).value = some key) :
    (guard.check head).value = (guard.askService rule key).value := by
  rw [check_of_rule h hr,Coroutine.value_bind,Coroutine.value_await,hk,Option.bind_some]

lemma value_askService (rule : RateLimitRule) (key : RateLimitKey) :
    (guard.askService rule (.ok key)).value = (guard.service key rule).value.map verdict := by
  unfold askService
  rw [Coroutine.value_bind]
  cases (guard.service key rule).value <;> rfl

lemma trace_askService (rule : RateLimitRule) (key : RateLimitKey) :
    (guard.askService rule (.ok key)).trace = (guard.service key rule).trace := by
  unfold askService
  rw [Coroutine.trace_bind]
  cases (guard.service key rule).value <;> exact List.append_nil _

/-- The service is asked at most once, with the resolved key and the declared rule. -/
theorem trace_check (guard : RateLimitGuard) (head : RouteRequestHead) :
    (guard.check head).trace = [] ∨ ∃ policy rule key, head.endpoint.rateLimit = some policy ∧
      Guard.rule policy = .ok rule ∧ (guard.keyResolver policy head).value = some (.ok key) ∧
      (guard.check head).trace = (guard.service key rule).trace := by
  cases h : head.endpoint.rateLimit with
  | none =>
    left
    rw [check_of_none h]
    rfl
  | some policy =>
    cases hr : Guard.rule policy with
    | error error =>
      left
      rw [check_of_rule_error h hr]
      rfl
    | ok rule =>
      rw [check_of_rule h hr,Coroutine.trace_bind,Coroutine.trace_await,List.nil_append,
        Coroutine.value_await]
      cases hk : (guard.keyResolver policy head).value with
      | none => exact Or.inl rfl
      | some resolved =>
        cases resolved with
        | error error => exact Or.inl rfl
        | ok key => exact Or.inr ⟨policy,rule,key,rfl,hr,hk,trace_askService rule key⟩

/-- The guard lets a request pass exactly if no quota is declared or the service allows it. -/
theorem value_check_eq_ok (guard : RateLimitGuard) (head : RouteRequestHead) :
    (guard.check head).value = some (.ok ()) ↔ head.endpoint.rateLimit = none ∨
      ∃ policy rule key, head.endpoint.rateLimit = some policy ∧ Guard.rule policy = .ok rule ∧
        (guard.keyResolver policy head).value = some (.ok key) ∧
        (guard.service key rule).value = some (.ok .allowed) := by
  constructor
  · intro hv
    cases h : head.endpoint.rateLimit with
    | none => exact Or.inl rfl
    | some policy =>
      right
      cases hr : Guard.rule policy with
      | error error =>
        rw [check_of_rule_error h hr] at hv
        simp at hv
      | ok rule =>
        rw [check_of_rule h hr,Coroutine.value_bind,Coroutine.value_await,
          Option.bind_eq_some_iff] at hv
        obtain ⟨resolved,hk,hask⟩ := hv
        cases resolved with
        | error error => simp [askService] at hask
        | ok key =>
          rw [value_askService,Option.map_eq_some_iff] at hask
          obtain ⟨decision,hd,hverdict⟩ := hask
          rw [verdict_eq_ok.mp hverdict] at hd
          exact ⟨policy,rule,key,rfl,hr,hk,hd⟩
  · rintro (h | ⟨policy,rule,key,h,hr,hk,hd⟩)
    · rw [check_of_none h]
      rfl
    · rw [value_check_of_rule h hr hk,value_askService,hd]
      rfl

/-- An endpoint runs the guard on a request head that it leaves as it is. -/
theorem value_endpointGuard (guard : RateLimitGuard) (head : RouteRequestHead) :
    (guard.endpointGuard.check head).value = (guard.check head).value.map (head,·) := by
  unfold endpointGuard
  rw [Coroutine.value_bind,Coroutine.value_mute]
  cases (guard.check head).value <;> rfl

end RateLimitGuard

namespace RateLimitGuard

/-- The service refuses the request for some time. -/
inductive Exhausted (guard : RateLimitGuard) (head : RouteRequestHead) (delay : Duration) : Prop
  | mk (policy : RateLimitPolicy) (rule : RateLimitRule) (key : RateLimitKey)
      (declared : head.endpoint.rateLimit = some policy) (built : Guard.rule policy = .ok rule)
      (resolved : (guard.keyResolver policy head).value = some (.ok key))
      (rejected : (guard.service key rule).value = some (.ok (.rejected delay)))

lemma value_check_of_exhausted {delay : Duration} (h : guard.Exhausted head delay) :
    ∃ value, value.toStr = some (Nat.toDigits 10 (retryAfterSeconds delay)) ∧
      (guard.endpointGuard.check head).value = some (head,.error (quotaRejection value)) := by
  obtain ⟨policy,rule,key,hp,hr,hk,hl⟩ := h
  obtain ⟨value,hvalue,htext⟩ := retryAfterHeader_eq delay
  refine ⟨value,htext,?_⟩
  rw [value_endpointGuard,value_check_of_rule hp hr hk,value_askService,hl]
  simp only [Option.map_some,verdict,hvalue]

end RateLimitGuard

/-- The rule of a quota as it is declared: so many requests in a period, and the burst if there is one. -/
def DeclaredRule (policy : RateLimitPolicy) (rule : RateLimitRule) : Prop :=
  ∃ base, newRule policy.requests policy.period = .ok base ∧
    rule = policy.burst.elim base (RateLimiting.burst base)

omit [Platform] in
lemma rule_eq_ok {policy : RateLimitPolicy} {rule : RateLimitRule} :
    Guard.rule policy = .ok rule ↔ DeclaredRule policy rule := by
  rw [Guard.rule,Fallible.bind_eq_ok]
  refine exists_congr fun base => and_congr_right fun _ => ?_
  cases policy.burst with
  | none => exact (Except.ok.injEq _ _).to_iff.trans eq_comm
  | some burst => exact (Except.ok.injEq _ _).to_iff.trans eq_comm

omit [Platform] in
lemma rule_of_newRule_error {policy : RateLimitPolicy} {error : SoapError}
    (h : newRule policy.requests policy.period = .error error) : Guard.rule policy = .error error := by
  rw [Guard.rule,h]
  rfl

/-- The delay in whole seconds, rounded up, at least one, as far as 64 bits go. -/
def IsRetryDelay (delay : Duration) (seconds : ℕ) : Prop :=
  ∃ least, IsLeast {k | 1 ≤ k ∧ asNanos delay ≤ k*1000000000} least ∧ seconds = min least (2^64-1)

omit [RateLimiting] [Platform] in
theorem isRetryDelay_iff {delay : Duration} (h : delay.nanos < 1000000000) {seconds : ℕ} :
    IsRetryDelay delay seconds ↔ seconds = retryAfterSeconds delay := by
  obtain ⟨least,hleast,hseconds⟩ := retryAfterSeconds_eq h
  constructor
  · rintro ⟨least',hleast',rfl⟩
    rw [hleast'.unique hleast,hseconds]
    rfl
  · rintro rfl
    exact ⟨least,hleast,hseconds⟩

/-- The rejection of an exhausted quota, which names the seconds to wait in its only header. -/
structure TellsToWait (rejection : EndpointGuardRejection) (seconds : ℕ) : Prop where
  error : rejection.error = rateLimited
  status : rejection.effects.status = none
  cookies : rejection.effects.cookies = []
  retryAfter : ∃ value, rejection.effects.headers.getAll .retryAfter = [value] ∧
    value.toStr = some (Nat.toDigits 10 seconds)
  headers : ∀ name, name ≠ .retryAfter → rejection.effects.headers.getAll name = []

omit [Platform] in
lemma tellsToWait_quotaRejection {value : HeaderValue} {seconds : ℕ}
    (h : value.toStr = some (Nat.toDigits 10 seconds)) :
    TellsToWait (quotaRejection value) seconds where
  error := rfl
  status := rfl
  cookies := rfl
  retryAfter := ⟨value,Multimap.getAll_insert_self _ _ _,h⟩
  headers _ hn := Multimap.getAll_insert_of_ne _ _ hn

/-- The guard accepts exactly the requests without a quota and those that the limiter allows. Every
error on the way is the rejection, and the limiter is called at most once, with the declared rule. An
exhausted quota is answered with the delay in whole seconds, rounded up, at least one, and capped, so
that below the cap nobody is invited too early, and a longer delay is never announced as a shorter
one. -/
theorem rate_limit_fails_closed (guard : RateLimitGuard) (limiter : RateLimiter)
    (hservice : guard.service.Forwards limiter) (head : RouteRequestHead) :
    ((guard.check head).value = some (.ok ()) ↔ head.endpoint.rateLimit = none ∨
        ∃ policy rule key, head.endpoint.rateLimit = some policy ∧ DeclaredRule policy rule ∧
          (guard.keyResolver policy head).value = some (.ok key) ∧
          (limiter key rule).value = some (.ok .allowed)) ∧
      (∀ policy error, head.endpoint.rateLimit = some policy →
        newRule policy.requests policy.period = .error error →
        (guard.check head).value = some (.error ⟨error,.new⟩)) ∧
      (∀ policy rule error, head.endpoint.rateLimit = some policy → DeclaredRule policy rule →
        (guard.keyResolver policy head).value = some (.error error) →
        (guard.check head).value = some (.error ⟨error,.new⟩)) ∧
      (∀ policy rule key error, head.endpoint.rateLimit = some policy →
        DeclaredRule policy rule → (guard.keyResolver policy head).value = some (.ok key) →
        (limiter key rule).value = some (.error error) →
        (guard.check head).value = some (.error ⟨error,.new⟩)) ∧
      ((guard.check head).trace = [] ∨ ∃ policy rule key, head.endpoint.rateLimit = some policy ∧
        DeclaredRule policy rule ∧ (guard.keyResolver policy head).value = some (.ok key) ∧
        (guard.check head).trace = [⟨key,rule⟩]) ∧
      (∀ policy rule key delay, head.endpoint.rateLimit = some policy →
        DeclaredRule policy rule → (guard.keyResolver policy head).value = some (.ok key) →
        (limiter key rule).value = some (.ok (.rejected delay)) → delay.nanos < 1000000000 →
        ∃ seconds rejection, IsRetryDelay delay seconds ∧ TellsToWait rejection seconds ∧
          (guard.check head).value = some (.error rejection) ∧
          (seconds < 2^64-1 → asNanos delay ≤ seconds*1000000000)) ∧
      (∀ delay delay' seconds seconds', delay.nanos < 1000000000 → delay'.nanos < 1000000000 →
        IsRetryDelay delay seconds → IsRetryDelay delay' seconds' →
        asNanos delay ≤ asNanos delay' → seconds ≤ seconds') ∧
      (guard.endpointGuard.check head).value = (guard.check head).value.map (head,·) := by
  simp only [← rule_eq_ok,← hservice.answers]
  refine ⟨guard.value_check_eq_ok head,?_,?_,?_,?_,?_,?_,guard.value_endpointGuard head⟩
  · intro policy error h hr
    rw [RateLimitGuard.check_of_rule_error h (rule_of_newRule_error hr)]
    rfl
  · intro policy rule error h hr hk
    rw [RateLimitGuard.value_check_of_rule h hr hk]
    rfl
  · intro policy rule key error h hr hk hl
    rw [RateLimitGuard.value_check_of_rule h hr hk,RateLimitGuard.value_askService,hl]
    rfl
  · rcases guard.trace_check head with hnone | ⟨policy,rule,key,h,hr,hk,ht⟩
    · exact Or.inl hnone
    · exact Or.inr ⟨policy,rule,key,h,hr,hk,ht.trans (hservice.calls key rule)⟩
  · intro policy rule key delay h hr hk hl hn
    obtain ⟨value,hvalue,htext⟩ := retryAfterHeader_eq delay
    refine ⟨retryAfterSeconds delay,quotaRejection value,(isRetryDelay_iff hn).mpr rfl,
      tellsToWait_quotaRejection htext,?_,asNanos_le_of_lt hn⟩
    rw [RateLimitGuard.value_check_of_rule h hr hk,RateLimitGuard.value_askService,hl]
    unfold verdict
    simp only [Option.map_some,hvalue]
  · intro delay delay' seconds seconds' hn hn' hs hs' hle
    rw [(isRetryDelay_iff hn).mp hs,(isRetryDelay_iff hn').mp hs']
    exact retryAfterSeconds_mono hn hn' hle

end

/-- Rules as they are declared, and keys that are any text but the empty one. -/
@[reducible] def referenceRateLimiting : RateLimiting where
  RateLimitRule := ℕ × Duration × Option ℕ
  RateLimitKey := Str
  newRule requests period :=
    if requests = 0 then .error (.validation "empty rate-limit quota") else .ok (requests,period,none)
  burst rule burst := (rule.1,rule.2.1,some burst)
  newKey text := if text.isEmpty then .error (.validation "empty rate-limit key") else .ok text
  keyText key := key
  rateLimited := .new (.other "rate_limited") "rate limit exceeded"

section
local instance quotaPlatform : Platform := referencePlatform
local instance quotaReference : RateLimiting := referenceRateLimiting

/-- A service that only forwards. -/
def forwarding (limiter : RateLimiter) : RateLimitService := fun key rule => do
  .report ⟨key,rule⟩
  .await (limiter key rule)

lemma forwards_forwarding (limiter : RateLimiter) : (forwarding limiter).Forwards limiter where
  calls key rule := by
    unfold forwarding
    rw [Coroutine.trace_bind,Coroutine.trace_await]
    rfl
  answers key rule := by
    unfold forwarding
    rw [Coroutine.value_bind,Coroutine.value_report,Option.bind_some,Coroutine.value_await]

/-- Ten requests a minute, and twenty at once. -/
def burstPolicy : RateLimitPolicy := ⟨10,⟨60,0⟩,some 20,.global⟩

/-- A limiter that asks for a second and a half of patience where a burst is declared. -/
def impatientLimiter : RateLimiter := fun _ rule =>
  .pending (.done (.ok (if rule.2.2 = some 20 then .rejected ⟨1,500000000⟩ else .allowed)))

def impatientGuard : RateLimitGuard :=
  ⟨forwarding impatientLimiter,fun _ _ => .pending (.done (.ok "everybody".toList))⟩

def burstHead : RouteRequestHead where
  endpoint := { Router.cachedEndpoint with rateLimit := some burstPolicy }
  normalized := .new ⟨"GET"⟩ { path := "/articles/1".toList,query := none } Multimap.empty ∅ ∅ ∅
  extensions := ()

theorem rate_limit_fails_closed_article : ∃ rejection,
    (impatientGuard.check burstHead).value = some (.error rejection) ∧ TellsToWait rejection 2 := by
  obtain ⟨-,-,-,-,-,hdelay,-⟩ := rate_limit_fails_closed impatientGuard impatientLimiter
    (forwards_forwarding impatientLimiter) burstHead
  obtain ⟨seconds,rejection,hseconds,htells,hcheck,-⟩ := hdelay burstPolicy (10,⟨60,0⟩,some 20)
    "everybody".toList ⟨1,500000000⟩ rfl ⟨_,rfl,rfl⟩ rfl rfl (by decide)
  obtain rfl := (isRetryDelay_iff (by decide)).mp hseconds
  exact ⟨rejection,hcheck,htells⟩

end
end SoapAxum.Guard
