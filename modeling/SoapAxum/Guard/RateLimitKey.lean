import SoapAxum.Guard.RateLimit
import SoapAxum.Request.ClientIp
import SoapAxum.Router.Layers

/-! The built-in keys of the rate limit guard. An endpoint id may contain any text, but what follows
the last equals sign is either the word for the global scope or an address. -/
namespace SoapAxum.Guard
open SoapAxum.Http SoapAxum.Text SoapAxum.Data SoapAxum.Semantics SoapAxum.Request

def globalKeyText (id : EndpointId) : Str :=
  "http:endpoint=".toList ++ id.value.toList ++ ":scope=global".toList

def clientIpKeyText (id : EndpointId) (clientIp : IpAddr) : Str :=
  "http:endpoint=".toList ++ id.value.toList ++ ":scope=client-ip:value=".toList ++ clientIp.display

/-- `BuiltInRateLimitKeyResolver`. -/
def builtInKeyResolver [RateLimiting] [Platform] : HttpRateLimitKeyResolver := fun policy head =>
  match policy.scope with
  | .global => pure (RateLimiting.newKey (globalKeyText head.endpoint.id))
  | .clientIp => match head.normalized.clientIp with
    | none => pure (.error (.infrastructure
        "client-IP rate limit requires trusted client IP normalization"))
    | some clientIp => pure (RateLimiting.newKey (clientIpKeyText head.endpoint.id clientIp))
  | .principal => pure (.error (.unsupported
      "rate-limit scope requires an application HTTP key resolver"))
  | .apiKey => pure (.error (.unsupported
      "rate-limit scope requires an application HTTP key resolver"))
  | .custom _ => pure (.error (.unsupported
      "rate-limit scope requires an application HTTP key resolver"))

lemma globalKeyText_injective {id id' : EndpointId} (h : globalKeyText id = globalKeyText id') :
    id = id' := by
  have hid := List.append_cancel_left (List.append_cancel_right h)
  exact congrArg EndpointId.mk (String.toList_injective hid)

/-- Up to its last equals sign, and behind it. -/
theorem clientIpKeyText_eq (id : EndpointId) (clientIp : IpAddr) :
    clientIpKeyText id clientIp =
      ("http:endpoint=".toList ++ id.value.toList ++ ":scope=client-ip:value".toList) ++
        '=' :: clientIp.display := by
  unfold clientIpKeyText
  simp

lemma globalKeyText_eq (id : EndpointId) :
    globalKeyText id =
      ("http:endpoint=".toList ++ id.value.toList ++ ":scope".toList) ++ '=' :: "global".toList := by
  unfold globalKeyText
  simp

lemma equals_not_mem_display (clientIp : IpAddr) : '=' ∉ clientIp.display := by
  intro hm
  exact absurd (isAddressChar_display clientIp '=' hm) (by decide)

lemma clientIpKeyText_injective {id id' : EndpointId} {clientIp clientIp' : IpAddr}
    (h : clientIpKeyText id clientIp = clientIpKeyText id' clientIp') :
    id = id' ∧ clientIp = clientIp' := by
  rw [clientIpKeyText_eq,clientIpKeyText_eq] at h
  obtain ⟨hfront,hip⟩ := append_cons_inj_of_last (equals_not_mem_display clientIp)
    (equals_not_mem_display clientIp') h
  have hid := List.append_cancel_left (List.append_cancel_right hfront)
  exact ⟨congrArg EndpointId.mk (String.toList_injective hid),display_injective hip⟩

/-- No address is written like the word for the global scope. -/
theorem globalKeyText_ne (id id' : EndpointId) (clientIp : IpAddr) :
    globalKeyText id ≠ clientIpKeyText id' clientIp := by
  intro h
  rw [globalKeyText_eq,clientIpKeyText_eq] at h
  obtain ⟨-,hip⟩ := append_cons_inj_of_last (by decide) (equals_not_mem_display clientIp) h
  have hg := isAddressChar_display clientIp 'g' (by rw [← hip]; decide)
  exact absurd hg (by decide)

section
variable [RateLimiting] [Platform] {policy : RateLimitPolicy} {head : RouteRequestHead}

/-- What a resolved key was made from. -/
theorem builtInKeyResolver_eq_ok {key : RateLimiting.RateLimitKey}
    (h : (builtInKeyResolver policy head).value = some (.ok key)) :
    (policy.scope = .global ∧ RateLimiting.newKey (globalKeyText head.endpoint.id) = .ok key) ∨
      ∃ clientIp, policy.scope = .clientIp ∧ head.normalized.clientIp = some clientIp ∧
        RateLimiting.newKey (clientIpKeyText head.endpoint.id clientIp) = .ok key := by
  unfold builtInKeyResolver at h
  cases hs : policy.scope with
  | «global» =>
    rw [hs] at h
    exact Or.inl ⟨rfl,Option.some.inj h⟩
  | clientIp =>
    rw [hs] at h
    cases hip : head.normalized.clientIp with
    | none =>
      rw [hip] at h
      exact absurd (Option.some.inj h) (by simp)
    | some clientIp =>
      rw [hip] at h
      exact Or.inr ⟨clientIp,rfl,rfl,Option.some.inj h⟩
  | principal =>
    rw [hs] at h
    exact absurd (Option.some.inj h) (by simp)
  | apiKey =>
    rw [hs] at h
    exact absurd (Option.some.inj h) (by simp)
  | custom name =>
    rw [hs] at h
    exact absurd (Option.some.inj h) (by simp)

end

/-- Two built-in keys have the same text exactly if they are for the same endpoint and both global
or both for the same client address. -/
theorem built_in_keys_equal_iff [RateLimiting] [Platform]
    (keeps : ∀ text (key : RateLimiting.RateLimitKey),
      RateLimiting.newKey text = .ok key → RateLimiting.keyText key = text)
    {policy policy' : RateLimitPolicy} {head head' : RouteRequestHead}
    {key key' : RateLimiting.RateLimitKey}
    (h : (builtInKeyResolver policy head).value = some (.ok key))
    (h' : (builtInKeyResolver policy' head').value = some (.ok key')) :
    RateLimiting.keyText key = RateLimiting.keyText key' ↔
      head.endpoint.id = head'.endpoint.id ∧
        (policy.scope = .global ∧ policy'.scope = .global ∨
          policy.scope = .clientIp ∧ policy'.scope = .clientIp ∧
            head.normalized.clientIp = head'.normalized.clientIp) := by
  obtain ⟨hs,hk⟩ | ⟨clientIp,hs,hip,hk⟩ := builtInKeyResolver_eq_ok h
  · obtain ⟨hs',hk'⟩ | ⟨clientIp',hs',hip',hk'⟩ := builtInKeyResolver_eq_ok h'
    · rw [keeps _ _ hk,keeps _ _ hk',hs,hs']
      constructor
      · intro he
        exact ⟨globalKeyText_injective he,Or.inl ⟨rfl,rfl⟩⟩
      · rintro ⟨he,-⟩
        rw [he]
    · rw [keeps _ _ hk,keeps _ _ hk',hs,hs']
      exact iff_of_false (globalKeyText_ne _ _ _) (by simp)
  · obtain ⟨hs',hk'⟩ | ⟨clientIp',hs',hip',hk'⟩ := builtInKeyResolver_eq_ok h'
    · rw [keeps _ _ hk,keeps _ _ hk',hs,hs']
      exact iff_of_false (globalKeyText_ne _ _ _).symm (by simp)
    · rw [keeps _ _ hk,keeps _ _ hk',hs,hs',hip,hip']
      constructor
      · intro he
        obtain ⟨hid,rfl⟩ := clientIpKeyText_injective he
        exact ⟨hid,Or.inr ⟨rfl,rfl,rfl⟩⟩
      · rintro ⟨he,⟨hg,-⟩ | ⟨-,-,hi⟩⟩
        · contradiction
        · rw [he,Option.some.inj hi]

section
local instance rateLimitPlatform : Platform := referencePlatform
local instance rateLimitReference : RateLimiting := referenceRateLimiting

/-- Ten requests a minute for each client address. -/
def perClient : RateLimitPolicy := ⟨10,⟨60,0⟩,none,.clientIp⟩

def articleHead (clientIp : IpAddr) : RouteRequestHead :=
  { endpoint := { Router.cachedEndpoint with rateLimit := some perClient }
    normalized := (NormalizedRequestHead.new ⟨"GET"⟩ { path := "/articles/1".toList,query := none }
      Multimap.empty ∅ ∅ ∅).setClientIp clientIp
    extensions := () }

lemma referenceRateLimiting_keeps (text key : Str)
    (h : (RateLimiting.newKey text : SoapResult Str) = .ok key) : key = text := by
  cases text with
  | nil => contradiction
  | cons c text => exact (Except.ok.inj h).symm

theorem built_in_keys_equal_iff_article :
    clientIpKeyText ⟨"article.get"⟩ (.v4 0xC0000201) ≠
      clientIpKeyText ⟨"article.get"⟩ (.v4 0xC0000202) := by
  have h : (builtInKeyResolver perClient (articleHead (.v4 0xC0000201))).value =
      some (.ok (clientIpKeyText ⟨"article.get"⟩ (.v4 0xC0000201))) := rfl
  have h' : (builtInKeyResolver perClient (articleHead (.v4 0xC0000202))).value =
      some (.ok (clientIpKeyText ⟨"article.get"⟩ (.v4 0xC0000202))) := rfl
  intro he
  obtain ⟨-,⟨hs,-⟩ | ⟨-,-,hip⟩⟩ :=
    (built_in_keys_equal_iff referenceRateLimiting_keeps h h').mp he
  · exact absurd hs (by decide)
  · exact absurd hip (by decide)

end
end SoapAxum.Guard
