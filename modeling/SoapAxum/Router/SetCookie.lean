import SoapAxum.Request.Cookies
import SoapAxum.Request.Negotiation
import SoapAxum.Router.Cookie
import SoapAxum.Text.Digits

/-! The encoder of response cookies against a reader of `Set-Cookie` lines, and against the parser of
request cookies. -/
namespace SoapAxum.Router
open SoapAxum.Http SoapAxum.Text SoapAxum.Data SoapAxum.Semantics SoapAxum.Policy SoapAxum.Request

def readSeconds (digits : Str) : Option ℕ :=
  if !digits.isEmpty && digits.all isAsciiDigit then some (Nat.ofDigitChars 10 digits 0) else none

def readSameSite (value : Str) : Option SameSite :=
  if value = "Strict".toList then some .strict
  else if value = "Lax".toList then some .lax
  else if value = "None".toList then some .none
  else none

def readFlag (name : Str) : Option CookieAttribute :=
  if name = "Secure".toList then some .secure
  else if name = "HttpOnly".toList then some .httpOnly
  else none

def readAssignment (name value : Str) : Option CookieAttribute :=
  if name = "Path".toList then some (.path value)
  else if name = "Domain".toList then some (.domain value)
  else if name = "Max-Age".toList then (readSeconds value).map .maxAge
  else if name = "SameSite".toList then (readSameSite value).map .sameSite
  else none

def readAttribute (part : Str) : Option CookieAttribute :=
  (splitOnce '=' part).elim (readFlag part) fun parts => readAssignment parts.1 parts.2

/-- What a client makes of a `Set-Cookie` line: the name, the value and the attributes. -/
def readSetCookie (line : Str) : Option (Str × Str × List CookieAttribute) := do
  let parts := (line.splitOn ';').map trim
  let (name,value) ← splitOnce '=' (parts.headD [])
  let attributes ← parts.tail.mapM readAttribute
  some (name,value,attributes)

/-- The part of a `Set-Cookie` line that the client sends back. -/
def cookiePart (line : Str) : Str := (line.splitOn ';').headD []

/-- Printable text without a semicolon and without whitespace at its ends. -/
structure IsAttributeText (text : Str) : Prop where
  printable : ∀ c ∈ text, 32 ≤ c.toNat ∧ c.toNat < 127 ∧ c ≠ ';'
  trimmed : trim text = text

/-- What the check of a response cookie is taken to guarantee. -/
structure IsPlainCookie (cookie : ResponseCookie) : Prop where
  name : IsToken cookie.name
  value : ∀ c ∈ cookie.value, IsCookieOctet c
  path : ∀ path, cookie.path = some path → IsAttributeText path
  domain : ∀ domain, cookie.domain = some domain → IsAttributeText domain

namespace CookieAttribute

def WellFormed : CookieAttribute → Prop
  | path text => IsAttributeText text
  | domain text => IsAttributeText text
  | _ => True

end CookieAttribute

lemma mem_elim {α β : Type} {o : Option α} {f : α → β} {y : β} :
    y ∈ o.elim [] (fun x => [f x]) ↔ ∃ x, o = some x ∧ y = f x := by
  cases o with
  | none => simp
  | some x => simp

/-- Text that neither ends a part nor leaves the readable characters. -/
def IsPartText (s : Str) : Prop := ∀ c ∈ s, isVisibleChar c = true ∧ c ≠ ';'

lemma isPartText_append {s t : Str} (hs : IsPartText s) (ht : IsPartText t) :
    IsPartText (s ++ t) := by
  exact List.forall_mem_append.mpr ⟨hs,ht⟩

/-- Joined parts can be read. -/
theorem visibleText_joined {parts : List Str} (h : ∀ part ∈ parts, IsPartText part) :
    VisibleText ("; ".toList.intercalate parts) := by
  apply forall_mem_intercalate (List.all_eq_true.mp (by decide))
  intro part hp c hc
  exact (h part hp c hc).1

lemma isPartText_of_isToken {s : Str} (h : IsToken s) : IsPartText s := by
  have hall : ∀ c, c.toNat < 128 → IsTchar c → isVisibleChar c = true ∧ c ≠ ';' :=
    forall_ascii (P := fun c => IsTchar c → isVisibleChar c = true ∧ c ≠ ';') (by decide)
  intro c hc
  have hlt := (h.2 c hc).2.1
  exact hall c (by omega) (h.2 c hc)

lemma isPartText_of_octets {s : Str} (h : ∀ c ∈ s, IsCookieOctet c) : IsPartText s := by
  have hall : ∀ c, c.toNat < 128 → IsCookieOctet c → isVisibleChar c = true ∧ c ≠ ';' :=
    forall_ascii (P := fun c => IsCookieOctet c → isVisibleChar c = true ∧ c ≠ ';') (by decide)
  intro c hc
  have hlt := (h c hc).2.1
  exact hall c (by omega) (h c hc)

lemma isWhitespace_of_isCookieOctet {c : Char} (h : IsCookieOctet c) : isWhitespace c = false := by
  have hlt := h.2.1
  exact forall_ascii (P := fun c => IsCookieOctet c → isWhitespace c = false) (by decide) c
    (by omega) h

lemma isPartText_of_isAttributeText {s : Str} (h : IsAttributeText s) : IsPartText s := by
  intro c hc
  obtain ⟨hlow,hhigh,hne⟩ := h.printable c hc
  refine ⟨?_,hne⟩
  simp only [isVisibleChar,Bool.or_eq_true,Bool.and_eq_true,decide_eq_true_eq]
  omega

lemma isToken_toDigits (n : ℕ) : IsToken (Nat.toDigits 10 n) :=
  ⟨Nat.toDigits_ne_nil,fun _ hc => isTchar_of_isAsciiDigit (isAsciiDigit_of_mem_toDigits hc)⟩

lemma isToken_sameSiteName (value : SameSite) : IsToken (sameSiteName value) := by
  cases value with
  | strict => exact isToken_of_all (by decide) (by decide)
  | lax => exact isToken_of_all (by decide) (by decide)
  | none => exact isToken_of_all (by decide) (by decide)

/-- A part with a value neither starts nor ends in whitespace. -/
theorem trim_assignment {name value : Str} (hn : IsToken name) (hv : trim value = value) :
    trim (name ++ '=' :: value) = name ++ '=' :: value := by
  apply trimWith_eq_self
  · intro c hc
    exact isWhitespace_of_isTchar (head?_token hn c hc)
  · intro c hc
    rw [List.getLast?_append_of_ne_nil _ (List.cons_ne_nil _ _),List.getLast?_cons] at hc
    have hlast : ∀ c ∈ value.getLast?, isWhitespace c = false := by
      rw [← hv]
      exact getLast?_trimWith
    cases hl : value.getLast? with
    | none =>
      rw [hl] at hc
      rw [← Option.some.inj hc]
      rfl
    | some last =>
      rw [hl] at hc
      rw [← Option.some.inj hc]
      exact hlast last (hl ▸ rfl)

namespace CookieAttribute

variable {a : CookieAttribute}

theorem isPartText_text (h : a.WellFormed) : IsPartText a.text := by
  have htoken : ∀ {s : Str}, s ≠ [] → s.all (fun c => decide (IsTchar c)) = true → IsPartText s :=
    fun hn hs => isPartText_of_isToken (isToken_of_all hn hs)
  have hequals : IsPartText ['='] := by
    intro c hc
    rw [List.mem_singleton.mp hc]
    decide
  have hname : ∀ {s t : Str}, IsPartText s → IsPartText t → IsPartText (s ++ ['='] ++ t) :=
    fun hs ht => isPartText_append (isPartText_append hs hequals) ht
  cases a with
  | path text =>
    exact @hname "Path".toList text (htoken (by decide) (by decide))
      (isPartText_of_isAttributeText h)
  | domain text =>
    exact @hname "Domain".toList text (htoken (by decide) (by decide))
      (isPartText_of_isAttributeText h)
  | maxAge secs =>
    exact @hname "Max-Age".toList _ (htoken (by decide) (by decide))
      (isPartText_of_isToken (isToken_toDigits secs))
  | secure => exact htoken (by decide) (by decide)
  | httpOnly => exact htoken (by decide) (by decide)
  | sameSite value =>
    exact @hname "SameSite".toList _ (htoken (by decide) (by decide))
      (isPartText_of_isToken (isToken_sameSiteName value))

theorem trim_text (h : a.WellFormed) : trim a.text = a.text := by
  have htoken : ∀ {s : Str}, s ≠ [] → s.all (fun c => decide (IsTchar c)) = true → IsToken s :=
    isToken_of_all
  cases a with
  | path text => exact @trim_assignment "Path".toList text (htoken (by decide) (by decide)) h.trimmed
  | domain text =>
    exact @trim_assignment "Domain".toList text (htoken (by decide) (by decide)) h.trimmed
  | maxAge secs =>
    exact @trim_assignment "Max-Age".toList _ (htoken (by decide) (by decide))
      (trim_token (isToken_toDigits secs))
  | secure => rfl
  | httpOnly => rfl
  | sameSite value =>
    exact @trim_assignment "SameSite".toList _ (htoken (by decide) (by decide))
      (trim_token (isToken_sameSiteName value))

lemma readAttribute_assignment {name : Str} (value : Str) (h : '=' ∉ name) :
    readAttribute (name ++ '=' :: value) = readAssignment name value := by
  unfold readAttribute
  rw [splitOnce_append value h]
  rfl

lemma readSeconds_toDigits (n : ℕ) : readSeconds (Nat.toDigits 10 n) = some n := by
  have hne : (Nat.toDigits 10 n).isEmpty = false := List.isEmpty_eq_false_iff.mpr Nat.toDigits_ne_nil
  have hall : (Nat.toDigits 10 n).all isAsciiDigit = true :=
    List.all_eq_true.mpr fun _ => isAsciiDigit_of_mem_toDigits
  unfold readSeconds
  rw [hne,hall,Nat.ofDigitChars_ten_toDigits]
  rfl

/-- A client reads each attribute back. -/
theorem readAttribute_text (a : CookieAttribute) : readAttribute a.text = some a := by
  cases a with
  | path text => exact @readAttribute_assignment "Path".toList text (by decide)
  | domain text => exact @readAttribute_assignment "Domain".toList text (by decide)
  | maxAge secs =>
    refine (@readAttribute_assignment "Max-Age".toList _ (by decide)).trans ?_
    change (readSeconds (Nat.toDigits 10 secs)).map maxAge = _
    rw [readSeconds_toDigits]
    rfl
  | secure => rfl
  | httpOnly => rfl
  | sameSite value => cases value <;> rfl

lemma mapM_readAttribute (attributes : List CookieAttribute) :
    (attributes.map text).mapM readAttribute = some attributes := by
  induction attributes with
  | nil => rfl
  | cons a attributes ih =>
    rw [List.map_cons,List.mapM_cons,readAttribute_text,ih]
    rfl

end CookieAttribute

section
variable {cookie : ResponseCookie}

theorem wellFormed_of_mem_declaredAttributes (h : IsPlainCookie cookie) :
    ∀ a ∈ declaredAttributes cookie, a.WellFormed := by
  intro a ha
  cases a with
  | path text =>
    have hpath : ∃ path, cookie.path = some path ∧ text = path := by
      simpa [declaredAttributes,mem_elim] using ha
    obtain ⟨path,hp,rfl⟩ := hpath
    exact h.path text hp
  | domain text =>
    have hdomain : ∃ domain, cookie.domain = some domain ∧ text = domain := by
      simpa [declaredAttributes,mem_elim] using ha
    obtain ⟨domain,hd,rfl⟩ := hdomain
    exact h.domain text hd
  | maxAge secs => exact trivial
  | secure => exact trivial
  | httpOnly => exact trivial
  | sameSite value => exact trivial

lemma trim_octets {value : Str} (h : ∀ c ∈ value, IsCookieOctet c) : trim value = value :=
  trimWith_eq_self_of_forall fun c hc => isWhitespace_of_isCookieOctet (h c hc)

lemma isPartText_cookiePair (h : IsPlainCookie cookie) : IsPartText (cookiePair cookie) := by
  have hequals : isVisibleChar '=' = true ∧ '=' ≠ ';' := by decide
  apply isPartText_append (isPartText_of_isToken h.name)
  exact List.forall_mem_cons.mpr ⟨hequals,isPartText_of_octets h.value⟩

lemma trim_cookiePair (h : IsPlainCookie cookie) : trim (cookiePair cookie) = cookiePair cookie :=
  trim_assignment h.name (trim_octets h.value)

/-- The parts of a cookie, the pair first. -/
theorem isPartText_parts (h : IsPlainCookie cookie) :
    ∀ part ∈ cookiePair cookie :: (declaredAttributes cookie).map CookieAttribute.text,
      IsPartText part := by
  rw [List.forall_mem_cons,List.forall_mem_map]
  refine ⟨isPartText_cookiePair h,?_⟩
  intro a ha
  exact CookieAttribute.isPartText_text (wellFormed_of_mem_declaredAttributes h a ha)

theorem splitOn_cookieText (h : IsPlainCookie cookie) : (cookieText cookie).splitOn ';' =
    cookiePair cookie :: (declaredAttributes cookie).map fun a => ' ' :: a.text := by
  have hparts := isPartText_parts h
  have hsemicolon : ∀ {part : Str}, IsPartText part → ';' ∉ part := fun hp hc => (hp ';' hc).2 rfl
  obtain ⟨hpair,hattributes⟩ := List.forall_mem_cons.mp hparts
  rw [cookieText_eq,cookieLine]
  refine (splitOn_intercalate_cons (hsemicolon hpair) (fun part hp => hsemicolon (hattributes part hp))
    (by decide)).trans ?_
  rw [List.map_map]
  rfl

lemma visibleText_cookieText (h : IsPlainCookie cookie) : VisibleText (cookieText cookie) := by
  rw [cookieText_eq]
  exact visibleText_joined (isPartText_parts h)

/-- A client reads back the name, the value and the declared attributes, and nothing else. -/
theorem readSetCookie_cookieText (h : IsPlainCookie cookie) :
    readSetCookie (cookieText cookie) = some (cookie.name,cookie.value,declaredAttributes cookie) := by
  have htrim : ∀ a ∈ declaredAttributes cookie, trim (' ' :: a.text) = a.text := by
    intro a ha
    rw [trim_space]
    exact CookieAttribute.trim_text (wellFormed_of_mem_declaredAttributes h a ha)
  have hparts : ((cookieText cookie).splitOn ';').map trim =
      cookiePair cookie :: (declaredAttributes cookie).map CookieAttribute.text := by
    rw [splitOn_cookieText h,List.map_cons,trim_cookiePair h,List.map_map]
    exact congrArg _ (List.map_congr_left htrim)
  have hsplit : splitOnce '=' (cookiePair cookie) = some (cookie.name,cookie.value) :=
    splitOnce_append _ (token_not_mem h.name (by decide))
  unfold readSetCookie
  rw [hparts]
  simp only [List.headD_cons,List.tail_cons,hsplit,CookieAttribute.mapM_readAttribute]
  rfl

lemma cookiePart_cookieText (h : IsPlainCookie cookie) :
    cookiePart (cookieText cookie) = cookiePair cookie := by
  unfold cookiePart
  rw [splitOn_cookieText h]
  rfl

lemma encodeCookie_of_plain [Platform] (hv : cookie.validate = .ok ()) (h : IsPlainCookie cookie) :
    ∃ value, encodeCookie cookie = .ok value ∧ latin1 value.bytes = cookieText cookie := by
  obtain ⟨value,hs,-,hstr⟩ := HeaderValue.fromStr_visible (visibleText_cookieText h)
  refine ⟨value,?_,(HeaderValue.toStr_eq_some.mp hstr).2.symm⟩
  unfold encodeCookie
  rw [hv,hs]
  rfl

end

/-- Each pair is text that stays in its part of a line. -/
theorem isPartText_pairs {cookies : List ResponseCookie}
    (h : ∀ cookie ∈ cookies, IsPlainCookie cookie) :
    ∀ part ∈ cookies.map cookiePair, IsPartText part := by
  rw [List.forall_mem_map]
  intro cookie hc
  exact isPartText_cookiePair (h cookie hc)

lemma isCookiePair_cookiePair {cookie : ResponseCookie} (h : IsPlainCookie cookie) :
    IsCookiePair (cookiePair cookie) cookie.name cookie.value where
  split := ⟨cookie.name,cookie.value,token_not_mem h.name (by decide),rfl,(trim_token h.name).symm,
    Or.inl (trim_octets h.value)⟩
  token := h.name
  octets := h.value

/-- The pairs of plain cookies on one line are these cookies. -/
theorem cookiePairs_line {cookies : List ResponseCookie} {line : HeaderValue}
    (hp : ∀ cookie ∈ cookies, IsPlainCookie cookie) (hn : (cookies.map ResponseCookie.name).Nodup)
    (hl : latin1 line.bytes = "; ".toList.intercalate (cookies.map cookiePair)) :
    CookiePairs [line] (cookies.map fun cookie => (cookie.name,cookie.value)) := by
  have hpart := isPartText_pairs hp
  have hpieces : cookiePieces (rawPieces [line]) = cookies.map cookiePair := by
    unfold rawPieces cookiePieces
    rw [List.flatMap_singleton,hl]
    cases cookies with
    | nil => rfl
    | cons first rest =>
      have hjoin := @splitOn_intercalate_space ';' ((first :: rest).map cookiePair)
        (List.cons_ne_nil _ _) (fun part hm hc => (hpart part hm ';' hc).2 rfl) (by decide)
      change ((([';',' '].intercalate ((first :: rest).map cookiePair)).splitOn ';').map trim).filter _ = _
      have htrim : ((first :: rest).map cookiePair).map trim = (first :: rest).map cookiePair := by
        rw [List.map_map]
        exact List.map_congr_left fun cookie hc => trim_cookiePair (hp cookie hc)
      rw [hjoin,htrim]
      apply List.filter_eq_self.mpr
      rw [List.forall_mem_map]
      intro cookie _
      unfold cookiePair
      simp
  constructor
  · intro value hm
    rw [List.mem_singleton.mp hm,hl]
    exact visibleText_joined hpart
  · rw [hpieces,List.forall₂_map_left_iff,List.forall₂_map_right_iff,List.forall₂_same]
    intro cookie hc
    exact isCookiePair_cookiePair (hp cookie hc)
  · rw [List.map_map]
    exact hn

theorem exists_cookieValues [Platform] {cookies : List ResponseCookie}
    (hv : ∀ cookie ∈ cookies, cookie.validate = .ok ())
    (hp : ∀ cookie ∈ cookies, IsPlainCookie cookie) :
    ∃ values, List.Forall₂ (fun cookie value => encodeCookie cookie = .ok value ∧
        readSetCookie (latin1 value.bytes) =
          some (cookie.name,cookie.value,declaredAttributes cookie)) cookies values ∧
      (values.map fun value => cookiePart (latin1 value.bytes)) = cookies.map cookiePair := by
  induction cookies with
  | nil => exact ⟨[],.nil,rfl⟩
  | cons cookie cookies ih =>
    obtain ⟨hcv,hv⟩ := List.forall_mem_cons.mp hv
    obtain ⟨hcp,hp⟩ := List.forall_mem_cons.mp hp
    obtain ⟨values,hvalues,hparts⟩ := ih hv hp
    obtain ⟨value,he,htext⟩ := encodeCookie_of_plain hcv hcp
    refine ⟨value :: values,.cons ⟨he,?_⟩ hvalues,?_⟩
    · rw [htext,readSetCookie_cookieText hcp]
    · rw [List.map_cons,List.map_cons,hparts,htext,cookiePart_cookieText hcp]

/-- A client reads from every encoded cookie what was declared, and the pairs it sends back are
parsed to exactly the names and values of the cookies. -/
theorem cookies_round_trip [Platform] {cookies : List ResponseCookie}
    (hv : ∀ cookie ∈ cookies, cookie.validate = .ok ())
    (hp : ∀ cookie ∈ cookies, IsPlainCookie cookie)
    (hn : (cookies.map ResponseCookie.name).Nodup) :
    ∃ values, List.Forall₂ (fun cookie value => encodeCookie cookie = .ok value ∧
        readSetCookie (latin1 value.bytes) =
          some (cookie.name,cookie.value,declaredAttributes cookie)) cookies values ∧
      ∃ line, HeaderValue.fromStr ("; ".toList.intercalate
          (values.map fun value => cookiePart (latin1 value.bytes))) = some line ∧
        ∀ headers : HeaderMap, headers.getAll .cookie = [line] →
          ∃ parsed, parseCookies headers = .ok parsed ∧ ∀ name value,
            parsed[name]? = some value ↔
              ∃ cookie ∈ cookies, cookie.name = name ∧ cookie.value = value := by
  obtain ⟨values,hvalues,hparts⟩ := exists_cookieValues hv hp
  have hvisible : VisibleText ("; ".toList.intercalate (cookies.map cookiePair)) :=
    visibleText_joined (isPartText_pairs hp)
  obtain ⟨line,hline,-,hstr⟩ := HeaderValue.fromStr_visible hvisible
  have htext := (HeaderValue.toStr_eq_some.mp hstr).2.symm
  have hpairs := cookiePairs_line hp hn htext
  refine ⟨values,hvalues,line,?_,?_⟩
  · rw [hparts,hline]
  · intro headers hheaders
    refine ⟨_,parseCookies_eq_ok.mpr ⟨_,hheaders ▸ hpairs,rfl⟩,?_⟩
    intro name value
    rw [BTreeMap.getElem?_insertMany_eq_some hpairs.nodup (by simp)]
    simp

section
local instance setCookiePlatform : Platform := referencePlatform

/-- A session with every attribute, and a choice whose value looks like one. -/
def articleCookies : List ResponseCookie := [
  { name := "session".toList
    value := "a=b".toList
    path := some "/articles".toList
    domain := some "example.org".toList
    maxAge := some ⟨3600,5⟩
    secure := true
    httpOnly := true
    sameSite := some .lax },
  { name := "theme".toList
    value := "Path=/".toList
    path := none
    domain := none
    maxAge := none
    secure := false
    httpOnly := false
    sameSite := none }]

lemma isAttributeText_of_all {text : Str} (h : text.all (fun c =>
    decide (32 ≤ c.toNat ∧ c.toNat < 127 ∧ c ≠ ';')) = true) (ht : trim text = text) :
    IsAttributeText text := ⟨fun c hc => of_decide_eq_true (List.all_eq_true.mp h c hc),ht⟩

theorem articleCookies_plain : ∀ cookie ∈ articleCookies, IsPlainCookie cookie := by
  have hoctets : ∀ {value : Str}, value.all (fun c => decide (IsCookieOctet c)) = true →
      ∀ c ∈ value, IsCookieOctet c := fun h c hc => of_decide_eq_true (List.all_eq_true.mp h c hc)
  unfold articleCookies
  rw [List.forall_mem_cons,List.forall_mem_singleton]
  refine ⟨⟨isToken_of_all (by decide) (by decide),hoctets (by decide),?_,?_⟩,
    isToken_of_all (by decide) (by decide),hoctets (by decide),?_,?_⟩
  · intro path hp
    rw [← Option.some.inj hp]
    exact isAttributeText_of_all (by decide) (by decide)
  · intro domain hd
    rw [← Option.some.inj hd]
    exact isAttributeText_of_all (by decide) (by decide)
  · intro path hp
    contradiction
  · intro domain hd
    contradiction

theorem cookies_round_trip_articles :
    ∃ values, List.Forall₂ (fun cookie value => encodeCookie cookie = .ok value ∧
      readSetCookie (latin1 value.bytes) =
        some (cookie.name,cookie.value,declaredAttributes cookie)) articleCookies values := by
  obtain ⟨values,hvalues,-⟩ := cookies_round_trip (fun _ _ => rfl) articleCookies_plain (by decide)
  exact ⟨values,hvalues⟩

end
end SoapAxum.Router
