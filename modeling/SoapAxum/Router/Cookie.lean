import SoapAxum.Router.Response
import SoapAxum.Semantics.Fallible

/-! What the encoding of a response cookie is: the line that joins its pair and its attributes. -/
namespace SoapAxum.Router
open SoapAxum.Http SoapAxum.Text SoapAxum.Semantics SoapAxum.Policy

/-- An attribute of a cookie as a client understands it. -/
inductive CookieAttribute where
  | path (text : Str)
  | domain (text : Str)
  | maxAge (secs : ℕ)
  | secure
  | httpOnly
  | sameSite (value : SameSite)
  deriving DecidableEq,Repr

/-- The attributes of a cookie, with its lifetime in whole seconds. -/
def declaredAttributes (cookie : ResponseCookie) : List CookieAttribute :=
  cookie.path.elim [] (fun path => [.path path]) ++
    cookie.domain.elim [] (fun domain => [.domain domain]) ++
    cookie.maxAge.elim [] (fun maxAge => [.maxAge maxAge.secs]) ++
    (if cookie.secure then [.secure] else []) ++
    (if cookie.httpOnly then [.httpOnly] else []) ++
    cookie.sameSite.elim [] (fun value => [.sameSite value])

def sameSiteName : SameSite → Str
  | .strict => "Strict".toList
  | .lax => "Lax".toList
  | .none => "None".toList

def CookieAttribute.text : CookieAttribute → Str
  | path text => "Path=".toList ++ text
  | domain text => "Domain=".toList ++ text
  | maxAge secs => "Max-Age=".toList ++ Nat.toDigits 10 secs
  | secure => "Secure".toList
  | httpOnly => "HttpOnly".toList
  | sameSite value => "SameSite=".toList ++ sameSiteName value

def cookiePair (cookie : ResponseCookie) : Str := cookie.name ++ '=' :: cookie.value

/-- The line of a cookie. -/
def cookieLine (cookie : ResponseCookie) : Str :=
  "; ".toList.intercalate
    (cookiePair cookie :: (declaredAttributes cookie).map CookieAttribute.text)

lemma intercalate_cons (sep first : Str) (rest : List Str) :
    sep.intercalate (first :: rest) = first ++ rest.flatMap (sep ++ ·) := by
  induction rest generalizing first with
  | nil => simp
  | cons second rest ih =>
    rw [List.intercalate_cons_cons,ih,List.flatMap_cons,List.append_assoc,List.append_assoc]

lemma flatMap_elim {α β γ : Type} (o : Option α) (f : α → β) (g : β → List γ) :
    (o.elim [] fun x => [f x]).flatMap g = o.elim [] fun x => g (f x) := by
  cases o with
  | none => rfl
  | some x => exact List.flatMap_singleton _ _

lemma flatMap_ite {β γ : Type} (b : Bool) (y : β) (g : β → List γ) :
    (if b then [y] else []).flatMap g = if b then g y else [] := by
  cases b with
  | true => exact List.flatMap_singleton _ _
  | false => rfl

lemma cookieText_eq (cookie : ResponseCookie) : cookieText cookie = cookieLine cookie := by
  rw [cookieLine,intercalate_cons,List.flatMap_map]
  unfold declaredAttributes
  simp only [List.flatMap_append,flatMap_elim,flatMap_ite,← List.append_assoc]
  rfl

section
variable [Platform] {cookie : ResponseCookie}

/-- The value of a cookie that passes its check is its line. -/
structure Encodes (cookie : ResponseCookie) (value : HeaderValue) : Prop where
  valid : cookie.validate = .ok ()
  line : HeaderValue.fromStr (cookieLine cookie) = some value

/-- Why a cookie has no encoding. -/
inductive CookieError (cookie : ResponseCookie) : SoapError → Prop
  | invalid (error : SoapError) (check : cookie.validate = .error error) : CookieError cookie error
  | unwritable (valid : cookie.validate = .ok ())
      (line : HeaderValue.fromStr (cookieLine cookie) = none) :
      CookieError cookie ((SoapError.validation "response cookie cannot be encoded").withSource
        [.technical "failed to parse header value"])

lemma CookieError.not_encodes {error : SoapError} {value : HeaderValue}
    (h : CookieError cookie error) : ¬ Encodes cookie value := by
  intro hencodes
  cases h with
  | invalid _ check => cases check.symm.trans hencodes.valid
  | unwritable _ line => cases line.symm.trans hencodes.line

theorem encodeCookie_eq_ok {value : HeaderValue} :
    encodeCookie cookie = .ok value ↔ Encodes cookie value := by
  rw [encodeCookie,cookieText_eq]
  cases hv : cookie.validate with
  | error error =>
    exact iff_of_false Fallible.ok_ne_error.symm (CookieError.invalid error hv).not_encodes
  | ok u =>
    rw [Fallible.ok_bind]
    cases hl : HeaderValue.fromStr (cookieLine cookie) with
    | none =>
      exact iff_of_false Fallible.ok_ne_error.symm (CookieError.unwritable hv hl).not_encodes
    | some line =>
      constructor
      · intro h
        obtain rfl := Except.ok.inj h
        exact ⟨hv,hl⟩
      · intro h
        exact congrArg _ (Option.some.inj (hl.symm.trans h.line))

theorem encodeCookie_eq_error {error : SoapError} :
    encodeCookie cookie = .error error ↔ CookieError cookie error := by
  rw [encodeCookie,cookieText_eq]
  cases hv : cookie.validate with
  | error error' =>
    constructor
    · intro h
      obtain rfl := Except.error.inj h
      exact .invalid error' hv
    · intro h
      cases h with
      | invalid _ check => exact congrArg _ (Except.error.inj (hv.symm.trans check))
      | unwritable valid => cases hv.symm.trans valid
  | ok u =>
    rw [Fallible.ok_bind]
    cases hl : HeaderValue.fromStr (cookieLine cookie) with
    | none =>
      constructor
      · intro h
        exact Except.error.inj h ▸ .unwritable hv hl
      · intro h
        cases h with
        | invalid _ check => cases hv.symm.trans check
        | unwritable => rfl
    | some line =>
      exact iff_of_false Fallible.ok_ne_error fun h => h.not_encodes ⟨hv,hl⟩

end
end SoapAxum.Router
