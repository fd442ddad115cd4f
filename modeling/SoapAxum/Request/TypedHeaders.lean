import SoapAxum.Request.Head
import SoapAxum.Semantics.Fallible

/-! Typed request headers. A header is named by a text in any case, and each of its lines is read as
visible text and parsed by the parser of the type. -/
namespace SoapAxum.Request
open SoapAxum.Http SoapAxum.Text SoapAxum.Data SoapAxum.Semantics

/-- The name of a header as the map looks it up, if the text is one. -/
def headerName (name : Str) : Option HeaderName :=
  let text := name.map toAsciiLower
  if h : (!text.isEmpty && text.all isHeaderNameChar) = true then some ⟨text,h⟩ else none

def repeatedHeader (name : String) : SoapError :=
  (HttpRejection.badRequest ("request header `" ++ name ++ "` must not be repeated")).intoError

def headerNotText (name : String) : SoapError :=
  ((HttpRejection.badRequest ("request header `" ++ name ++ "` is not valid visible text")).withSource
    [.technical "failed to convert header to a str"]).intoError

def headerOfOtherType (name : String) : SoapError :=
  (HttpRejection.badRequest
    ("request header `" ++ name ++ "` does not match the expected type")).intoError

def missingHeader (name : String) : SoapError :=
  (HttpRejection.badRequest ("required request header `" ++ name ++ "` is missing")).intoError

section
variable {T : Type}

/-- What both decoders do with a single line. -/
def readHeader (parse : Str → Option T) (name : String) (value : HeaderValue) : SoapResult T :=
  match value.toStr with
  | none => .error (headerNotText name)
  | some text => match parse text with
    | some value => .ok value
    | none => .error (headerOfOtherType name)

variable [Platform]

namespace RouteRequest

/-- `HeaderMap::get_all` for a name that is given as text. -/
def headerLines (request : RouteRequest) (name : String) : List HeaderValue :=
  (headerName name.toList).elim [] request.normalized.head.headers.getAll

def optionalHeader (request : RouteRequest) (parse : Str → Option T) (name : String) :
    SoapResult (Option T) :=
  match request.headerLines name with
  | [] => .ok none
  | _ :: _ :: _ => .error (repeatedHeader name)
  | [value] => (readHeader parse name value).map some

def requiredHeader (request : RouteRequest) (parse : Str → Option T) (name : String) :
    SoapResult T := do
  match ← request.optionalHeader parse name with
  | some value => .ok value
  | none => .error (missingHeader name)

def headerValues (request : RouteRequest) (parse : Str → Option T) (name : String) :
    SoapResult (List T) :=
  (request.headerLines name).mapM (readHeader parse name)

end RouteRequest

end

section
variable {T : Type} {parse : Str → Option T} {name : String} {line : HeaderValue}

/-- The line is visible text that the parser reads as the value. -/
def Reads (parse : Str → Option T) (line : HeaderValue) (value : T) : Prop :=
  ∃ text, line.toStr = some text ∧ parse text = some value

/-- Why a line cannot be read. -/
inductive Unreadable (parse : Str → Option T) (name : String) (line : HeaderValue) : SoapError → Prop
  | notText (hidden : ¬ line.IsVisible) : Unreadable parse name line (headerNotText name)
  | otherType (text : Str) (read : line.toStr = some text) (refused : parse text = none) :
      Unreadable parse name line (headerOfOtherType name)

lemma readHeader_eq_ok {value : T} :
    readHeader parse name line = .ok value ↔ Reads parse line value := by
  rw [readHeader,Reads]
  cases line.toStr with
  | none => exact iff_of_false nofun nofun
  | some text => cases hp : parse text <;> simp [hp]

theorem readHeader_eq_error {error : SoapError} :
    readHeader parse name line = .error error ↔ Unreadable parse name line error := by
  rw [readHeader]
  constructor
  · intro h
    cases ht : line.toStr with
    | none =>
      rw [ht] at h
      exact Except.error.inj h ▸ .notText (HeaderValue.toStr_eq_none.mp ht)
    | some text =>
      simp only [ht] at h
      cases hp : parse text with
      | none =>
        rw [hp] at h
        exact Except.error.inj h ▸ .otherType text ht hp
      | some value =>
        rw [hp] at h
        nomatch h
  · intro h
    cases h with
    | notText hidden => rw [HeaderValue.toStr_eq_none.mpr hidden]
    | otherType text read refused => simp only [read,refused]

lemma isBadRequest_of_unreadable {error : SoapError}
    (h : Unreadable parse name line error) : error.IsBadRequest := by
  cases h with
  | notText => exact isBadRequest_withSource _ _
  | otherType => exact isBadRequest_intoError _

lemma headerName_congr {name' : Str} (h : eqIgnoreAsciiCase name.toList name' = true) :
    headerName name.toList = headerName name' := by
  unfold headerName
  simp only [eqIgnoreAsciiCase_iff.mp h]

end

section
variable [Platform] {T : Type}

lemma headerValues_eq_ok {request : RouteRequest} {parse : Str → Option T} {name : String}
    {values : List T} : request.headerValues parse name = .ok values ↔
      List.Forall₂ (Reads parse) (request.headerLines name) values := by
  rw [RouteRequest.headerValues,Fallible.mapM_eq_ok]
  simp only [readHeader_eq_ok]

variable {request : RouteRequest} {parse : Str → Option T} {name : String}

lemma headerValues_eq_error {error : SoapError} :
    request.headerValues parse name = .error error ↔ ∃ before line after,
      request.headerLines name = before ++ line :: after ∧
        (∀ earlier ∈ before, ∃ value, Reads parse earlier value) ∧
        Unreadable parse name line error := by
  rw [RouteRequest.headerValues,Fallible.mapM_eq_error]
  simp only [readHeader_eq_ok,readHeader_eq_error]

/-- A single line is all that there is to read. -/
theorem headerValues_of_line {line : HeaderValue} (h : request.headerLines name = [line]) :
    request.headerValues parse name = (readHeader parse name line).map ([·]) := by
  rw [RouteRequest.headerValues,h,List.mapM_cons]
  cases readHeader parse name line <;> rfl

lemma optionalHeader_of_line {line : HeaderValue} (h : request.headerLines name = [line]) :
    request.optionalHeader parse name = (readHeader parse name line).map some := by
  rw [RouteRequest.optionalHeader,h]

theorem optionalHeader_eq_ok {found : Option T} :
    request.optionalHeader parse name = .ok found ↔
      request.headerValues parse name = .ok found.toList := by
  match hl : request.headerLines name with
  | [] =>
    rw [headerValues_eq_ok,RouteRequest.optionalHeader,hl]
    cases found with
    | none => exact iff_of_true rfl .nil
    | some value => exact iff_of_false nofun nofun
  | [line] =>
    rw [headerValues_of_line hl,optionalHeader_of_line hl]
    cases readHeader parse name line with
    | error error => cases found <;> exact iff_of_false nofun nofun
    | ok value => cases found <;> simp [Except.map]
  | first :: second :: rest =>
    rw [headerValues_eq_ok,RouteRequest.optionalHeader,hl]
    refine iff_of_false nofun fun h => ?_
    have hlength := h.length_eq
    cases found <;> simp at hlength

theorem optionalHeader_eq_error {error : SoapError} :
    request.optionalHeader parse name = .error error ↔
      2 ≤ (request.headerLines name).length ∧ error = repeatedHeader name ∨
        (request.headerLines name).length = 1 ∧ request.headerValues parse name = .error error := by
  match hl : request.headerLines name with
  | [] =>
    rw [RouteRequest.optionalHeader,hl]
    exact iff_of_false nofun (by simp)
  | [line] =>
    rw [headerValues_of_line hl,optionalHeader_of_line hl]
    cases readHeader parse name line <;> simp [Except.map]
  | first :: second :: rest =>
    rw [RouteRequest.optionalHeader,hl]
    simp [eq_comm]

lemma requiredHeader_eq_ok {value : T} :
    request.requiredHeader parse name = .ok value ↔
      request.optionalHeader parse name = .ok (some value) := by
  rw [RouteRequest.requiredHeader]
  cases request.optionalHeader parse name with
  | error error => exact iff_of_false nofun nofun
  | ok found => cases found <;> simp [Fallible.ok_bind]

theorem requiredHeader_eq_error {error : SoapError} :
    request.requiredHeader parse name = .error error ↔
      request.optionalHeader parse name = .error error ∨
        request.headerLines name = [] ∧ error = missingHeader name := by
  have hnone : request.optionalHeader parse name = .ok none ↔ request.headerLines name = [] := by
    rw [optionalHeader_eq_ok,headerValues_eq_ok]
    exact List.forall₂_nil_right_iff
  rw [RouteRequest.requiredHeader,← hnone]
  cases request.optionalHeader parse name with
  | error error' =>
    change Except.error error' = Except.error error ↔ _
    simp
  | ok found => cases found <;> simp [Fallible.ok_bind,eq_comm]

lemma isBadRequest_of_headerValues {error : SoapError}
    (h : request.headerValues parse name = .error error) : error.IsBadRequest := by
  obtain ⟨_,_,_,-,-,hu⟩ := headerValues_eq_error.mp h
  exact isBadRequest_of_unreadable hu

lemma isBadRequest_of_requiredHeader {error : SoapError}
    (h : request.requiredHeader parse name = .error error) : error.IsBadRequest := by
  rcases requiredHeader_eq_error.mp h with h | ⟨-,rfl⟩
  · rcases optionalHeader_eq_error.mp h with ⟨-,rfl⟩ | ⟨-,h⟩
    · exact isBadRequest_intoError _
    · exact isBadRequest_of_headerValues h
  · exact isBadRequest_intoError _

/-- The three decoders of a header agree: the values of its lines are read one by one up to the first
line that cannot be, a header that may be absent has the only value or none, and one that must not is
also an error when it is. Every error is a bad request, and the case of the name does not matter. -/
theorem typed_headers (request : RouteRequest) (parse : Str → Option T) (name : String) :
    (∀ values, request.headerValues parse name = .ok values ↔
      List.Forall₂ (Reads parse) (request.headerLines name) values) ∧
    (∀ error, request.headerValues parse name = .error error ↔ ∃ before line after,
      request.headerLines name = before ++ line :: after ∧
        (∀ earlier ∈ before, ∃ value, Reads parse earlier value) ∧
        Unreadable parse name line error) ∧
    (∀ found, request.optionalHeader parse name = .ok found ↔
      request.headerValues parse name = .ok found.toList) ∧
    (∀ error, request.optionalHeader parse name = .error error ↔
      2 ≤ (request.headerLines name).length ∧ error = repeatedHeader name ∨
        (request.headerLines name).length = 1 ∧ request.headerValues parse name = .error error) ∧
    (∀ value, request.requiredHeader parse name = .ok value ↔
      request.headerValues parse name = .ok [value]) ∧
    (∀ error, request.requiredHeader parse name = .error error ↔
      request.optionalHeader parse name = .error error ∨
        request.headerLines name = [] ∧ error = missingHeader name) ∧
    (∀ error, request.requiredHeader parse name = .error error ∨
      request.headerValues parse name = .error error → error.IsBadRequest) ∧
    ∀ name', eqIgnoreAsciiCase name.toList name'.toList = true →
      request.headerLines name' = request.headerLines name := by
  refine ⟨fun _ => headerValues_eq_ok,fun _ => headerValues_eq_error,fun _ => optionalHeader_eq_ok,
    fun _ => optionalHeader_eq_error,fun value => ?_,fun _ => requiredHeader_eq_error,?_,?_⟩
  · rw [requiredHeader_eq_ok,optionalHeader_eq_ok]
    rfl
  · rintro error (h | h)
    · exact isBadRequest_of_requiredHeader h
    · exact isBadRequest_of_headerValues h
  · intro name' hname
    rw [RouteRequest.headerLines,RouteRequest.headerLines,headerName_congr hname]

end
end SoapAxum.Request
