import SoapAxum.Request.AcceptItems

/-! The gate before a JSON body: which `Content-Type` headers let the adapter parse it. -/
namespace SoapAxum.Request
open SoapAxum.Http SoapAxum.Text SoapAxum.Data SoapAxum.Semantics

/-- The media type of a value, without its parameters. -/
def essence (value : Str) : Str := trim ((value.splitOn ';').headD [])

def notJsonMediaType : SoapError :=
  (HttpRejection.unsupportedMediaType "request Content-Type is not a JSON media type").intoError

/-- The last check of the gate, on the media type alone. -/
def requireJsonEssence (essence : Str) : SoapResult Unit :=
  match splitOnce '/' essence with
  | none => .error notJsonMediaType
  | some (kind,subtype) =>
    if !eqIgnoreAsciiCase kind "application".toList ||
        !(eqIgnoreAsciiCase subtype "json".toList ||
          "+json".toList.isSuffixOf (subtype.map toAsciiLower)) then .error notJsonMediaType
    else .ok ()

/-- The classes of errors that the parser tells apart. -/
inductive JsonCategory where
  | io
  | syntactic
  | data
  | eof
  deriving DecidableEq,Repr

structure JsonError where
  category : JsonCategory
  text : String
  deriving DecidableEq,Repr

section
variable [Platform]

def contentTypeValues (request : RouteRequest) : List HeaderValue :=
  request.normalized.head.headers.getAll .contentType

def RouteRequest.requireJsonContentType (request : RouteRequest) : SoapResult Unit :=
  match contentTypeValues request with
  | [] => .error (HttpRejection.unsupportedMediaType
      "JSON request requires Content-Type: application/json").intoError
  | _ :: _ :: _ => .error (HttpRejection.badRequest
      "request must contain exactly one Content-Type header").intoError
  | [value] => match value.toStr with
    | none => .error ((HttpRejection.unsupportedMediaType
        "request Content-Type is not valid text").withSource
        [.technical "failed to convert header to a str"]).intoError
    | some value => requireJsonEssence (essence value)

def jsonBodyError (error : JsonError) : SoapError :=
  if error.category = .syntactic ∨ error.category = .eof then
    ((HttpRejection.badRequest "request body contains malformed JSON").withSource
      [.technical error.text]).intoError
  else (SoapError.validation "JSON request body does not match the expected shape").withSource
    [.technical error.text]

/-- Parse the body with the parser `fromSlice` of its type. -/
def RouteRequest.decodeJson {T : Type} (fromSlice : Bytes → Except JsonError T)
    (request : RouteRequest) : SoapResult T := do
  request.requireJsonContentType
  (fromSlice request.normalized.body).mapError jsonBodyError

end

/-- Text with the suffix of the media types that are JSON underneath. -/
def EndsInJson (subtype : Str) : Prop :=
  ∃ front suffix, subtype = front ++ suffix ∧ eqIgnoreAsciiCase suffix "+json".toList = true

/-- A media type of JSON: its own, or an application type that names itself before the suffix. -/
inductive IsJsonType : Str → Prop
  | json {text : Str} (h : eqIgnoreAsciiCase text "application/json".toList = true) :
      IsJsonType text
  | suffixed {kind front suffix : Str} (hk : eqIgnoreAsciiCase kind "application".toList = true)
      (ht : IsToken (front ++ suffix)) (hf : front ≠ [])
      (hs : eqIgnoreAsciiCase suffix "+json".toList = true) :
      IsJsonType (kind ++ '/' :: (front ++ suffix))

/-- The header is there once, as text, and with a media type of JSON. -/
def DeclaresJson (values : List HeaderValue) : Prop :=
  ∃ value, values = [value] ∧ value.IsVisible ∧ IsJsonType (essence (latin1 value.bytes))

/-- An application type that only looks like one of JSON: it ends in the suffix, but it is no
token, or it is the suffix alone. -/
def LooksLikeJson (text : Str) : Prop :=
  ∃ kind subtype, text = kind ++ '/' :: subtype ∧
    eqIgnoreAsciiCase kind "application".toList = true ∧ EndsInJson subtype ∧
    (¬ IsToken subtype ∨ subtype.length = 5)

/-- The header is there once, as text, and only looks like one of JSON. -/
def Misleads (values : List HeaderValue) : Prop :=
  ∃ value, values = [value] ∧ value.IsVisible ∧ LooksLikeJson (essence (latin1 value.bytes))

lemma slash_not_mem {kind : Str} (h : eqIgnoreAsciiCase kind "application".toList = true) :
    '/' ∉ kind := by
  intro hm
  have hlower : toAsciiLower '/' ∈ kind.map toAsciiLower := List.mem_map_of_mem hm
  rw [eqIgnoreAsciiCase_iff.mp h] at hlower
  revert hlower
  decide

theorem isSuffixOf_lower_iff {subtype : Str} :
    "+json".toList.isSuffixOf (subtype.map toAsciiLower) = true ↔ EndsInJson subtype := by
  rw [List.isSuffixOf_iff_suffix]
  constructor
  · rintro ⟨front,h⟩
    obtain ⟨x,y,rfl,-,hy⟩ := List.map_eq_append_iff.mp h.symm
    exact ⟨x,y,rfl,eqIgnoreAsciiCase_iff.mpr hy⟩
  · rintro ⟨front,suffix,rfl,h⟩
    refine ⟨front.map toAsciiLower,?_⟩
    rw [List.map_append,eqIgnoreAsciiCase_iff.mp h]
    rfl

lemma eq_slash_of_lower {c : Char} (h : toAsciiLower c = '/') : c = '/' := by
  by_cases hupper : 65 ≤ c.toNat ∧ c.toNat ≤ 90
  · exact forall_ascii (P := fun c => toAsciiLower c = '/' → c = '/') (by decide) c (by omega) h
  · rwa [toAsciiLower_of_not_upper hupper] at h

/-- JSON's own media type, taken apart at its slash. -/
theorem eq_applicationJson_iff {text : Str} :
    eqIgnoreAsciiCase text "application/json".toList = true ↔
      ∃ kind subtype, text = kind ++ '/' :: subtype ∧
        eqIgnoreAsciiCase kind "application".toList = true ∧
        eqIgnoreAsciiCase subtype "json".toList = true := by
  have hparts : "application/json".toList = "application".toList ++ (['/'] ++ "json".toList) := rfl
  have hslash : eqIgnoreAsciiCase ['/'] ['/'] = true := by decide
  rw [hparts,eqIgnoreAsciiCase_append]
  constructor
  · rintro ⟨kind,rest,rfl,hk,hrest⟩
    obtain ⟨slash,subtype,rfl,hs,hj⟩ := eqIgnoreAsciiCase_append.mp hrest
    obtain ⟨c,tail,rfl,hc,htail⟩ := List.map_eq_cons_iff.mp (eqIgnoreAsciiCase_iff.mp hs)
    obtain rfl := List.map_eq_nil_iff.mp htail
    rw [eq_slash_of_lower hc]
    exact ⟨kind,subtype,rfl,hk,hj⟩
  · rintro ⟨kind,subtype,rfl,hk,hj⟩
    exact ⟨kind,_,rfl,hk,eqIgnoreAsciiCase_append.mpr ⟨['/'],subtype,rfl,hslash,hj⟩⟩

/-- With the suffix, a subtype that is a token and more than the suffix is that of a media type of
JSON. -/
theorem isJsonType_or_looksLikeJson {kind subtype : Str}
    (hk : eqIgnoreAsciiCase kind "application".toList = true) (hends : EndsInJson subtype) :
    IsJsonType (kind ++ '/' :: subtype) ∨ LooksLikeJson (kind ++ '/' :: subtype) := by
  by_cases hloose : ¬ IsToken subtype ∨ subtype.length = 5
  · exact Or.inr ⟨kind,subtype,rfl,hk,hends,hloose⟩
  · left
    rw [not_or,not_not] at hloose
    obtain ⟨ht,hlength⟩ := hloose
    obtain ⟨front,suffix,rfl,hs⟩ := hends
    have hsuffix : suffix.length = 5 := length_of_eqIgnoreAsciiCase hs
    have hf : front ≠ [] := by
      intro hnil
      apply hlength
      rw [hnil,List.nil_append,hsuffix]
    exact .suffixed hk ht hf hs

/-- An application type with a subtype of JSON is a media type of JSON or looks like one. -/
theorem passes_iff {text : Str} :
    (∃ kind subtype, text = kind ++ '/' :: subtype ∧
        eqIgnoreAsciiCase kind "application".toList = true ∧
        (eqIgnoreAsciiCase subtype "json".toList = true ∨ EndsInJson subtype)) ↔
      IsJsonType text ∨ LooksLikeJson text := by
  constructor
  · rintro ⟨kind,subtype,rfl,hk,hj | hends⟩
    · exact Or.inl (.json (eq_applicationJson_iff.mpr ⟨kind,subtype,rfl,hk,hj⟩))
    · exact isJsonType_or_looksLikeJson hk hends
  · rintro (h | ⟨kind,subtype,htext,hk,hends,-⟩)
    · cases h with
      | json h =>
        obtain ⟨kind,subtype,htext,hk,hj⟩ := eq_applicationJson_iff.mp h
        exact ⟨kind,subtype,htext,hk,Or.inl hj⟩
      | suffixed hk ht hf hs => exact ⟨_,_,rfl,hk,Or.inr ⟨_,_,rfl,hs⟩⟩
    · exact ⟨kind,subtype,htext,hk,Or.inr hends⟩

/-- What passes the last check is a media type of JSON or looks like one. -/
theorem requireJsonEssence_eq_ok {text : Str} :
    requireJsonEssence text = .ok () ↔ IsJsonType text ∨ LooksLikeJson text := by
  rw [← passes_iff]
  unfold requireJsonEssence
  cases hsplit : splitOnce '/' text with
  | none =>
    refine iff_of_false nofun ?_
    rintro ⟨kind,subtype,rfl,-⟩
    rw [splitOnce_eq_none] at hsplit
    simp at hsplit
  | some parts =>
    obtain ⟨kind,subtype⟩ := parts
    obtain ⟨hslash,rfl⟩ := splitOnce_eq_some.mp hsplit
    have hif : ∀ {passes : Bool}, (if !passes then Except.error notJsonMediaType else .ok ()) =
        .ok () ↔ passes = true := by
      intro passes
      cases passes <;> simp
    simp only [← Bool.not_and]
    rw [hif,Bool.and_eq_true,Bool.or_eq_true,isSuffixOf_lower_iff]
    constructor
    · rintro ⟨hk,hsubtype⟩
      exact ⟨kind,subtype,rfl,hk,hsubtype⟩
    · rintro ⟨kind',subtype',htext,hk,hsubtype⟩
      obtain ⟨rfl,rfl⟩ := append_cons_inj hslash (slash_not_mem hk) htext
      exact ⟨hk,hsubtype⟩

/-- Text that only looks like a media type of JSON is none. -/
theorem not_isJsonType_of_looksLikeJson {text : Str} (h : LooksLikeJson text) :
    ¬ IsJsonType text := by
  obtain ⟨kind,subtype,htext,hk,hends,hloose⟩ := h
  intro hjson
  cases hjson with
  | json hjson =>
    obtain ⟨kind',subtype',htext',hk',hj⟩ := eq_applicationJson_iff.mp hjson
    obtain ⟨-,rfl⟩ := append_cons_inj (slash_not_mem hk') (slash_not_mem hk) (htext'.symm.trans htext)
    obtain ⟨front,suffix,rfl,hs⟩ := hends
    have hlength := length_of_eqIgnoreAsciiCase hj
    have hsuffix := length_of_eqIgnoreAsciiCase hs
    rw [List.length_append,hsuffix] at hlength
    simp at hlength
  | @suffixed kind' front suffix hk' ht hf hs =>
    obtain ⟨-,rfl⟩ := append_cons_inj (slash_not_mem hk') (slash_not_mem hk) htext
    rcases hloose with hnot | hlength
    · exact hnot ht
    · have hpos : 0 < front.length := List.length_pos_of_ne_nil hf
      have hsuffix : suffix.length = 5 := length_of_eqIgnoreAsciiCase hs
      rw [List.length_append] at hlength
      omega

lemma not_misleads_of_declaresJson {values : List HeaderValue} (h : DeclaresJson values) :
    ¬ Misleads values := by
  obtain ⟨value,rfl,-,hjson⟩ := h
  rintro ⟨other,hsame,-,hlooks⟩
  obtain rfl := List.singleton_inj.mp hsame
  exact not_isJsonType_of_looksLikeJson hlooks hjson

section
variable [Platform]

/-- The gate lets a header pass exactly if it declares JSON or only looks as if it did. -/
theorem requireJsonContentType_eq_ok {request : RouteRequest} :
    request.requireJsonContentType = .ok () ↔
      DeclaresJson (contentTypeValues request) ∨ Misleads (contentTypeValues request) := by
  unfold RouteRequest.requireJsonContentType DeclaresJson Misleads
  cases contentTypeValues request with
  | nil => simp
  | cons value rest =>
    cases rest with
    | cons second rest => simp
    | nil =>
      simp only [List.cons.injEq,and_true,exists_eq_left']
      cases hs : value.toStr with
      | none => simp [HeaderValue.toStr_eq_none.mp hs]
      | some line =>
        obtain ⟨hv,rfl⟩ := HeaderValue.toStr_eq_some.mp hs
        simp only [hv,true_and]
        exact requireJsonEssence_eq_ok

/-- A header that misleads the gate passes without declaring JSON. -/
theorem passes_of_misleads {request : RouteRequest}
    (h : Misleads (contentTypeValues request)) :
    request.requireJsonContentType = .ok () ∧ ¬ DeclaresJson (contentTypeValues request) := by
  constructor
  · exact requireJsonContentType_eq_ok.mpr (Or.inr h)
  · intro hdeclares
    exact not_misleads_of_declaresJson hdeclares h

/-- The gate takes a header for one of JSON exactly if it is one, unless the header only looks as
if it were. -/
theorem json_content_type_gate_iff (request : RouteRequest) :
    (request.requireJsonContentType = .ok () ↔ DeclaresJson (contentTypeValues request)) ↔
      ¬ Misleads (contentTypeValues request) := by
  rw [requireJsonContentType_eq_ok]
  constructor
  · intro h hmisleads
    exact not_misleads_of_declaresJson (h.mp (Or.inr hmisleads)) hmisleads
  · intro hnot
    exact or_iff_left hnot

end

section
local instance contentTypePlatform : Platform := referencePlatform

/-- The request for an article with the given `Content-Type` lines. -/
def contentTypeRequest (lines : List HeaderValue) : RouteRequest :=
  let request := acceptLinesRequest []
  { request with normalized := { request.normalized with
      head := { request.normalized.head with
        headers := Multimap.empty.appendAll .contentType lines } } }

/-- Two media types on one line. -/
def joinedTypes : HeaderValue := .fromStatic "application/xml, application/problem+json" (by decide)

/-- The suffix without a name before it. -/
def bareSuffix : HeaderValue := .fromStatic "application/+json" (by decide)

/-- Two media types on one line pass, and so does the bare suffix. -/
theorem joined_media_types_pass_gate :
    ((contentTypeRequest [joinedTypes]).requireJsonContentType = .ok () ∧
        ¬ DeclaresJson (contentTypeValues (contentTypeRequest [joinedTypes]))) ∧
      (contentTypeRequest [bareSuffix]).requireJsonContentType = .ok () ∧
        ¬ DeclaresJson (contentTypeValues (contentTypeRequest [bareSuffix])) := by
  have hjoined : Misleads (contentTypeValues (contentTypeRequest [joinedTypes])) := by
    refine ⟨joinedTypes,rfl,by decide,"application".toList,"xml, application/problem+json".toList,
      by decide,by decide,⟨"xml, application/problem".toList,"+json".toList,by decide,by decide⟩,?_⟩
    left
    intro ht
    exact absurd (ht.2 ',' (by decide)) (by decide)
  have hbare : Misleads (contentTypeValues (contentTypeRequest [bareSuffix])) := by
    exact ⟨bareSuffix,rfl,by decide,"application".toList,"+json".toList,by decide,by decide,
      ⟨[],"+json".toList,rfl,by decide⟩,Or.inr rfl⟩
  exact ⟨passes_of_misleads hjoined,passes_of_misleads hbare⟩

end
end SoapAxum.Request
