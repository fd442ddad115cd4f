import SoapAxum.Router.Response

/-! Protocol rejections are answered from the outermost rejection of the source chain. What lies
below it or around it is for diagnostics only. -/
namespace SoapAxum.Router
open SoapAxum.Http SoapAxum.Text SoapAxum.Data

def IsRejection : ErrorLink → Prop
  | .rejection _ _ _ => True
  | .soap _ _ _ => False
  | .technical _ => False

/-- The outermost rejection of a source chain. -/
inductive FirstRejection (status : StatusCode) (code message : String) : List ErrorLink → Prop
  | found (rest : List ErrorLink) :
      FirstRejection status code message (.rejection status code message :: rest)
  | skip {link : ErrorLink} {rest : List ErrorLink} (other : ¬ IsRejection link)
      (tail : FirstRejection status code message rest) :
      FirstRejection status code message (link :: rest)

/-- A chain has an outermost rejection exactly if it has one at all. -/
theorem exists_firstRejection_iff {links : List ErrorLink} :
    (∃ status code message, FirstRejection status code message links) ↔
      ∃ link ∈ links, IsRejection link := by
  constructor
  · rintro ⟨status,code,message,h⟩
    induction h with
    | found rest => exact ⟨_,List.mem_cons_self,trivial⟩
    | skip other tail ih =>
      obtain ⟨link,hl,hr⟩ := ih
      exact ⟨link,List.mem_cons_of_mem _ hl,hr⟩
  · intro h
    induction links with
    | nil => simp at h
    | cons link links ih =>
      by_cases hlink : IsRejection link
      · cases link with
        | rejection status code message => exact ⟨status,code,message,.found links⟩
        | soap kind message diagnosticId => exact hlink.elim
        | technical text => exact hlink.elim
      · obtain ⟨other,hm,hr⟩ := h
        have htail : other ∈ links := by
          rcases List.mem_cons.mp hm with rfl | hm
          · exact absurd hr hlink
          · exact hm
        obtain ⟨status,code,message,hfirst⟩ := ih ⟨other,htail,hr⟩
        exact ⟨status,code,message,.skip hlink hfirst⟩

theorem findLink_of_firstRejection {status : StatusCode} {code message : String}
    {links : List ErrorLink} (h : FirstRejection status code message links) :
    ∃ rest, HttpRejection.findLink links = some ⟨status,code,message,rest⟩ := by
  induction h with
  | found rest => exact ⟨rest,rfl⟩
  | @skip link rest other tail ih =>
    cases link with
    | rejection status code message => exact absurd trivial other
    | soap kind message diagnosticId => exact ih
    | technical text => exact ih

theorem findLink_of_forall {links : List ErrorLink} (h : ∀ link ∈ links, ¬ IsRejection link) :
    HttpRejection.findLink links = none := by
  induction links with
  | nil => rfl
  | cons link links ih =>
    obtain ⟨hlink,hrest⟩ := List.forall_mem_cons.mp h
    cases link with
    | rejection status code message => exact absurd trivial hlink
    | soap kind message diagnosticId => exact ih hrest
    | technical text => exact ih hrest

/-- An error as the source of another one: itself, then its own sources. -/
def asSource (error : SoapError) : List ErrorLink :=
  .soap error.kind error.message error.diagnosticId :: error.source

/-- Application errors around an error, each with the next one as its source. -/
def wrap (wrappers : List SoapError) (error : SoapError) : SoapError :=
  wrappers.foldr (fun wrapper inner => wrapper.withSource (asSource inner)) error

/-- Wrapping leaves the outermost rejection as it is. -/
theorem firstRejection_wrap {status : StatusCode} {code message : String} {error : SoapError}
    (wrappers : List SoapError) (h : FirstRejection status code message error.source) :
    FirstRejection status code message (wrap wrappers error).source := by
  induction wrappers with
  | nil => exact h
  | cons wrapper wrappers ih =>
    refine .skip ?_ ih
    exact id

/-- What a rejection says, with the diagnostic id of the error that carries it. -/
def rejectedAs (status : StatusCode) (code message : String) (error : SoapError) : HttpErrorResponse :=
  ⟨status,⟨code,message,error.diagnosticId⟩,Multimap.empty⟩

lemma mappedError_of_firstRejection {status : StatusCode} {code message : String}
    {error : SoapError} (mapper : HttpErrorMapper)
    (h : FirstRejection status code message error.source) :
    mappedError mapper error = rejectedAs status code message error := by
  obtain ⟨rest,hfind⟩ := findLink_of_firstRejection h
  unfold mappedError HttpRejection.find
  rw [hfind]
  rfl

lemma mappedError_of_forall {error : SoapError} (mapper : HttpErrorMapper)
    (h : ∀ link ∈ error.source, ¬ IsRejection link) : mappedError mapper error = mapper error := by
  unfold mappedError HttpRejection.find
  rw [findLink_of_forall h]

section
variable [Platform]

/-- The response is an error as JSON: the status and the headers of it, and its body as the serializer
writes it, or a fixed one where it cannot. -/
structure Renders (mapped : HttpErrorResponse) (response : Response) : Prop where
  status : response.status = mapped.status
  contentType :
    response.headers.getAll .contentType = [.fromStatic "application/json" (by decide)]
  headers : ∀ name, name ≠ .contentType →
    response.headers.getAll name = mapped.headers.getAll name
  body : ∀ bytes, Platform.toVec mapped.body = some bytes → response.body = bytes
  unserializable : Platform.toVec mapped.body = none → response.body = utf8
    "\x7b\"code\":\"internal_error\",\"message\":\"failed to encode error response\",\"diagnostic_id\":null\x7d".toList

theorem renders_mappedError (mapper : HttpErrorMapper) (error : SoapError) :
    Renders (mappedError mapper error) (errorResponse mapper error) where
  status := rfl
  contentType := Multimap.getAll_insert_self _ _ _
  headers _ hn := Multimap.getAll_insert_of_ne _ _ hn
  body bytes h := by
    change serializeErrorBody _ = bytes
    rw [serializeErrorBody,h,Option.getD_some]
  unserializable h := by
    change serializeErrorBody _ = _
    rw [serializeErrorBody,h,Option.getD_none]

/-- An error with a rejection among its sources is answered with status, code and message of the
outermost one and with its own diagnostic id, whatever the mapper and everything else about the error.
Any other error is answered by the mapper, as JSON. Wrapping a rejection changes none of this. -/
theorem rejection_answers_for_itself (mapper : HttpErrorMapper) (error : SoapError) :
    ((∃ link ∈ error.source, IsRejection link) → ∃ status code message,
        FirstRejection status code message error.source ∧
        Renders (rejectedAs status code message error) (errorResponse mapper error) ∧
        ∀ (mapper' : HttpErrorMapper) (error' : SoapError),
          FirstRejection status code message error'.source →
          error'.diagnosticId = error.diagnosticId →
          errorResponse mapper' error' = errorResponse mapper error) ∧
      ((∀ link ∈ error.source, ¬ IsRejection link) →
        Renders (mapper error) (errorResponse mapper error)) ∧
      ∀ (rejection : HttpRejection) (wrappers : List SoapError),
        Renders (rejectedAs rejection.status rejection.code rejection.message
            (wrap wrappers rejection.intoError))
          (errorResponse mapper (wrap wrappers rejection.intoError)) := by
  refine ⟨?_,?_,?_⟩
  · intro h
    obtain ⟨status,code,message,hfirst⟩ := exists_firstRejection_iff.mpr h
    have hmapped := mappedError_of_firstRejection mapper hfirst
    refine ⟨status,code,message,hfirst,hmapped ▸ renders_mappedError mapper error,?_⟩
    intro mapper' error' hfirst' hd
    unfold errorResponse
    rw [hmapped,mappedError_of_firstRejection mapper' hfirst',rejectedAs,hd]
    rfl
  · intro h
    exact mappedError_of_forall mapper h ▸ renders_mappedError mapper error
  · intro rejection wrappers
    have hfirst : FirstRejection rejection.status rejection.code rejection.message
        (wrap wrappers rejection.intoError).source :=
      firstRejection_wrap wrappers (.found rejection.source)
    rw [← mappedError_of_firstRejection mapper hfirst]
    exact renders_mappedError mapper _

end
end SoapAxum.Router
