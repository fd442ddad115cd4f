import SoapAxum.Policy.Translation

/-! What the translated policies leave in a header map, and when the translation fails. -/
namespace SoapAxum.Policy
open SoapAxum.Http SoapAxum.Text SoapAxum.Data SoapAxum.Semantics

/-- A header that a policy declares. The kind is the one an encoding error would name. -/
structure DeclaredHeader where
  kind : String
  name : HeaderName
  text : Str
  deriving DecidableEq,Repr

/-- The directive for an age in seconds. -/
def maxAgeText (n : ℕ) : Str := "max-age".toList ++ '=' :: Nat.toDigits 10 n

/-- The directives of the HSTS header, in the order in which they are written. -/
def hstsPieces (hsts : HstsPolicy) : List Str :=
  maxAgeText hsts.maxAge.secs ::
    ((if hsts.includeSubdomains then ["includeSubDomains".toList] else []) ++
      if hsts.preload then ["preload".toList] else [])

/-- The headers a security policy declares, with their values as text. -/
def declaredHeaders (policy : SecurityHeadersPolicy) : List DeclaredHeader :=
  (if policy.noSniff then [⟨"no sniff",.xContentTypeOptions,"nosniff".toList⟩] else []) ++
  (match policy.frameOptions with
  | some .deny => [⟨"frame options",.xFrameOptions,"DENY".toList⟩]
  | some .sameOrigin => [⟨"frame options",.xFrameOptions,"SAMEORIGIN".toList⟩]
  | none => []) ++
  (match policy.referrerPolicy with
  | some .noReferrer => [⟨"referrer policy",.referrerPolicy,"no-referrer".toList⟩]
  | some .strictOriginWhenCrossOrigin =>
    [⟨"referrer policy",.referrerPolicy,"strict-origin-when-cross-origin".toList⟩]
  | none => []) ++
  (match policy.contentSecurityPolicy with
  | some text => [⟨"content security policy",.contentSecurityPolicy,text⟩]
  | none => []) ++
  (match policy.hsts with
  | some hsts => [⟨"HSTS policy",.strictTransportSecurity,[';',' '].intercalate (hstsPieces hsts)⟩]
  | none => [])

/-- Every declared value can be encoded as a header value. -/
def EncodableHeaders (policy : SecurityHeadersPolicy) : Prop :=
  ∀ d ∈ declaredHeaders policy, (HeaderValue.fromStr d.text).isSome

/-- The headers have exactly one value for each declared header, the declared one. -/
def Carries (headers : HeaderMap) (policy : SecurityHeadersPolicy) : Prop :=
  ∀ d ∈ declaredHeaders policy, ∃ value, HeaderValue.fromStr d.text = some value ∧
    headers.getAll d.name = [value]

theorem hstsText_eq (hsts : HstsPolicy) :
    hstsText hsts = [';',' '].intercalate (hstsPieces hsts) := by
  have hage : "max-age=".toList ++ asSecs hsts.maxAge = maxAgeText hsts.maxAge.secs := rfl
  have htext : hstsText hsts = maxAgeText hsts.maxAge.secs ++
      (if hsts.includeSubdomains then [';',' '] ++ "includeSubDomains".toList else []) ++
      if hsts.preload then [';',' '] ++ "preload".toList else [] :=
    congrArg (fun age => age ++ (if hsts.includeSubdomains then _ else []) ++ _) hage
  rw [htext,hstsPieces]
  generalize maxAgeText hsts.maxAge.secs = age
  generalize "includeSubDomains".toList = subdomains
  generalize "preload".toList = preload
  cases hsts.includeSubdomains <;> cases hsts.preload <;> simp [List.intercalate]

theorem declaredHeaders_nodup (policy : SecurityHeadersPolicy) :
    ((declaredHeaders policy).map DeclaredHeader.name).Nodup := by
  have h : ((declaredHeaders policy).map DeclaredHeader.name).Sublist
      ([.xContentTypeOptions] ++ [.xFrameOptions] ++ [.referrerPolicy] ++
        [.contentSecurityPolicy] ++ [.strictTransportSecurity]) := by
    simp only [declaredHeaders,List.map_append]
    refine List.Sublist.append (List.Sublist.append (List.Sublist.append (List.Sublist.append ?_ ?_)
      ?_) ?_) ?_ <;> split <;> simp
  exact h.nodup (by decide)

def writeHeader (d : DeclaredHeader) : Mutation SoapError HeaderMap Unit := do
  let value ← .ofExcept (headerValue d.kind d.text)
  .modify (·.insert d.name value)

def writeHeaders : List DeclaredHeader → Mutation SoapError HeaderMap Unit
  | [] => pure ()
  | d :: ds => do
    writeHeader d
    writeHeaders ds

lemma writeHeaders_append (ds es : List DeclaredHeader) :
    writeHeaders (ds ++ es) = (do writeHeaders ds; writeHeaders es) := by
  induction ds with
  | nil => rfl
  | cons d ds ih => simp only [List.cons_append,writeHeaders,ih,Mutation.bind_assoc]

lemma writeHeaders_singleton (d : DeclaredHeader) : writeHeaders [d] = writeHeader d :=
  Mutation.bind_pure _

lemma writeHeader_run_ok {d : DeclaredHeader} {value : HeaderValue} (headers : HeaderMap)
    (h : HeaderValue.fromStr d.text = some value) :
    (writeHeader d).run headers = (.ok (),headers.insert d.name value) := by
  rw [writeHeader,headerValue_eq_ok.mpr h]
  rfl

/-- A header known at compile time is written without any failure. -/
theorem writeHeader_static (kind : String) (name : HeaderName) (s : String)
    (h : (utf8 s.toList).all isValidByte = true) :
    writeHeader ⟨kind,name,s.toList⟩ = .modify (·.insert name (.fromStatic s h)) :=
  Mutation.ext fun headers => writeHeader_run_ok headers (HeaderValue.fromStatic_eq_fromStr h)

/-- Encodable headers with distinct names are all written, and no other header changes. -/
theorem writeHeaders_run {ds : List DeclaredHeader} (headers : HeaderMap)
    (hn : (ds.map DeclaredHeader.name).Nodup)
    (he : ∀ d ∈ ds, (HeaderValue.fromStr d.text).isSome) :
    ∃ out, (writeHeaders ds).run headers = (.ok (),out) ∧
      (∀ d ∈ ds, ∃ value, HeaderValue.fromStr d.text = some value ∧ out.getAll d.name = [value]) ∧
      ∀ name, name ∉ ds.map DeclaredHeader.name → out.getAll name = headers.getAll name := by
  induction ds generalizing headers with
  | nil => exact ⟨headers,rfl,by simp,fun _ _ => rfl⟩
  | cons d ds ih =>
    obtain ⟨value,hv⟩ := Option.isSome_iff_exists.mp (he d (by simp))
    obtain ⟨hd,hn⟩ := List.nodup_cons.mp hn
    obtain ⟨out,hr,hw,hf⟩ := ih (headers.insert d.name value) hn
      (fun e hm => he e (by simp [hm]))
    refine ⟨out,?_,?_,?_⟩
    · rw [writeHeaders,Mutation.run_bind_of_ok (writeHeader_run_ok headers hv),hr]
    · intro e hm
      rcases List.mem_cons.mp hm with rfl | hm
      · exact ⟨value,hv,by rw [hf _ hd,Multimap.getAll_insert_self]⟩
      · exact hw e hm
    · intro name hm
      simp only [List.map_cons,List.mem_cons,not_or] at hm
      rw [hf name hm.2,Multimap.getAll_insert_of_ne _ _ hm.1]

section
variable [Platform]

/-- Applying a security policy is checking it and then writing its declared headers. -/
theorem applySecurityHeaders_eq (policy : SecurityHeadersPolicy) :
    applySecurityHeaders policy = (do
      .ofExcept policy.validate
      writeHeaders (declaredHeaders policy)) := by
  simp only [applySecurityHeaders,declaredHeaders,writeHeaders_append,Mutation.bind_assoc]
  congr 1
  funext _
  congr 1
  · split_ifs
    · rw [writeHeaders_singleton,writeHeader_static]
    · rfl
  funext _
  congr 1
  · rcases policy.frameOptions with _ | _ | _
    · rfl
    · rw [writeHeaders_singleton,writeHeader_static]; rfl
    · rw [writeHeaders_singleton,writeHeader_static]; rfl
  funext _
  congr 1
  · rcases policy.referrerPolicy with _ | _ | _
    · rfl
    · rw [writeHeaders_singleton,writeHeader_static]; rfl
    · rw [writeHeaders_singleton,writeHeader_static]; rfl
  funext _
  congr 1
  · rcases policy.contentSecurityPolicy with _ | text
    · rfl
    · rw [writeHeaders_singleton]; rfl
  funext _
  rcases policy.hsts with _ | hsts
  · rfl
  · rw [writeHeaders_singleton,writeHeader,← hstsText_eq]; rfl

/-- A valid, encodable security policy is written completely and touches only its own headers. -/
theorem applySecurityHeaders_run {policy : SecurityHeadersPolicy} (headers : HeaderMap)
    (hv : policy.validate = .ok ()) (he : EncodableHeaders policy) :
    ∃ out, (applySecurityHeaders policy).run headers = (.ok (),out) ∧ Carries out policy ∧
      ∀ name, name ∉ (declaredHeaders policy).map DeclaredHeader.name →
        out.getAll name = headers.getAll name := by
  obtain ⟨out,hr,hw,hf⟩ := writeHeaders_run headers (declaredHeaders_nodup policy) he
  refine ⟨out,?_,hw,hf⟩
  rw [applySecurityHeaders_eq,hv]
  exact hr

end
end SoapAxum.Policy
