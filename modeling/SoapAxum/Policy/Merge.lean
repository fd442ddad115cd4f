import SoapAxum.Data.Distinct
import SoapAxum.Http.Reference
import SoapAxum.Policy.Application
import SoapAxum.Semantics.Fallible
import SoapAxum.Semantics.Footprint

/-! The merged `Vary` line as the union of the listed and the declared names, and policies that
change nothing when they are applied again. -/
namespace SoapAxum.Policy
open SoapAxum.Http SoapAxum.Text SoapAxum.Data SoapAxum.Data.Distinct SoapAxum.Semantics

lemma eqIgnoreAsciiCase_refl (s : Str) : eqIgnoreAsciiCase s s = true := eqIgnoreAsciiCase_iff.mpr rfl

lemma eqIgnoreAsciiCase_trans (s t u : Str) (h : eqIgnoreAsciiCase s t = true)
    (h' : eqIgnoreAsciiCase t u = true) : eqIgnoreAsciiCase s u = true :=
  eqIgnoreAsciiCase_iff.mpr ((eqIgnoreAsciiCase_iff.mp h).trans (eqIgnoreAsciiCase_iff.mp h'))

/-- The names that the lines list. -/
def listedNames (lines : List HeaderValue) : List Str :=
  lines.flatMap fun value => varyNames (latin1 value.bytes)

def declaredNames (policy : ResponseCachePolicy) : List Str := policy.vary.map HeaderName.text

/-- A name as it stands between commas. -/
structure VaryName (name : Str) : Prop where
  ne_nil : name ≠ []
  comma : ',' ∉ name
  trimmed : trim name = name
  visible : VisibleText name

theorem varyName_of_mem {line name : Str} (h : VisibleText line) (hn : name ∈ varyNames line) :
    VaryName name := by
  have hvisible := visibleText_of_mem_varyNames h hn
  unfold varyNames at hn
  obtain ⟨hmem,hne⟩ := List.mem_filter.mp hn
  obtain ⟨piece,hp,rfl⟩ := List.mem_map.mp hmem
  refine ⟨?_,?_,?_,hvisible⟩
  · simpa using hne
  · intro hc
    exact sep_not_mem_of_mem_splitOn hp (trimWith_subset _ _ hc)
  · unfold trim
    rw [trimWith_trimWith]

theorem varyName_headerName (name : HeaderName) : VaryName name.text := by
  have h := name.valid
  rw [Bool.and_eq_true,Bool.not_eq_true',List.all_eq_true] at h
  refine ⟨?_,?_,?_,visibleText_headerName name⟩
  · rw [← List.isEmpty_eq_false_iff]
    exact h.1
  · intro hc
    have hcomma := h.2 ',' hc
    contradiction
  · apply trimWith_eq_self_of_forall
    intro c hc
    have hsolid : ∀ c, c.toNat < 128 → isHeaderNameChar c = true → isWhitespace c = false :=
      forall_ascii (P := fun c => isHeaderNameChar c = true → isWhitespace c = false) (by decide)
    exact hsolid c (toNat_lt_of_isVisibleChar (visibleText_headerName name c hc)) (h.2 c hc)

/-- The names of a joined line are the joined names. -/
theorem varyNames_intercalate {names : List Str} (h : ∀ name ∈ names, VaryName name) :
    varyNames (", ".toList.intercalate names) = names := by
  unfold varyNames
  cases names with
  | nil => rfl
  | cons first rest =>
    have hjoin := @splitOn_intercalate_space ',' (first :: rest) (List.cons_ne_nil _ _)
      (fun name hn => (h name hn).comma) (by decide)
    change ((([',',' '].intercalate (first :: rest)).splitOn ',').map trim).filter _ = _
    rw [hjoin,List.map_congr_left fun name hn => (h name hn).trimmed,List.map_id']
    apply List.filter_eq_self.mpr
    intro name hn
    have hne := (h name hn).ne_nil
    simpa using hne

/-- What is collected are names that are new up to case. -/
theorem pushUnique_eq : pushUnique = pushNew eqIgnoreAsciiCase := rfl

theorem collectNames_eq (names values : List Str) :
    collectNames names values =
      if ['*'] ∈ names then none else some (pushAll eqIgnoreAsciiCase values names) := by
  induction names generalizing values with
  | nil => rfl
  | cons name names ih =>
    rw [collectNames]
    by_cases h : name = ['*']
    · rw [if_pos h,if_pos (List.mem_cons.mpr (Or.inl h.symm))]
    · have hmem : ['*'] ∈ name :: names ↔ ['*'] ∈ names := by simp [Ne.symm h]
      rw [if_neg h,ih]
      simp only [hmem,pushUnique_eq]
      rfl

/-- The loop over visible lines collects what they list, unless that is everything. -/
theorem collectVary_of_visible {lines : List HeaderValue} (values : List Str)
    (h : ∀ value ∈ lines, value.IsVisible) :
    collectVary lines values = .ok (if ['*'] ∈ listedNames lines then none
      else some (pushAll eqIgnoreAsciiCase values (listedNames lines))) := by
  induction lines generalizing values with
  | nil => rfl
  | cons value lines ih =>
    obtain ⟨hv,h⟩ := List.forall_mem_cons.mp h
    have hlisted : listedNames (value :: lines) = varyNames (latin1 value.bytes) ++ listedNames lines :=
      List.flatMap_cons
    rw [collectVary,HeaderValue.toStr_eq_some.mpr ⟨hv,rfl⟩,hlisted]
    simp only [collectNames_eq,List.mem_append]
    by_cases hstar : ['*'] ∈ varyNames (latin1 value.bytes)
    · rw [if_pos hstar,if_pos (Or.inl hstar)]
    · simp only [hstar,false_or,if_false]
      rw [ih _ h,pushAll_append]

theorem isVisible_of_collectVary {lines : List HeaderValue} {values out : List Str}
    (h : collectVary lines values = .ok (some out)) : ∀ value ∈ lines, value.IsVisible := by
  induction lines generalizing values with
  | nil => simp
  | cons value lines ih =>
    rw [collectVary] at h
    cases hs : value.toStr with
    | none =>
      rw [hs] at h
      contradiction
    | some line =>
      rw [hs] at h
      cases hc : collectNames (varyNames line) values with
      | none =>
        simp only [hc] at h
        exact absurd (Except.ok.inj h) (by simp)
      | some next =>
        simp only [hc] at h
        exact List.forall_mem_cons.mpr ⟨(HeaderValue.toStr_eq_some.mp hs).1,ih h⟩

lemma isValidByte_star : (utf8 "*".toList).all isValidByte = true := by decide

def starLine : HeaderValue := .fromStatic "*" isValidByte_star

/-- The value that replaces the `Vary` lines. -/
def mergedLine (policy : ResponseCachePolicy) (lines : List HeaderValue) : SoapResult HeaderValue :=
  collectVary lines [] >>= fun names => names.elim (.ok starLine) fun names =>
    headerValue "Vary policy"
      (", ".toList.intercalate (pushAll eqIgnoreAsciiCase names (declaredNames policy)))

lemma foldl_pushUnique (names : List HeaderName) (values : List Str) :
    names.foldl (fun values name => pushUnique values name.text) values =
      pushAll eqIgnoreAsciiCase values (names.map HeaderName.text) := by
  unfold pushAll
  rw [List.foldl_map,pushUnique_eq]

/-- Merging reads and writes the `Vary` lines alone. -/
theorem mergeVary_eq {policy : ResponseCachePolicy} (h : policy.vary ≠ []) :
    mergeVary policy = Mutation.replace .vary (mergedLine policy) := by
  apply Mutation.ext
  intro headers
  rw [mergeVary,if_neg (by simpa using h)]
  unfold Mutation.replace mergedLine
  rw [Mutation.run_bind_of_ok (Mutation.run_get _),Mutation.run_bind_of_ok (Mutation.run_get _)]
  cases collectVary (headers.getAll .vary) [] with
  | error error => rfl
  | ok names =>
    cases names with
    | none => rfl
    | some names =>
      simp only [foldl_pushUnique]
      rfl

/-- All names in the order in which they come, each in its first spelling. -/
def mergedNames (policy : ResponseCachePolicy) (lines : List HeaderValue) : List Str :=
  pushAll eqIgnoreAsciiCase [] (listedNames lines ++ declaredNames policy)

lemma varyName_of_mem_listedNames {lines : List HeaderValue} {name : Str}
    (h : ∀ value ∈ lines, value.IsVisible) (hn : name ∈ listedNames lines) : VaryName name := by
  obtain ⟨value,hv,hn⟩ := List.mem_flatMap.mp hn
  exact varyName_of_mem (HeaderValue.isVisible_iff.mp (h value hv)) hn

theorem varyName_of_mem_mergedNames {policy : ResponseCachePolicy} {lines : List HeaderValue}
    (h : ∀ value ∈ lines, value.IsVisible) : ∀ name ∈ mergedNames policy lines, VaryName name := by
  intro name hn
  rcases mem_of_mem_pushAll hn with hnil | hn
  · contradiction
  · rcases List.mem_append.mp hn with hlisted | hdeclared
    · exact varyName_of_mem_listedNames h hlisted
    · obtain ⟨header,-,rfl⟩ := List.mem_map.mp hdeclared
      exact varyName_headerName header

lemma mergedLine_of_star {policy : ResponseCachePolicy} {lines : List HeaderValue}
    (h : ∀ value ∈ lines, value.IsVisible) (hs : ['*'] ∈ listedNames lines) :
    mergedLine policy lines = .ok starLine := by
  unfold mergedLine
  rw [collectVary_of_visible [] h,if_pos hs]
  rfl

theorem mergedLine_of_not_star {policy : ResponseCachePolicy} {lines : List HeaderValue}
    (h : ∀ value ∈ lines, value.IsVisible) (hs : ['*'] ∉ listedNames lines) :
    ∃ line, mergedLine policy lines = .ok line ∧
      HeaderValue.fromStr (", ".toList.intercalate (mergedNames policy lines)) = some line ∧
      line.IsVisible ∧ latin1 line.bytes = ", ".toList.intercalate (mergedNames policy lines) := by
  have hall : VisibleText (", ".toList.intercalate (mergedNames policy lines)) := by
    apply forall_mem_intercalate (List.all_eq_true.mp (by decide))
    intro name hn
    exact (varyName_of_mem_mergedNames h name hn).visible
  obtain ⟨line,hline,hvisible,hstr⟩ := HeaderValue.fromStr_visible hall
  refine ⟨line,?_,hline,hvisible,?_⟩
  · unfold mergedLine
    rw [collectVary_of_visible [] h,if_neg hs]
    change headerValue _ _ = _
    rw [← pushAll_append]
    exact headerValue_eq_ok.mpr hline
  · exact (HeaderValue.toStr_eq_some.mp hstr).2.symm

lemma listedNames_singleton (line : HeaderValue) : listedNames [line] = varyNames (latin1 line.bytes) :=
  List.flatMap_singleton _ _

lemma pairwise_mergedNames (policy : ResponseCachePolicy) (lines : List HeaderValue) :
    (mergedNames policy lines).Pairwise fun x y => eqIgnoreAsciiCase x y = false :=
  pairwise_pushAll _ List.Pairwise.nil

lemma exists_mem_mergedNames {policy : ResponseCachePolicy} {lines : List HeaderValue} {name : Str}
    (h : name ∈ listedNames lines ++ declaredNames policy) :
    ∃ x ∈ mergedNames policy lines, eqIgnoreAsciiCase x name = true :=
  exists_mem_pushAll eqIgnoreAsciiCase_refl h

/-- A line with all names of the policy, and no two alike, is merged to itself. -/
theorem mergedNames_of_merged {policy : ResponseCachePolicy} {lines lines' : List HeaderValue}
    (h : listedNames lines' = mergedNames policy lines) :
    mergedNames policy lines' = mergedNames policy lines := by
  have hself : pushAll eqIgnoreAsciiCase [] (mergedNames policy lines) = mergedNames policy lines :=
    pushAll_of_pairwise (pairwise_mergedNames policy lines)
  unfold mergedNames at hself ⊢
  rw [h,pushAll_append,mergedNames,hself]
  apply pushAll_of_covered
  intro name hn
  exact exists_mem_mergedNames (List.mem_append_right _ hn)

/-- Merging that succeeds has met everything, or only readable lines that do not list it. -/
theorem mergedLine_cases {policy : ResponseCachePolicy} {lines : List HeaderValue}
    {line : HeaderValue} (h : mergedLine policy lines = .ok line) :
    line = starLine ∨ ((∀ value ∈ lines, value.IsVisible) ∧ ['*'] ∉ listedNames lines) := by
  unfold mergedLine at h
  obtain ⟨names,hc,h⟩ := Fallible.bind_eq_ok.mp h
  cases names with
  | none => exact Or.inl (Except.ok.inj h).symm
  | some names =>
    have hv := isVisible_of_collectVary hc
    refine Or.inr ⟨hv,?_⟩
    intro hs
    rw [collectVary_of_visible [] hv,if_pos hs] at hc
    exact absurd (Except.ok.inj hc) (by simp)

/-- What has been merged is merged to itself. -/
theorem mergedLine_of_merged {policy : ResponseCachePolicy} {lines : List HeaderValue}
    {line : HeaderValue} (hstar : ['*'] ∉ declaredNames policy)
    (h : mergedLine policy lines = .ok line) : mergedLine policy [line] = .ok line := by
  rcases mergedLine_cases h with rfl | ⟨hv,hs⟩
  · exact mergedLine_of_star (by simp [starLine]; decide) (by decide)
  · obtain ⟨line',hline,hencode,hvisible,htext⟩ := @mergedLine_of_not_star policy lines hv hs
    obtain rfl : line' = line := Except.ok.inj (hline.symm.trans h)
    have hlisted : listedNames [line'] = mergedNames policy lines := by
      rw [listedNames_singleton,htext,varyNames_intercalate (varyName_of_mem_mergedNames hv)]
    have hs' : ['*'] ∉ listedNames [line'] := by
      rw [hlisted]
      intro hm
      rcases mem_of_mem_pushAll hm with hnil | hm
      · contradiction
      · exact (List.mem_append.mp hm).elim hs hstar
    have hv' : ∀ value ∈ [line'], value.IsVisible := by
      intro value hm
      rw [List.mem_singleton.mp hm]
      exact hvisible
    obtain ⟨again,hagain,hencode',-,-⟩ := @mergedLine_of_not_star policy [line'] hv' hs'
    rw [mergedNames_of_merged hlisted,hencode] at hencode'
    rw [hagain,Option.some.inj hencode']

section Footprints
open SoapAxum.Semantics.Mutation

lemma within_writeHeader (d : DeclaredHeader) : Within [d.name] (writeHeader d) := by
  apply ((within_ofExcept _).mono (List.nil_subset _)).bind
  exact within_insert d.name

lemma idempotent_writeHeader (d : DeclaredHeader) : Idempotent (writeHeader d) := by
  apply (idempotent_ofExcept _).bind (idempotent_insert d.name) (within_ofExcept _)
    (within_insert d.name)
  exact List.disjoint_nil_left _

lemma within_writeHeaders (ds : List DeclaredHeader) :
    Within (ds.map DeclaredHeader.name) (writeHeaders ds) := by
  induction ds with
  | nil => exact within_pure ()
  | cons d ds ih =>
    apply ((within_writeHeader d).mono (by simp)).bind
    intro _
    exact ih.mono (List.subset_cons_self _ _)

theorem idempotent_writeHeaders {ds : List DeclaredHeader}
    (h : (ds.map DeclaredHeader.name).Nodup) : Idempotent (writeHeaders ds) := by
  induction ds with
  | nil => exact idempotent_pure ()
  | cons d ds ih =>
    obtain ⟨hd,h⟩ := List.nodup_cons.mp h
    apply (idempotent_writeHeader d).bind (fun _ => ih h) (within_writeHeader d)
      fun _ => within_writeHeaders ds
    exact List.singleton_disjoint.mpr hd

lemma within_mergeVary (policy : ResponseCachePolicy) : Within [.vary] (mergeVary policy) := by
  by_cases h : policy.vary = []
  · rw [mergeVary,if_pos (by simp [h])]
    exact (within_pure ()).mono (List.nil_subset _)
  · rw [mergeVary_eq h]
    exact within_replace _ _

lemma idempotent_mergeVary {policy : ResponseCachePolicy} (h : ['*'] ∉ declaredNames policy) :
    Idempotent (mergeVary policy) := by
  by_cases hne : policy.vary = []
  · rw [mergeVary,if_pos (by simp [hne])]
    exact idempotent_pure ()
  · rw [mergeVary_eq hne]
    exact idempotent_replace fun _ _ => mergedLine_of_merged h

/-- What is left to do once a cache policy has passed its checks. -/
def cacheStep (policy : ResponseCachePolicy) (value : HeaderValue) :
    Mutation SoapError HeaderMap Unit := do
  .modify (·.insert .cacheControl value)
  mergeVary policy

lemma within_cacheStep (policy : ResponseCachePolicy) (value : HeaderValue) :
    Within [.cacheControl,.vary] (cacheStep policy value) := by
  apply ((within_insert HeaderName.cacheControl value).mono (by simp)).bind
  intro _
  exact (within_mergeVary policy).mono (by simp)

lemma idempotent_cacheStep {policy : ResponseCachePolicy} (h : ['*'] ∉ declaredNames policy)
    (value : HeaderValue) : Idempotent (cacheStep policy value) := by
  apply (idempotent_insert HeaderName.cacheControl value).bind (fun _ => idempotent_mergeVary h)
    (within_insert _ _) fun _ => within_mergeVary policy
  exact List.singleton_disjoint.mpr (by decide)

section
variable [Platform]

lemma within_applySecurityHeaders (policy : SecurityHeadersPolicy) :
    Within ((declaredHeaders policy).map DeclaredHeader.name) (applySecurityHeaders policy) := by
  rw [applySecurityHeaders_eq]
  apply ((within_ofExcept _).mono (List.nil_subset _)).bind
  intro _
  exact within_writeHeaders _

lemma idempotent_applySecurityHeaders (policy : SecurityHeadersPolicy) :
    Idempotent (applySecurityHeaders policy) := by
  rw [applySecurityHeaders_eq]
  apply (idempotent_ofExcept _).bind
    (fun _ => idempotent_writeHeaders (declaredHeaders_nodup policy)) (within_ofExcept _)
    fun _ => within_writeHeaders _
  exact List.disjoint_nil_left _

/-- The checks of a cache policy, and the value of its `Cache-Control` header. -/
def cacheValue (policy : ResponseCachePolicy) : SoapResult HeaderValue := do
  policy.validate
  let text ← cacheControlText policy
  headerValue "response cache policy" text

theorem applyCacheHeaders_eq_bind (policy : ResponseCachePolicy) :
    applyCacheHeaders policy = Mutation.ofExcept (cacheValue policy) >>= cacheStep policy := by
  apply Mutation.ext
  intro headers
  unfold applyCacheHeaders cacheValue
  cases policy.validate with
  | error error => rfl
  | ok _ =>
    cases cacheControlText policy with
    | error error => rfl
    | ok text => rfl

lemma within_applyCacheHeaders (policy : ResponseCachePolicy) :
    Within [.cacheControl,.vary] (applyCacheHeaders policy) := by
  rw [applyCacheHeaders_eq_bind]
  apply ((within_ofExcept _).mono (List.nil_subset _)).bind
  exact within_cacheStep policy

lemma idempotent_applyCacheHeaders {policy : ResponseCachePolicy}
    (h : ['*'] ∉ declaredNames policy) : Idempotent (applyCacheHeaders policy) := by
  rw [applyCacheHeaders_eq_bind]
  apply (idempotent_ofExcept _).bind (idempotent_cacheStep h) (within_ofExcept _)
    (within_cacheStep policy)
  exact List.disjoint_nil_left _

/-- Applied to their own result, the policies of an endpoint change nothing and fail as before. -/
theorem idempotent_applyResponsePolicies {endpoint : EndpointMetadata}
    (h : ∀ policy, endpoint.responseCache = some policy → ['*'] ∉ declaredNames policy) :
    Idempotent (applyResponsePolicies endpoint) := by
  have hsecurity : Within [.xContentTypeOptions,.xFrameOptions,.referrerPolicy,
      .contentSecurityPolicy,.strictTransportSecurity]
      (ifSome endpoint.securityHeaders applySecurityHeaders) := by
    apply within_ifSome
    intro policy _
    exact (within_applySecurityHeaders policy).mono (declaredHeaders_names_subset policy)
  have hcache : Within [.cacheControl,.vary] (ifSome endpoint.responseCache applyCacheHeaders) := by
    apply within_ifSome
    intro policy _
    exact within_applyCacheHeaders policy
  unfold applyResponsePolicies
  apply (idempotent_ifSome fun policy _ => idempotent_applySecurityHeaders policy).bind
    (fun _ => idempotent_ifSome fun policy hp => idempotent_applyCacheHeaders (h policy hp))
    hsecurity fun _ => hcache
  intro name hs hc
  simp only [List.mem_cons,List.not_mem_nil,or_false] at hs hc
  rcases hc with rfl | rfl
  · exact absurd hs (by decide)
  · exact absurd hs (by decide)

end
end Footprints

/-- What the merged line has to be for the names that were listed and those that are declared. -/
structure IsVaryUnion (listed declared : List Str) (line : HeaderValue) : Prop where
  star : ['*'] ∈ listed → line = starLine
  text : ['*'] ∉ listed → latin1 line.bytes = ", ".toList.intercalate (varyNames (latin1 line.bytes))
  names : ['*'] ∉ listed → varyNames (latin1 line.bytes) =
    listed.eraseDupsBy eqIgnoreAsciiCase ++
      (declared.filter fun name => !listed.any (eqIgnoreAsciiCase name)).eraseDupsBy eqIgnoreAsciiCase
  distinct : (varyNames (latin1 line.bytes)).Pairwise fun x y => eqIgnoreAsciiCase x y = false
  complete : ['*'] ∉ listed → ∀ name ∈ listed ++ declared,
    ∃ x ∈ varyNames (latin1 line.bytes), eqIgnoreAsciiCase x name = true

lemma eqIgnoreAsciiCase_comm (s t : Str) : eqIgnoreAsciiCase s t = eqIgnoreAsciiCase t s := by
  rw [Bool.eq_iff_iff,eqIgnoreAsciiCase_iff,eqIgnoreAsciiCase_iff]
  exact eq_comm

theorem mergedNames_eq (policy : ResponseCachePolicy) (lines : List HeaderValue) :
    mergedNames policy lines = (listedNames lines).eraseDupsBy eqIgnoreAsciiCase ++
      ((declaredNames policy).filter fun name =>
        !(listedNames lines).any (eqIgnoreAsciiCase name)).eraseDupsBy eqIgnoreAsciiCase := by
  have hswap : (fun c x => eqIgnoreAsciiCase x c) = eqIgnoreAsciiCase := by
    funext c x
    exact eqIgnoreAsciiCase_comm x c
  unfold mergedNames
  rw [pushAll_append,pushAll_eq (pushAll eqIgnoreAsciiCase [] (listedNames lines)),hswap,
    pushAll_nil_eq,hswap]
  congr 2
  apply List.filter_congr
  intro name _
  have hany := @exists_mem_pushAll_iff _ eqIgnoreAsciiCase eqIgnoreAsciiCase_refl
    eqIgnoreAsciiCase_trans [] (listedNames lines) name
  rw [pushAll_nil_eq,hswap,List.nil_append,← List.any_eq_true,← List.any_eq_true,
    ← Bool.eq_iff_iff] at hany
  have hname : (fun x => eqIgnoreAsciiCase x name) = eqIgnoreAsciiCase name := by
    funext x
    exact eqIgnoreAsciiCase_comm x name
  rw [hany,hname]

theorem mergedLine_isVaryUnion {policy : ResponseCachePolicy} {lines : List HeaderValue}
    (h : ∀ value ∈ lines, value.IsVisible) :
    ∃ line, mergedLine policy lines = .ok line ∧
      IsVaryUnion (listedNames lines) (declaredNames policy) line := by
  by_cases hs : ['*'] ∈ listedNames lines
  · refine ⟨starLine,mergedLine_of_star h hs,?_⟩
    have hsingle : varyNames (latin1 starLine.bytes) = [['*']] := by decide
    constructor
    · exact fun _ => rfl
    · exact fun hn => absurd hs hn
    · exact fun hn => absurd hs hn
    · rw [hsingle]
      exact List.pairwise_singleton _ _
    · exact fun hn => absurd hs hn
  · obtain ⟨line,hline,-,-,htext⟩ := @mergedLine_of_not_star policy lines h hs
    have hnames : varyNames (latin1 line.bytes) = mergedNames policy lines := by
      rw [htext,varyNames_intercalate (varyName_of_mem_mergedNames h)]
    refine ⟨line,hline,?_⟩
    constructor
    · exact fun hstar => absurd hstar hs
    · intro _
      rw [hnames,htext]
    · intro _
      rw [hnames,mergedNames_eq]
    · rw [hnames]
      exact pairwise_mergedNames policy lines
    · intro _ name hn
      rw [hnames]
      exact exists_mem_mergedNames hn

theorem exists_cacheControlText {policy : ResponseCachePolicy}
    (h : policy.visibility = .noStore ∨ policy.maxAge.isSome) :
    ∃ text, cacheControlText policy = .ok text := by
  unfold cacheControlText
  cases hm : policy.maxAge with
  | some maxAge => cases policy.visibility <;> exact ⟨_,rfl⟩
  | none =>
    have hv : policy.visibility = .noStore := by
      apply h.resolve_right
      simp [hm]
    rw [hv]
    exact ⟨_,rfl⟩

/-- A valid cache policy leaves one `Vary` line, the union of what was listed and what it declares,
and touches no other header than that and `Cache-Control`. Applying the policies of an endpoint to
their own result changes nothing. -/
theorem vary_merge_is_idempotent_union [Platform] {policy : ResponseCachePolicy} {headers : HeaderMap}
    (hp : policy.validate = .ok ()) (hl : policy.visibility = .noStore ∨ policy.maxAge.isSome)
    (hne : policy.vary ≠ []) (hv : ∀ value ∈ headers.getAll .vary, value.IsVisible) :
    (∃ out line, (applyCacheHeaders policy).run headers = (.ok (),out) ∧
        out.getAll .vary = [line] ∧
        IsVaryUnion (listedNames (headers.getAll .vary)) (declaredNames policy) line ∧
        ∀ name, name ≠ .vary → name ≠ .cacheControl → out.getAll name = headers.getAll name) ∧
      ∀ endpoint : EndpointMetadata,
        (∀ policy, endpoint.responseCache = some policy → ['*'] ∉ declaredNames policy) →
        (applyResponsePolicies endpoint).Idempotent := by
  constructor
  · obtain ⟨text,ht⟩ := exists_cacheControlText hl
    obtain ⟨value,hs,-,-⟩ := HeaderValue.fromStr_visible (visibleText_cacheControlText ht)
    obtain ⟨line,hline,hunion⟩ := @mergedLine_isVaryUnion policy (headers.getAll .vary) hv
    have hlines : (headers.insert .cacheControl value).getAll .vary = headers.getAll .vary :=
      Multimap.getAll_insert_of_ne _ _ (by decide)
    refine ⟨(headers.insert .cacheControl value).insert .vary line,line,?_,
      Multimap.getAll_insert_self _ _ _,hunion,?_⟩
    · rw [applyCacheHeaders_eq headers hp ht hs,mergeVary_eq hne]
      apply Mutation.replace_run_ok
      rw [hlines,hline]
    · intro name hvary hcontrol
      rw [Multimap.getAll_insert_of_ne _ _ hvary,Multimap.getAll_insert_of_ne _ _ hcontrol]
  · intro endpoint
    exact idempotent_applyResponsePolicies

section
local instance varyMergePlatform : Platform := referencePlatform

/-- Responses that any cache may keep for a minute, one for each encoding and language. -/
def articleCachePolicy : ResponseCachePolicy where
  visibility := .public
  maxAge := some ⟨60,0⟩
  vary := [⟨"accept-encoding".toList,by decide⟩,⟨"accept-language".toList,by decide⟩]

def articleVaryHeaders : HeaderMap :=
  Multimap.empty.appendAll .vary [.fromStatic "Origin, Accept-Encoding" (by decide),
    .fromStatic "origin,, Cookie" (by decide)]

theorem vary_merge_is_idempotent_union_article :
    ∃ out line, (applyCacheHeaders articleCachePolicy).run articleVaryHeaders = (.ok (),out) ∧
      out.getAll .vary = [line] ∧
      IsVaryUnion (listedNames (articleVaryHeaders.getAll .vary)) (declaredNames articleCachePolicy)
        line ∧
      ∀ name, name ≠ .vary → name ≠ .cacheControl → out.getAll name = articleVaryHeaders.getAll name :=
  (vary_merge_is_idempotent_union rfl (Or.inr rfl) (by decide) (by decide)).1

end
end SoapAxum.Policy
