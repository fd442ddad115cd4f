import SoapAxum.Policy.Translation

/-! When the `Vary` list of a cache policy can be merged into the lines a response already has. -/
namespace SoapAxum.Policy
open SoapAxum.Http SoapAxum.Text SoapAxum.Data SoapAxum.Semantics

/-- Every line up to the first that lists `*` is visible text. -/
def varyReadable : List HeaderValue → Bool
  | [] => true
  | value :: lines => match value.toStr with
    | none => false
    | some line => (varyNames line).contains ['*'] || varyReadable lines

lemma visibleText_of_mem_varyNames {line name : Str} (h : VisibleText line)
    (hn : name ∈ varyNames line) : VisibleText name := by
  obtain ⟨piece,hp,rfl⟩ := List.mem_map.mp (List.mem_of_mem_filter hn)
  exact fun c hc => h c (mem_of_mem_splitOn hp (trimWith_subset _ _ hc))

theorem visibleText_of_mem_pushUnique {values : List Str} {candidate : Str}
    (hv : ∀ v ∈ values, VisibleText v) (hc : VisibleText candidate) :
    ∀ v ∈ pushUnique values candidate, VisibleText v := by
  intro v hm
  rw [pushUnique] at hm
  split_ifs at hm
  · exact hv v hm
  · rcases List.mem_append.mp hm with hm | hm
    · exact hv v hm
    · rwa [List.mem_singleton.mp hm]

theorem collectNames_eq_none {names values : List Str} :
    collectNames names values = none ↔ ['*'] ∈ names := by
  induction names generalizing values with
  | nil => simp [collectNames]
  | cons name names ih =>
    rw [collectNames]
    split_ifs with h
    · simp [h]
    · rw [ih]
      simp [Ne.symm h]

theorem visibleText_of_collectNames {names values out : List Str}
    (h : collectNames names values = some out) (hn : ∀ n ∈ names, VisibleText n)
    (hv : ∀ v ∈ values, VisibleText v) : ∀ v ∈ out, VisibleText v := by
  induction names generalizing values with
  | nil =>
    obtain rfl := Option.some.inj h
    exact hv
  | cons name names ih =>
    rw [collectNames] at h
    split_ifs at h
    exact ih h (fun n hm => hn n (by simp [hm]))
      (visibleText_of_mem_pushUnique hv (hn name (by simp)))

/-- Collecting fails exactly on a line that cannot be read before any that lists `*`. -/
theorem collectVary_of_not_readable {lines : List HeaderValue} {values : List Str}
    (h : varyReadable lines = false) : collectVary lines values = .error invalidVary := by
  induction lines generalizing values with
  | nil => simp [varyReadable] at h
  | cons value lines ih =>
    rw [varyReadable] at h
    rw [collectVary]
    cases hs : value.toStr with
    | none => rfl
    | some line =>
      rw [hs] at h
      simp only [Bool.or_eq_false_iff] at h
      cases hc : collectNames (varyNames line) values with
      | none =>
        have := collectNames_eq_none.mp hc
        simp [this] at h
      | some out => simp only [hc,ih h.2]

theorem collectVary_of_readable {lines : List HeaderValue} {values : List Str}
    (h : varyReadable lines = true) (hv : ∀ v ∈ values, VisibleText v) :
    ∃ out, collectVary lines values = .ok out ∧ ∀ names ∈ out, ∀ v ∈ names, VisibleText v := by
  induction lines generalizing values with
  | nil => exact ⟨some values,rfl,by simpa using hv⟩
  | cons value lines ih =>
    rw [varyReadable] at h
    rw [collectVary]
    cases hs : value.toStr with
    | none => simp [hs] at h
    | some line =>
      rw [hs] at h
      cases hc : collectNames (varyNames line) values with
      | none => exact ⟨none,by simp only [hc],by simp⟩
      | some out =>
        have hn : ['*'] ∉ varyNames line := by
          intro hm
          rw [collectNames_eq_none.mpr hm] at hc
          contradiction
        simp only [List.contains_eq_mem,hn,decide_false,Bool.false_or] at h
        simp only [hc]
        exact ih h (visibleText_of_collectNames hc
          (fun n hm => visibleText_of_mem_varyNames (HeaderValue.visibleText_of_toStr hs) hm) hv)

theorem isVisibleChar_of_isHeaderNameChar {c : Char} (h : isHeaderNameChar c = true) :
    isVisibleChar c = true := by
  have hlt : c.toNat < 128 := by
    simp only [isHeaderNameChar,isAsciiDigit,Bool.or_eq_true,Bool.and_eq_true,decide_eq_true_eq,
      List.contains_eq_mem] at h
    rcases h with (h | h) | h
    · omega
    · omega
    · simp only [List.mem_cons,List.not_mem_nil,or_false] at h
      rcases h with rfl | rfl | rfl | rfl | rfl | rfl | rfl | rfl | rfl | rfl | rfl | rfl | rfl |
        rfl | rfl <;> decide
  exact forall_ascii (P := fun c => isHeaderNameChar c = true → isVisibleChar c = true)
    (by decide) c hlt h

lemma visibleText_headerName (name : HeaderName) : VisibleText name.text := by
  have h := name.valid
  simp only [Bool.and_eq_true,List.all_eq_true] at h
  exact fun c hc => isVisibleChar_of_isHeaderNameChar (h.2 c hc)

lemma visibleText_foldl_pushUnique {names : List HeaderName} {values : List Str}
    (hv : ∀ v ∈ values, VisibleText v) :
    ∀ v ∈ names.foldl (fun values name => pushUnique values name.text) values, VisibleText v := by
  induction names generalizing values with
  | nil => exact hv
  | cons name names ih =>
    exact ih (visibleText_of_mem_pushUnique hv (visibleText_headerName name))

/-- Readable lines are merged into one line, and only `Vary` changes. -/
theorem mergeVary_run_of_readable {policy : ResponseCachePolicy} {headers : HeaderMap}
    (hne : policy.vary ≠ []) (h : varyReadable (headers.getAll .vary) = true) :
    ∃ value, (mergeVary policy).run headers = (.ok (),headers.insert .vary value) := by
  rw [mergeVary,if_neg (by simpa using hne)]
  obtain ⟨out,hc,hv⟩ := collectVary_of_readable h (fun v (hv : v ∈ []) => (List.not_mem_nil hv).elim)
  cases out with
  | none => exact ⟨.fromStatic "*" (by decide),by rw [Mutation.run_bind_of_ok (Mutation.run_get _),hc]; rfl⟩
  | some names =>
    have hall : VisibleText (", ".toList.intercalate
        (policy.vary.foldl (fun values name => pushUnique values name.text) names)) :=
      forall_mem_intercalate (List.all_eq_true.mp (by decide))
        (visibleText_foldl_pushUnique (hv names rfl))
    obtain ⟨value,hs,-,-⟩ := HeaderValue.fromStr_visible hall
    refine ⟨value,?_⟩
    rw [Mutation.run_bind_of_ok (Mutation.run_get _),hc]
    change Mutation.run (Mutation.ofExcept (headerValue _ _) >>= _) headers = _
    rw [headerValue_eq_ok.mpr hs]
    rfl

lemma mergeVary_run_of_not_readable {policy : ResponseCachePolicy} {headers : HeaderMap}
    (hne : policy.vary ≠ []) (h : varyReadable (headers.getAll .vary) = false) :
    (mergeVary policy).run headers = (.error invalidVary,headers) := by
  rw [mergeVary,if_neg (by simpa using hne),Mutation.run_bind_of_ok (Mutation.run_get _),
    collectVary_of_not_readable h]
  rfl

end SoapAxum.Policy
