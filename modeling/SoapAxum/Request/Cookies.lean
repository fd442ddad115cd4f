import SoapAxum.Data.BTreeMap
import SoapAxum.Http.Contract
import SoapAxum.Semantics.Fallible

/-! Request cookies: the parser of the `Cookie` header lines, and the grammar it accepts. -/
namespace SoapAxum.Request
open SoapAxum.Http SoapAxum.Text SoapAxum.Data SoapAxum.Semantics

def stripPrefix (c : Char) (s : Str) : Option Str := if s.head? = some c then some s.tail else none
def stripSuffix (c : Char) (s : Str) : Option Str :=
  if s.getLast? = some c then some s.dropLast else none

def cookieOctet (byte : UInt8) : Bool :=
  byte == 0x21 || (0x23 ≤ byte && byte ≤ 0x2b) || (0x2d ≤ byte && byte ≤ 0x3a) ||
    (0x3c ≤ byte && byte ≤ 0x5b) || (0x5d ≤ byte && byte ≤ 0x7e)

def validCookieValue (value : Str) : Option Str := do
  let value ← if value.head? = some '"' ∨ value.getLast? = some '"' then
      (stripPrefix '"' value).bind (stripSuffix '"')
    else some value
  if (utf8 value).all cookieOctet then some value else none

def isTokenChar (c : Char) : Bool :=
  isAsciiAlphanumeric c ||
    ['!','#','$','%','&','\'','*','+','-','.','^','_','\x60','|','~'].contains c

def validCookieName (name : Str) : Bool := !name.isEmpty && name.all isTokenChar

/-- One pass of the loop over the pieces of a line. -/
def insertCookie (cookies : BTreeMap Str Str) (pair : Str) : SoapResult (BTreeMap Str Str) :=
  let pair := trim pair
  if pair.isEmpty then .ok cookies else match splitOnce '=' pair with
  | none => .error (HttpRejection.badRequest "malformed Cookie header").intoError
  | some (name,value) =>
    let name := trim name
    match validCookieValue (trim value) with
    | none => .error (HttpRejection.badRequest "invalid cookie name or value").intoError
    | some value =>
      if !validCookieName name then
        .error (HttpRejection.badRequest "invalid cookie name or value").intoError
      else if cookies.contains name then
        .error (HttpRejection.badRequest
          ("duplicate request cookie `" ++ String.ofList name ++ "`")).intoError
      else .ok (cookies.insert name value)

/-- One pass of the loop over the header lines. -/
def insertCookieLine (cookies : BTreeMap Str Str) (header : HeaderValue) :
    SoapResult (BTreeMap Str Str) :=
  match header.toStr with
  | none => .error ((HttpRejection.badRequest "Cookie header is not valid visible text").withSource
      [.technical "failed to convert header to a str"]).intoError
  | some header => (header.splitOn ';').foldlM insertCookie cookies

def parseCookies (headers : HeaderMap) : SoapResult (BTreeMap Str Str) :=
  (headers.getAll .cookie).foldlM insertCookieLine ∅

/-- A visible character other than the double quote, the comma, the semicolon and the backslash. -/
def IsCookieOctet (c : Char) : Prop := 33 ≤ c.toNat ∧ c.toNat < 127 ∧ c ∉ ['"',',',';','\\']

instance (c : Char) : Decidable (IsCookieOctet c) := inferInstanceAs (Decidable (_ ∧ _ ∧ _))

/-- The text before the first `=` is the name, the text after it the value, which may be quoted. -/
structure IsCookiePair (piece name value : Str) : Prop where
  split : ∃ left right, '=' ∉ left ∧ piece = left ++ '=' :: right ∧ name = trim left ∧
    (trim right = value ∨ trim right = '"' :: value ++ ['"'])
  token : IsToken name
  octets : ∀ c ∈ value, IsCookieOctet c

/-- The text between semicolons, over all lines. -/
def rawPieces (values : List HeaderValue) : List Str :=
  values.flatMap fun value => (latin1 value.bytes).splitOn ';'

def cookiePieces (pieces : List Str) : List Str := (pieces.map trim).filter fun piece => !piece.isEmpty

/-- The lines are visible text and their pieces are the given cookies, with distinct names. -/
structure CookiePairs (values : List HeaderValue) (pairs : List (Str × Str)) : Prop where
  visible : ∀ value ∈ values, VisibleText (latin1 value.bytes)
  pieces : List.Forall₂ (fun piece pair => IsCookiePair piece pair.1 pair.2)
    (cookiePieces (rawPieces values)) pairs
  nodup : (pairs.map Prod.fst).Nodup

lemma isTokenChar_iff {c : Char} (h : c.toNat < 128) : isTokenChar c = true ↔ IsTchar c :=
  forall_ascii (P := fun c => isTokenChar c = true ↔ IsTchar c) (by decide) c h

lemma cookieOctet_iff {c : Char} (h : c.toNat < 128) :
    cookieOctet (UInt8.ofNat c.toNat) = true ↔ IsCookieOctet c :=
  forall_ascii (P := fun c => cookieOctet (UInt8.ofNat c.toNat) = true ↔ IsCookieOctet c)
    (by decide) c h

lemma validCookieName_iff {name : Str} (h : ∀ c ∈ name, c.toNat < 128) :
    validCookieName name = true ↔ IsToken name := by
  rw [validCookieName,Bool.and_eq_true,List.all_eq_true]
  exact and_congr (by simp) (forall₂_congr fun c hc => isTokenChar_iff (h c hc))

lemma all_cookieOctet_iff {value : Str} (h : ∀ c ∈ value, c.toNat < 128) :
    (utf8 value).all cookieOctet = true ↔ ∀ c ∈ value, IsCookieOctet c := by
  rw [utf8_eq_map h,List.all_map,List.all_eq_true]
  exact forall₂_congr fun c hc => cookieOctet_iff (h c hc)

lemma stripPrefix_eq_some {c : Char} {s t : Str} : stripPrefix c s = some t ↔ s = c :: t := by
  rw [stripPrefix]
  cases s with
  | nil => simp
  | cons d s => simp

lemma stripSuffix_eq_some {c : Char} {s t : Str} : stripSuffix c s = some t ↔ s = t ++ [c] := by
  rw [stripSuffix]
  cases s using List.reverseRecOn with
  | nil => simp
  | append_singleton s d => simp [and_comm]

lemma isCookieOctet_ne_quote {c : Char} (h : IsCookieOctet c) : c ≠ '"' := fun hc =>
  h.2.2 (by simp [hc])

/-- The accepted values are octets, either bare or between one pair of double quotes. -/
theorem validCookieValue_eq_some {text value : Str} (h : ∀ c ∈ text, c.toNat < 128) :
    validCookieValue text = some value ↔
      (∀ c ∈ value, IsCookieOctet c) ∧ (text = value ∨ text = '"' :: value ++ ['"']) := by
  have hstrip : ∀ inner, (stripPrefix '"' text).bind (stripSuffix '"') = some inner ↔
      text = '"' :: inner ++ ['"'] := by
    intro inner
    simp [Option.bind_eq_some_iff,stripPrefix_eq_some,stripSuffix_eq_some]
  rw [validCookieValue]
  by_cases hq : text.head? = some '"' ∨ text.getLast? = some '"'
  · rw [if_pos hq]
    constructor
    · intro hv
      obtain ⟨inner,hi,hv⟩ := Option.bind_eq_some_iff.mp hv
      have ht := (hstrip inner).mp hi
      change (if (utf8 inner).all cookieOctet = true then some inner else none) = some value at hv
      split_ifs at hv with ho
      obtain rfl := Option.some.inj hv
      exact ⟨(all_cookieOctet_iff fun c hc => h c (by simp [ht,hc])).mp ho,Or.inr ht⟩
    · rintro ⟨ho,rfl | ht⟩
      · exfalso
        rcases hq with hq | hq
        · exact isCookieOctet_ne_quote (ho _ (List.mem_of_mem_head? hq)) rfl
        · exact isCookieOctet_ne_quote (ho _ (List.mem_of_mem_getLast? hq)) rfl
      · refine Option.bind_eq_some_iff.mpr ⟨value,(hstrip value).mpr ht,?_⟩
        exact if_pos ((all_cookieOctet_iff fun c hc => h c (by simp [ht,hc])).mpr ho)
  · rw [if_neg hq]
    change (if (utf8 text).all cookieOctet = true then some text else none) = some value ↔ _
    constructor
    · intro hv
      split_ifs at hv with ho
      obtain rfl := Option.some.inj hv
      exact ⟨(all_cookieOctet_iff h).mp ho,Or.inl rfl⟩
    · rintro ⟨ho,rfl | rfl⟩
      · exact if_pos ((all_cookieOctet_iff h).mpr ho)
      · exact absurd (Or.inl rfl) hq

lemma ascii_trim {s : Str} (h : ∀ c ∈ s, c.toNat < 128) : ∀ c ∈ trim s, c.toNat < 128 :=
  fun c hc => h c (trimWith_subset _ _ hc)

/-- A piece names its cookie and its value uniquely. -/
theorem IsCookiePair.unique {piece name name' value value' : Str}
    (h : IsCookiePair piece name value) (h' : IsCookiePair piece name' value') :
    name = name' ∧ value = value' := by
  obtain ⟨left,right,hl,hp,hn,hv⟩ := h.split
  obtain ⟨left',right',hl',hp',hn',hv'⟩ := h'.split
  have hs := (splitOnce_eq_some.mpr ⟨hl,hp⟩).symm.trans (splitOnce_eq_some.mpr ⟨hl',hp'⟩)
  obtain ⟨rfl,rfl⟩ := Prod.mk.inj (Option.some.inj hs)
  refine ⟨hn.trans hn'.symm,?_⟩
  have hquoted : ∀ {v w : Str}, (∀ c ∈ v, IsCookieOctet c) → v ≠ '"' :: w ++ ['"'] := by
    rintro v w ho rfl
    exact isCookieOctet_ne_quote (ho '"' (by simp)) rfl
  rcases hv with hv | hv <;> rcases hv' with hv' | hv' <;> rw [hv] at hv'
  · exact hv'
  · exact absurd hv' (hquoted h.octets)
  · exact absurd hv'.symm (hquoted h'.octets)
  · simpa using hv'

lemma IsCookiePair.ne_nil {piece name value : Str} (h : IsCookiePair piece name value) :
    piece ≠ [] := by
  obtain ⟨left,right,-,rfl,-⟩ := h.split
  simp

/-- The parser's own reading of a piece at its first `=`. -/
theorem isCookiePair_iff {piece left right name value : Str} (h : ∀ c ∈ piece, c.toNat < 128)
    (hs : splitOnce '=' piece = some (left,right)) :
    IsCookiePair piece name value ↔ name = trim left ∧ validCookieName (trim left) = true ∧
      validCookieValue (trim right) = some value := by
  obtain ⟨hl,hp⟩ := splitOnce_eq_some.mp hs
  have hal : ∀ c ∈ trim left, c.toNat < 128 := ascii_trim fun c hc => h c (by simp [hp,hc])
  have har : ∀ c ∈ trim right, c.toNat < 128 := ascii_trim fun c hc => h c (by simp [hp,hc])
  rw [validCookieName_iff hal,validCookieValue_eq_some har]
  constructor
  · intro hc
    obtain ⟨left',right',hl',hp',hn,hv⟩ := hc.split
    obtain ⟨rfl,rfl⟩ := Prod.mk.inj (Option.some.inj
      (hs.symm.trans (splitOnce_eq_some.mpr ⟨hl',hp'⟩)))
    exact ⟨hn,hn ▸ hc.token,hc.octets,hv⟩
  · rintro ⟨rfl,ht,ho,hv⟩
    exact ⟨⟨left,right,hl,hp,rfl,hv⟩,ht,ho⟩

lemma not_isCookiePair {piece name value : Str} (hs : splitOnce '=' piece = none) :
    ¬ IsCookiePair piece name value := by
  intro h
  obtain ⟨left,right,-,rfl,-⟩ := h.split
  exact splitOnce_eq_none.mp hs (by simp)

/-- A piece is skipped when it is blank, and otherwise it must be a pair with a new name. -/
theorem insertCookie_eq_ok {cookies out : BTreeMap Str Str} {raw : Str}
    (h : ∀ c ∈ raw, c.toNat < 128) :
    insertCookie cookies raw = .ok out ↔ (trim raw = [] ∧ out = cookies) ∨
      ∃ name value, IsCookiePair (trim raw) name value ∧ name ∉ cookies ∧
        out = cookies.insert name value := by
  rw [insertCookie]
  by_cases hnil : trim raw = []
  · simp only [hnil,List.isEmpty_nil,if_true,true_and]
    constructor
    · intro ho
      exact Or.inl (Except.ok.inj ho).symm
    · rintro (rfl | ⟨name,value,hp,-⟩)
      · rfl
      · exact absurd rfl hp.ne_nil
  · rw [if_neg (by simpa using hnil)]
    simp only [hnil,false_and,false_or]
    cases hs : splitOnce '=' (trim raw) with
    | none => simp [not_isCookiePair hs]
    | some pair =>
      obtain ⟨left,right⟩ := pair
      simp only [isCookiePair_iff (ascii_trim h) hs]
      cases hv : validCookieValue (trim right) with
      | none => simp
      | some value =>
        by_cases hn : validCookieName (trim left) = true
        · by_cases hc : trim left ∈ cookies
          · simp [hn,hc]
          · simp only [hn,Bool.not_true,Bool.false_eq_true,if_false,Std.ExtTreeMap.contains_iff_mem,
              hc,Except.ok.injEq]
            constructor
            · rintro rfl
              exact ⟨_,_,⟨rfl,trivial,rfl⟩,hc,rfl⟩
            · rintro ⟨_,_,⟨rfl,-,⟨⟩⟩,-,rfl⟩
              rfl
        · simp [hn]

theorem insertCookie_error {cookies : BTreeMap Str Str} {raw : Str} {error : SoapError}
    (h : insertCookie cookies raw = .error error) : error.IsBadRequest := by
  rw [insertCookie] at h
  split at h
  · contradiction
  · split at h
    · exact Except.error.inj h ▸ isBadRequest_intoError _
    · dsimp only at h
      split at h
      · exact Except.error.inj h ▸ isBadRequest_intoError _
      · split_ifs at h
        · exact Except.error.inj h ▸ isBadRequest_intoError _
        · exact Except.error.inj h ▸ isBadRequest_intoError _

/-- The loop over pieces reads all of them as pairs and adds them under new, distinct names. -/
theorem foldlM_insertCookie_eq_ok {cookies out : BTreeMap Str Str} {pieces : List Str}
    (h : ∀ piece ∈ pieces, ∀ c ∈ piece, c.toNat < 128) :
    pieces.foldlM insertCookie cookies = .ok out ↔ ∃ pairs,
      List.Forall₂ (fun piece pair => IsCookiePair piece pair.1 pair.2) (cookiePieces pieces) pairs ∧
      (pairs.map Prod.fst).Nodup ∧ (∀ name ∈ pairs.map Prod.fst, name ∉ cookies) ∧
      out = cookies.insertMany pairs := by
  induction pieces generalizing cookies with
  | nil =>
    simp only [List.foldlM_nil,cookiePieces,List.map_nil,List.filter_nil]
    constructor
    · intro ho
      exact ⟨[],.nil,by simp,by simp,(Except.ok.inj ho).symm⟩
    · rintro ⟨pairs,hf,-,-,rfl⟩
      cases hf
      rfl
  | cons raw pieces ih =>
    have ih := fun cookies => @ih cookies fun piece hm => h piece (by simp [hm])
    have hstep := fun mid => @insertCookie_eq_ok cookies mid raw (h raw (by simp))
    rw [List.foldlM_cons,Fallible.bind_eq_ok]
    by_cases hnil : trim raw = []
    · have hc : cookiePieces (raw :: pieces) = cookiePieces pieces := by simp [cookiePieces,hnil]
      rw [hc,← ih]
      constructor
      · rintro ⟨mid,hm,ho⟩
        rcases (hstep mid).mp hm with ⟨-,rfl⟩ | ⟨name,value,hp,-⟩
        · exact ho
        · exact absurd hnil hp.ne_nil
      · exact fun ho => ⟨cookies,(hstep _).mpr (Or.inl ⟨hnil,rfl⟩),ho⟩
    · have hc : cookiePieces (raw :: pieces) = trim raw :: cookiePieces pieces := by
        simp [cookiePieces,hnil]
      rw [hc]
      constructor
      · rintro ⟨mid,hm,ho⟩
        rcases (hstep mid).mp hm with ⟨ht,-⟩ | ⟨name,value,hp,hnew,rfl⟩
        · exact absurd ht hnil
        · obtain ⟨pairs,hf,hn,hd,rfl⟩ := (ih _).mp ho
          obtain ⟨hn,hd⟩ := BTreeMap.nodup_new_cons.mpr ⟨hnew,hn,hd⟩
          exact ⟨(name,value) :: pairs,.cons hp hf,hn,hd,Std.ExtTreeMap.insertMany_cons.symm⟩
      · rintro ⟨pairs,hf,hn,hd,rfl⟩
        obtain ⟨⟨name,value⟩,rest,hp,hrest,rfl⟩ := List.forall₂_cons_left_iff.mp hf
        obtain ⟨hnew,hn,hd⟩ := (BTreeMap.nodup_new_cons (v := value)).mp ⟨hn,hd⟩
        have hfirst : insertCookie cookies raw = .ok (cookies.insert name value) :=
          (hstep _).mpr (Or.inr ⟨name,value,hp,hnew,rfl⟩)
        exact ⟨_,hfirst,(ih _).mpr ⟨rest,hrest,hn,hd,Std.ExtTreeMap.insertMany_cons⟩⟩

theorem insertCookieLine_eq_ok {cookies out : BTreeMap Str Str} {value : HeaderValue} :
    insertCookieLine cookies value = .ok out ↔ VisibleText (latin1 value.bytes) ∧
      ((latin1 value.bytes).splitOn ';').foldlM insertCookie cookies = .ok out := by
  rw [insertCookieLine,← HeaderValue.isVisible_iff]
  cases hs : value.toStr with
  | none => simp [HeaderValue.toStr_eq_none.mp hs]
  | some line =>
    obtain ⟨hv,rfl⟩ := HeaderValue.toStr_eq_some.mp hs
    simp [hv]

lemma insertCookieLine_error {cookies : BTreeMap Str Str} {value : HeaderValue}
    {error : SoapError} (h : insertCookieLine cookies value = .error error) :
    error.IsBadRequest := by
  rw [insertCookieLine] at h
  split at h
  · exact Except.error.inj h ▸ isBadRequest_withSource _ _
  · exact Fallible.foldlM_error (fun _ _ _ => insertCookie_error) h

/-- The loop over lines is the loop over all pieces, if every line is visible text. -/
theorem foldlM_insertCookieLine_eq_ok {cookies out : BTreeMap Str Str} {values : List HeaderValue} :
    values.foldlM insertCookieLine cookies = .ok out ↔
      (∀ value ∈ values, VisibleText (latin1 value.bytes)) ∧
        (rawPieces values).foldlM insertCookie cookies = .ok out := by
  induction values generalizing cookies with
  | nil => simp [rawPieces]
  | cons value values ih =>
    rw [List.foldlM_cons,rawPieces,List.flatMap_cons,List.foldlM_append,Fallible.bind_eq_ok,
      Fallible.bind_eq_ok,List.forall_mem_cons]
    simp only [insertCookieLine_eq_ok,ih]
    constructor
    · rintro ⟨mid,⟨hv,hm⟩,hvs,ho⟩
      exact ⟨⟨hv,hvs⟩,mid,hm,ho⟩
    · rintro ⟨⟨hv,hvs⟩,mid,hm,ho⟩
      exact ⟨mid,⟨hv,hm⟩,hvs,ho⟩

lemma ascii_rawPieces {values : List HeaderValue}
    (h : ∀ value ∈ values, VisibleText (latin1 value.bytes)) :
    ∀ piece ∈ rawPieces values, ∀ c ∈ piece, c.toNat < 128 := by
  intro piece hp c hc
  obtain ⟨value,hv,hp⟩ := List.mem_flatMap.mp hp
  exact toNat_lt_of_isVisibleChar (h value hv c (mem_of_mem_splitOn hp hc))

/-- Parsing succeeds exactly on cookie pairs with distinct names, and loads them into the map. -/
theorem parseCookies_eq_ok {headers : HeaderMap} {out : BTreeMap Str Str} :
    parseCookies headers = .ok out ↔ ∃ pairs, CookiePairs (headers.getAll .cookie) pairs ∧
      out = (∅ : BTreeMap Str Str).insertMany pairs := by
  rw [parseCookies,foldlM_insertCookieLine_eq_ok]
  constructor
  · rintro ⟨hv,ho⟩
    obtain ⟨pairs,hf,hn,-,rfl⟩ := (foldlM_insertCookie_eq_ok (ascii_rawPieces hv)).mp ho
    exact ⟨pairs,⟨hv,hf,hn⟩,rfl⟩
  · rintro ⟨pairs,⟨hv,hf,hn⟩,rfl⟩
    exact ⟨hv,(foldlM_insertCookie_eq_ok (ascii_rawPieces hv)).mpr ⟨pairs,hf,hn,by simp,rfl⟩⟩

lemma parseCookies_error {headers : HeaderMap} {error : SoapError}
    (h : parseCookies headers = .error error) : error.IsBadRequest :=
  Fallible.foldlM_error (fun _ _ _ => insertCookieLine_error) h

lemma exists_parseCookies_error {headers : HeaderMap}
    (h : ¬ ∃ pairs, CookiePairs (headers.getAll .cookie) pairs) :
    ∃ error, parseCookies headers = .error error :=
  Fallible.exists_error_of_not_ok fun ⟨_,ho⟩ => h ((parseCookies_eq_ok.mp ho).imp fun _ h => h.1)

/-- The cookies of some lines are determined. -/
theorem CookiePairs.unique {values : List HeaderValue} {pairs pairs' : List (Str × Str)}
    (h : CookiePairs values pairs) (h' : CookiePairs values pairs') : pairs = pairs' := by
  have hu : ∀ {pieces : List Str} {ps qs : List (Str × Str)},
      List.Forall₂ (fun piece pair => IsCookiePair piece pair.1 pair.2) pieces ps →
      List.Forall₂ (fun piece pair => IsCookiePair piece pair.1 pair.2) pieces qs → ps = qs := by
    intro pieces ps qs hp
    induction hp generalizing qs with
    | nil => exact fun hq => by cases hq; rfl
    | cons hp _ ih =>
      intro hq
      obtain ⟨q,rest,hq',hr,rfl⟩ := List.forall₂_cons_left_iff.mp hq
      rw [ih hr,Prod.ext_iff.mpr (hp.unique hq')]
  exact hu h.pieces h'.pieces

theorem visible_iff_rawPieces {values : List HeaderValue} :
    (∀ value ∈ values, VisibleText (latin1 value.bytes)) ↔
      ∀ piece ∈ rawPieces values, VisibleText piece := by
  constructor
  · intro h piece hp c hc
    obtain ⟨value,hv,hp⟩ := List.mem_flatMap.mp hp
    exact h value hv c (mem_of_mem_splitOn hp hc)
  · intro h value hv
    have he : [';'].intercalate ((latin1 value.bytes).splitOn ';') = latin1 value.bytes :=
      List.intercalate_splitOn _
    rw [VisibleText,← he]
    exact forall_mem_intercalate (List.all_eq_true.mp (by decide)) fun piece hp => h piece
      (List.mem_flatMap.mpr ⟨value,hv,hp⟩)

/-- The same pieces in another order, on other lines, are the same cookies in another order. -/
theorem CookiePairs.perm {values values' : List HeaderValue} {pairs : List (Str × Str)}
    (h : CookiePairs values pairs) (hp : (rawPieces values).Perm (rawPieces values')) :
    ∃ pairs', CookiePairs values' pairs' ∧ pairs.Perm pairs' := by
  have hpieces : (cookiePieces (rawPieces values')).Perm (cookiePieces (rawPieces values)) :=
    ((hp.map trim).filter _).symm
  obtain ⟨pairs',hf,hperm⟩ := List.perm_comp_forall₂ hpieces h.pieces
  have hvisible : ∀ value ∈ values', VisibleText (latin1 value.bytes) := by
    rw [visible_iff_rawPieces]
    intro piece hm
    exact visible_iff_rawPieces.mp h.visible piece (hp.mem_iff.mpr hm)
  have hnodup : (pairs'.map Prod.fst).Nodup := (hperm.map Prod.fst).nodup_iff.mpr h.nodup
  exact ⟨pairs',⟨hvisible,hf,hnodup⟩,hperm.symm⟩

lemma parseCookies_of_perm {headers headers' : HeaderMap} {out : BTreeMap Str Str}
    (hp : (rawPieces (headers.getAll .cookie)).Perm (rawPieces (headers'.getAll .cookie)))
    (h : parseCookies headers = .ok out) : parseCookies headers' = .ok out := by
  obtain ⟨pairs,hc,rfl⟩ := parseCookies_eq_ok.mp h
  obtain ⟨pairs',hc',hperm⟩ := hc.perm hp
  exact parseCookies_eq_ok.mpr ⟨pairs',hc',BTreeMap.insertMany_perm hperm hc.nodup⟩

/-- The parser accepts exactly the cookie pairs of the grammar with distinct names, returns exactly
these, rejects everything else as a bad request, and does not depend on the order of the pieces or
on the lines they are on. -/
theorem parse_cookies_accepts_grammar (headers : HeaderMap) :
    ((∃ cookies, parseCookies headers = .ok cookies) ↔
      ∃ pairs, CookiePairs (headers.getAll .cookie) pairs) ∧
    (∀ cookies pairs, parseCookies headers = .ok cookies →
      CookiePairs (headers.getAll .cookie) pairs →
      ∀ name value, cookies[name]? = some value ↔ (name,value) ∈ pairs) ∧
    ((¬ ∃ pairs, CookiePairs (headers.getAll .cookie) pairs) →
      ∃ error, parseCookies headers = .error error ∧ error.IsBadRequest) ∧
    ∀ headers' : HeaderMap,
      (rawPieces (headers.getAll .cookie)).Perm (rawPieces (headers'.getAll .cookie)) →
      ∀ cookies, parseCookies headers = .ok cookies ↔ parseCookies headers' = .ok cookies := by
  refine ⟨?_,?_,?_,fun headers' hp cookies => ⟨parseCookies_of_perm hp,parseCookies_of_perm hp.symm⟩⟩
  · simp only [parseCookies_eq_ok]
    constructor
    · rintro ⟨cookies,pairs,hc,-⟩
      exact ⟨pairs,hc⟩
    · rintro ⟨pairs,hc⟩
      exact ⟨_,pairs,hc,rfl⟩
  · intro cookies pairs ho hc name value
    obtain ⟨pairs',hc',rfl⟩ := parseCookies_eq_ok.mp ho
    rw [hc.unique hc',BTreeMap.getElem?_insertMany_eq_some hc'.nodup (by simp)]
    simp
  · intro hn
    obtain ⟨error,he⟩ := exists_parseCookies_error hn
    exact ⟨error,he,parseCookies_error he⟩

end SoapAxum.Request
