import SoapAxum.Request.Negotiation
import SoapAxum.Text.Utf8

/-! The loops over lines and items as one search over all items, whatever lines they stand on. -/
namespace SoapAxum.Request
open SoapAxum.Http SoapAxum.Text SoapAxum.Data SoapAxum.Semantics

def itemSegments (item : Str) : List Str := (trim item).splitOn ';'

/-- The range of an item is one that JSON satisfies. -/
def matchesJson (range : Str) : Bool := (splitOnce '/' range).any fun parts =>
  (parts.1 == ['*'] || eqIgnoreAsciiCase parts.1 "application".toList) &&
    (parts.2 == ['*'] || eqIgnoreAsciiCase parts.2 "json".toList)

/-- The text of the weight, if the parameter is one. -/
def weightOf (parameter : Str) : Option Str := (splitOnce '=' (trim parameter)).bind fun parts =>
  if eqIgnoreAsciiCase (trim parts.1) ['q'] then some (trim parts.2) else none

/-- The last weight counts, and an item without one is wanted. -/
def wanted (weights : List Str) : Bool :=
  weights.getLast?.all fun weight => parseQuality weight == some true

def allowsJson (item : Str) : Bool :=
  wanted ((itemSegments item).tail.filterMap weightOf) &&
    matchesJson (trim ((itemSegments item).headD []))

/-- A parameter with an equals sign, and with a quality if it is a weight. -/
structure ReadableParameter (parameter : Str) : Prop where
  equals : '=' ∈ trim parameter
  weight : ∀ weight ∈ weightOf parameter, ∃ quality, IsQvalue weight quality

/-- An item with a slash in its range and with readable parameters. -/
structure Readable (item : Str) : Prop where
  range : '/' ∈ trim ((itemSegments item).headD [])
  parameters : ∀ parameter ∈ (itemSegments item).tail, ReadableParameter parameter

/-- One pass of the loop over the items of a line. -/
def readItem (item : Str) : SoapResult Bool :=
  match splitOnce '/' (trim ((itemSegments item).headD [])) with
  | none =>
    .error (HttpRejection.badRequest "Accept header contains an invalid media range").intoError
  | some (kind,subtype) => do
    let allowed ← (itemSegments item).tail.foldlM readParameter true
    .ok (allowed && (kind == ['*'] || eqIgnoreAsciiCase kind "application".toList) &&
      (subtype == ['*'] || eqIgnoreAsciiCase subtype "json".toList))

theorem acceptItems_eq (items : List Str) : acceptItems items = items.anyM readItem := by
  induction items with
  | nil => rfl
  | cons item items ih =>
    rw [List.anyM_cons,acceptItems,ih]
    generalize items.anyM readItem = rest
    unfold readItem itemSegments
    cases splitOnce '/' (trim (((trim item).splitOn ';').headD [])) with
    | none => rfl
    | some parts =>
      simp only
      cases ((trim item).splitOn ';').tail.foldlM readParameter true with
      | error error => rfl
      | ok allowed =>
        simp only [Fallible.ok_bind]
        split_ifs <;> rfl

lemma length_le_utf8 (s : Str) : s.length ≤ (utf8 s).length := by
  induction s with
  | nil => exact Nat.le_refl _
  | cons c s ih =>
    have hc : 0 < (String.utf8EncodeChar c).length := List.length_pos_of_ne_nil (by simp)
    unfold utf8 at ih ⊢
    rw [List.flatMap_cons,List.length_append,List.length_cons]
    omega

/-- Text whose bytes are all ASCII is read character by character. -/
theorem forall_of_utf8_all {p : UInt8 → Bool} {s : Str} (hp : ∀ byte, p byte = true → byte < 0x80)
    (h : (utf8 s).all p = true) : ∀ c ∈ s, c.toNat < 128 ∧ p (UInt8.ofNat c.toNat) = true := by
  rw [List.all_eq_true] at h
  intro c hc
  have hbytes : ∀ byte ∈ String.utf8EncodeChar c, p byte = true := by
    intro byte hb
    exact h byte (List.mem_flatMap.mpr ⟨c,hc,hb⟩)
  by_cases hlt : c.toNat < 128
  · refine ⟨hlt,hbytes _ ?_⟩
    rw [utf8EncodeChar_of_lt hlt]
    exact List.mem_singleton_self _
  · obtain ⟨byte,hb⟩ := List.exists_mem_of_ne_nil (String.utf8EncodeChar c) (by simp)
    have hlow := hp byte (hbytes byte hb)
    exact absurd hlow (UInt8.not_lt.mpr (le_of_mem_utf8EncodeChar (by omega) byte hb))

theorem isAsciiDigit_of_utf8_all {digits : Str} (h : (utf8 digits).all isAsciiDigitByte = true) :
    ∀ c ∈ digits, isAsciiDigit c = true := by
  have hlow : ∀ byte, isAsciiDigitByte byte = true → byte < 0x80 := by
    intro byte hb
    simp only [isAsciiDigitByte,Bool.and_eq_true,decide_eq_true_eq] at hb
    exact UInt8.lt_of_le_of_lt hb.2 (by decide)
  intro c hc
  obtain ⟨hlt,hd⟩ := forall_of_utf8_all hlow h c hc
  exact forall_ascii (P := fun c => isAsciiDigitByte (UInt8.ofNat c.toNat) = true →
    isAsciiDigit c = true) (by decide) c hlt hd

/-- Only the texts of the protocol are read as a quality. -/
theorem isSome_parseQuality {value : Str} :
    (parseQuality value).isSome ↔ ∃ quality, IsQvalue value quality := by
  constructor
  · intro h
    unfold parseQuality at h
    cases hs : splitOnce '.' value with
    | none =>
      rw [hs] at h
      simp only [Option.getD_none] at h
      split_ifs at h with hf h0 h1
      · contradiction
      · exact ⟨0,h0 ▸ .zero⟩
      · exact ⟨1000,h1.1 ▸ .one⟩
      · contradiction
    | some parts =>
      obtain ⟨whole,fraction⟩ := parts
      obtain ⟨-,rfl⟩ := splitOnce_eq_some.mp hs
      rw [hs] at h
      simp only [Option.getD_some] at h
      have hlength := length_le_utf8 fraction
      split_ifs at h with hf h0 h1
      · contradiction
      · simp only [Bool.or_eq_true,decide_eq_true_eq,Bool.not_eq_true',not_or,Bool.not_eq_false] at hf
        rw [h0]
        exact ⟨_,.zeroPoint fraction (by omega) (isAsciiDigit_of_utf8_all hf.2)⟩
      · simp only [Bool.or_eq_true,decide_eq_true_eq,Bool.not_eq_true',not_or,Bool.not_eq_false] at hf
        have hd := isAsciiDigit_of_utf8_all hf.2
        rw [h1.1]
        exact ⟨_,.onePoint fraction (by omega) ((all_zero_utf8_digits hd).mp h1.2)⟩
      · contradiction
  · rintro ⟨quality,h⟩
    rw [parseQuality_of_isQvalue h]
    rfl

lemma mem_of_splitOnce {sep : Char} {s : Str} {parts : Str × Str}
    (h : splitOnce sep s = some parts) : sep ∈ s := by
  by_contra hn
  rw [splitOnce_eq_none.mpr hn] at h
  contradiction

theorem readParameter_eq {parameter : Str} (allowed : Bool) (h : ReadableParameter parameter) :
    readParameter allowed parameter =
      .ok ((weightOf parameter).elim allowed fun weight => parseQuality weight == some true) := by
  have hw := h.weight
  unfold readParameter
  unfold weightOf at hw ⊢
  cases hs : splitOnce '=' (trim parameter) with
  | none => exact absurd h.equals (splitOnce_eq_none.mp hs)
  | some parts =>
    rw [hs] at hw
    simp only [Option.bind_some] at hw ⊢
    split_ifs at hw ⊢ with hq
    · obtain ⟨quality,hquality⟩ := hw _ rfl
      have hparse := parseQuality_of_isQvalue hquality
      rw [Option.elim_some,hparse]
      simp
    · rfl

theorem readParameter_error {parameter : Str} {allowed : Bool} {error : SoapError}
    (h : readParameter allowed parameter = .error error) : error.IsBadRequest := by
  unfold readParameter at h
  cases hs : splitOnce '=' (trim parameter) with
  | none =>
    rw [hs] at h
    exact Except.error.inj h ▸ isBadRequest_intoError _
  | some parts =>
    simp only [hs] at h
    split_ifs at h
    cases hp : parseQuality (trim parts.2) with
    | none =>
      rw [hp] at h
      exact Except.error.inj h ▸ isBadRequest_intoError _
    | some positive =>
      rw [hp] at h
      contradiction

theorem readParameter_eq_ok {parameter : Str} {allowed allowed' : Bool}
    (h : readParameter allowed parameter = .ok allowed') : ReadableParameter parameter := by
  unfold readParameter at h
  cases hs : splitOnce '=' (trim parameter) with
  | none =>
    rw [hs] at h
    contradiction
  | some parts =>
    refine ⟨mem_of_splitOnce hs,?_⟩
    unfold weightOf
    simp only [hs,Option.bind_some] at h ⊢
    split_ifs at h ⊢ with hq
    · cases hp : parseQuality (trim parts.2) with
      | none =>
        rw [hp] at h
        contradiction
      | some positive =>
        intro weight hw
        rw [← Option.some.inj hw]
        exact isSome_parseQuality.mp (by rw [hp]; rfl)
    · intro weight hw
      contradiction

/-- The loop over readable parameters ends with what the last weight says. -/
theorem foldlM_readParameter {parameters : List Str} (allowed : Bool)
    (h : ∀ parameter ∈ parameters, ReadableParameter parameter) :
    parameters.foldlM readParameter allowed =
      .ok ((parameters.filterMap weightOf).getLast?.elim allowed
        fun weight => parseQuality weight == some true) := by
  induction parameters generalizing allowed with
  | nil => rfl
  | cons parameter parameters ih =>
    obtain ⟨hp,h⟩ := List.forall_mem_cons.mp h
    rw [List.foldlM_cons,readParameter_eq allowed hp,Fallible.ok_bind,ih _ h,List.filterMap_cons]
    cases weightOf parameter with
    | none => rfl
    | some weight =>
      simp only
      rw [List.getLast?_cons]
      cases (parameters.filterMap weightOf).getLast? <;> rfl

theorem foldlM_readParameter_eq_ok {parameters : List Str} {allowed allowed' : Bool}
    (h : parameters.foldlM readParameter allowed = .ok allowed') :
    ∀ parameter ∈ parameters, ReadableParameter parameter := by
  induction parameters generalizing allowed with
  | nil => simp
  | cons parameter parameters ih =>
    rw [List.foldlM_cons] at h
    obtain ⟨allowed₁,hp,hrest⟩ := Fallible.bind_eq_ok.mp h
    exact List.forall_mem_cons.mpr ⟨readParameter_eq_ok hp,ih hrest⟩

/-- A readable item is read as whether it allows JSON. -/
theorem readItem_of_readable {item : Str} (h : Readable item) : readItem item = .ok (allowsJson item) := by
  unfold readItem
  cases hs : splitOnce '/' (trim ((itemSegments item).headD [])) with
  | none => exact absurd h.range (splitOnce_eq_none.mp hs)
  | some parts =>
    simp only
    rw [foldlM_readParameter true h.parameters,Fallible.ok_bind]
    unfold allowsJson wanted matchesJson
    rw [hs,Option.any_some,Bool.and_assoc]
    cases ((itemSegments item).tail.filterMap weightOf).getLast? <;> rfl

/-- Any other item is a bad request. -/
theorem readItem_of_not_readable {item : Str} (h : ¬ Readable item) :
    ∃ error, readItem item = .error error ∧ error.IsBadRequest := by
  unfold readItem
  cases hs : splitOnce '/' (trim ((itemSegments item).headD [])) with
  | none => exact ⟨_,rfl,isBadRequest_intoError _⟩
  | some parts =>
    simp only
    cases hf : (itemSegments item).tail.foldlM readParameter true with
    | error error =>
      exact ⟨error,rfl,Fallible.foldlM_error (fun _ _ _ => readParameter_error) hf⟩
    | ok allowed => exact absurd ⟨mem_of_splitOnce hs,foldlM_readParameter_eq_ok hf⟩ h

lemma readable_of_readItem {item : Str} {allowed : Bool} (h : readItem item = .ok allowed) :
    Readable item := by
  by_contra hnot
  obtain ⟨error,he,-⟩ := readItem_of_not_readable hnot
  cases h.symm.trans he

/-- The items of a line, or that it cannot be read. -/
def headerItems (value : HeaderValue) : List (Option Str) :=
  value.toStr.elim [none] fun line => (line.splitOn ',').map some

def readHeaderItem : Option Str → SoapResult Bool
  | none => .error ((HttpRejection.badRequest "Accept header is not valid visible text").withSource
      [.technical "failed to convert header to a str"]).intoError
  | some item => readItem item

/-- The answer once the items have been searched. -/
def acceptance (found : Bool) : SoapResult Unit := if found then .ok () else .error notAcceptable

theorem anyM_headerItems (value : HeaderValue) (line : Str) (h : value.toStr = some line) :
    (headerItems value).anyM readHeaderItem = acceptValueAllowsJson line := by
  unfold headerItems acceptValueAllowsJson
  rw [h,Option.elim_some,acceptItems_eq]
  generalize line.splitOn ',' = items
  induction items with
  | nil => rfl
  | cons item items ih =>
    rw [List.map_cons,List.anyM_cons,List.anyM_cons,ih]
    rfl

/-- The two loops are one search over the items of all lines. -/
theorem acceptLines_eq (values : List HeaderValue) :
    acceptLines values = (values.flatMap headerItems).anyM readHeaderItem >>= acceptance := by
  induction values with
  | nil => rfl
  | cons value values ih =>
    rw [List.flatMap_cons,Fallible.anyM_append,acceptLines]
    cases h : value.toStr with
    | none =>
      unfold headerItems
      rw [h]
      rfl
    | some line =>
      rw [anyM_headerItems value line h]
      simp only
      cases acceptValueAllowsJson line with
      | error error => rfl
      | ok found =>
        cases found with
        | true => rfl
        | false => exact ih

/-- The items of all lines, without the whitespace around them. -/
def listedItems (values : List HeaderValue) : List Str :=
  values.flatMap fun value => ((latin1 value.bytes).splitOn ',').map trim

lemma readItem_trim (item : Str) : readItem (trim item) = readItem item := by
  unfold readItem itemSegments trim
  rw [trimWith_trimWith]

theorem acceptLines_of_visible {values : List HeaderValue} (h : ∀ value ∈ values, value.IsVisible) :
    acceptLines values = (listedItems values).anyM readItem >>= acceptance := by
  rw [acceptLines_eq]
  congr 1
  unfold listedItems
  induction values with
  | nil => rfl
  | cons value values ih =>
    obtain ⟨hv,h⟩ := List.forall_mem_cons.mp h
    rw [List.flatMap_cons,List.flatMap_cons,Fallible.anyM_append,Fallible.anyM_append,ih h,
      anyM_headerItems value _ (HeaderValue.toStr_eq_some.mpr ⟨hv,rfl⟩)]
    unfold acceptValueAllowsJson
    rw [acceptItems_eq]
    congr 1
    generalize (latin1 value.bytes).splitOn ',' = items
    induction items with
    | nil => rfl
    | cons item items ihi => rw [List.map_cons,List.anyM_cons,List.anyM_cons,readItem_trim,ihi]

theorem listedItems_eq_nil {values : List HeaderValue} : listedItems values = [] ↔ values = [] := by
  unfold listedItems
  cases values with
  | nil => exact iff_of_true rfl rfl
  | cons value values =>
    refine iff_of_false ?_ (List.cons_ne_nil _ _)
    intro h
    rw [List.flatMap_cons,List.append_eq_nil_iff,List.map_eq_nil_iff] at h
    exact List.splitOn_ne_nil _ _ h.1

/-- The lines as one line, with a comma between them. -/
def joinValues (values : List HeaderValue) : HeaderValue where
  bytes := [0x2C].intercalate (values.map HeaderValue.bytes)
  valid := by
    rw [List.all_eq_true]
    apply forall_mem_intercalate
    · simp [isValidByte]
    · rw [List.forall_mem_map]
      intro value _
      exact List.all_eq_true.mp value.valid

theorem joinValues_isVisible {values : List HeaderValue} (h : ∀ value ∈ values, value.IsVisible) :
    (joinValues values).IsVisible := by
  unfold HeaderValue.IsVisible joinValues
  rw [List.all_eq_true]
  apply forall_mem_intercalate
  · simp [isVisibleAscii]
  · rw [List.forall_mem_map]
    intro value hv
    exact List.all_eq_true.mp (h value hv)

theorem latin1_intercalate (sep : UInt8) (pieces : List Bytes) :
    latin1 ([sep].intercalate pieces) =
      [Char.ofNat sep.toNat].intercalate (pieces.map latin1) := by
  induction pieces with
  | nil => rfl
  | cons first rest ih =>
    cases rest with
    | nil => simp
    | cons second rest =>
      rw [List.map_cons] at ih ⊢
      rw [List.map_cons,List.intercalate_cons_cons,List.intercalate_cons_cons,← ih]
      unfold latin1
      rw [List.map_append,List.map_append]
      rfl

/-- Joining the lines does not change the items. -/
theorem listedItems_joinValues {values : List HeaderValue} (h : values ≠ []) :
    listedItems [joinValues values] = listedItems values := by
  unfold listedItems joinValues
  rw [List.flatMap_singleton]
  simp only [latin1_intercalate]
  have hsep : Char.ofNat (0x2C : UInt8).toNat = ',' := rfl
  rw [hsep,splitOn_intercalate_flatMap (by simpa using h),List.map_flatMap,List.flatMap_map,
    List.flatMap_map]

lemma acceptLines_of_readable {values : List HeaderValue} (h : ∀ value ∈ values, value.IsVisible)
    (hr : ∀ item ∈ listedItems values, Readable item) :
    acceptLines values = acceptance ((listedItems values).any allowsJson) := by
  rw [acceptLines_of_visible h,
    Fallible.anyM_of_forall fun item hm => readItem_of_readable (hr item hm)]
  rfl

def acceptValues [Platform] (request : RouteRequest) : List HeaderValue :=
  request.normalized.head.headers.getAll .accept

lemma requireJsonAcceptable_eq [Platform] (request : RouteRequest) :
    request.requireJsonAcceptable =
      if acceptValues request = [] then .ok () else acceptLines (acceptValues request) := by
  unfold RouteRequest.requireJsonAcceptable acceptValues
  simp only [List.isEmpty_iff]

/-- Visible lines are answered as the one line they are joined to, and lines of readable items are
answered the same in whatever order and on whatever lines the items stand. -/
theorem accept_ignores_lines_and_order [Platform] (request request' : RouteRequest)
    (hv : ∀ value ∈ acceptValues request, value.IsVisible) :
    (acceptValues request ≠ [] → acceptValues request' = [joinValues (acceptValues request)] →
        request'.requireJsonAcceptable = request.requireJsonAcceptable) ∧
      ((∀ item ∈ listedItems (acceptValues request), Readable item) →
        (∀ value ∈ acceptValues request', value.IsVisible) →
        (listedItems (acceptValues request')).Perm (listedItems (acceptValues request)) →
        request'.requireJsonAcceptable = request.requireJsonAcceptable) := by
  rw [requireJsonAcceptable_eq,requireJsonAcceptable_eq]
  constructor
  · intro hne hjoin
    have hjoined : ∀ value ∈ [joinValues (acceptValues request)], value.IsVisible := by
      intro value hm
      rw [List.mem_singleton.mp hm]
      exact joinValues_isVisible hv
    rw [hjoin,if_neg (List.cons_ne_nil _ _),if_neg hne,acceptLines_of_visible hjoined,
      acceptLines_of_visible hv,listedItems_joinValues hne]
  · intro hr hv' hperm
    have hr' : ∀ item ∈ listedItems (acceptValues request'), Readable item := by
      intro item hm
      exact hr item (hperm.mem_iff.mp hm)
    have hnil : acceptValues request' = [] ↔ acceptValues request = [] := by
      rw [← listedItems_eq_nil,← listedItems_eq_nil,← List.length_eq_zero_iff,
        ← List.length_eq_zero_iff,hperm.length_eq]
    rw [acceptLines_of_readable hv hr,acceptLines_of_readable hv' hr',hperm.any_eq]
    simp only [hnil]

section
local instance acceptItemsPlatform : Platform := referencePlatform

/-- The request for an article with other `Accept` lines. -/
def acceptLinesRequest (lines : List HeaderValue) : RouteRequest :=
  let request := acceptRequest (.fromStatic "*/*" (by decide))
  { request with normalized := { request.normalized with
      head := { request.normalized.head with headers := Multimap.empty.appendAll .accept lines } } }

def articleLines : List HeaderValue :=
  [.fromStatic "text/html" (by decide),.fromStatic "*/*;q=0.5" (by decide)]

/-- The same items on other lines and in another order. -/
def shuffledLines : List HeaderValue :=
  [.fromStatic "application/json;q=0.2, text/html" (by decide),
    .fromStatic "image/png;q=0.7 , */*;q=0.5" (by decide)]

def orderedLines : List HeaderValue :=
  [.fromStatic "text/html" (by decide),.fromStatic "image/png;q=0.7" (by decide),
    .fromStatic "*/*;q=0.5,application/json;q=0.2" (by decide)]

theorem accept_ignores_lines_and_order_article :
    (acceptLinesRequest [joinValues articleLines]).requireJsonAcceptable =
        (acceptLinesRequest articleLines).requireJsonAcceptable ∧
      (acceptLinesRequest shuffledLines).requireJsonAcceptable =
        (acceptLinesRequest orderedLines).requireJsonAcceptable := by
  have hreadable : ∀ item ∈ listedItems (acceptValues (acceptLinesRequest orderedLines)),
      Readable item := by
    intro item hm
    have hread : ∀ item ∈ listedItems (acceptValues (acceptLinesRequest orderedLines)),
        readItem item = .ok true ∨ readItem item = .ok false := by decide
    rcases hread item hm with h | h <;> exact readable_of_readItem h
  exact ⟨(accept_ignores_lines_and_order (acceptLinesRequest articleLines)
      (acceptLinesRequest [joinValues articleLines]) (by decide)).1 (by decide) rfl,
    (accept_ignores_lines_and_order (acceptLinesRequest orderedLines)
      (acceptLinesRequest shuffledLines) (by decide)).2 hreadable (by decide) (by decide)⟩

end
end SoapAxum.Request
