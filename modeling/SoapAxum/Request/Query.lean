import SoapAxum.Data.BTreeMap
import SoapAxum.Http.Contract
import SoapAxum.Semantics.Fallible
import SoapAxum.Text.Utf8

/-! Query strings: strict percent encoding, strict UTF-8, and the pairs of a form. -/
namespace SoapAxum.Request
open SoapAxum.Http SoapAxum.Text SoapAxum.Data SoapAxum.Semantics

def hexValue (byte : UInt8) : Option UInt8 :=
  if 0x30 ≤ byte && byte ≤ 0x39 then some (byte-0x30)
  else if 0x41 ≤ byte && byte ≤ 0x46 then some (byte-0x41+10)
  else if 0x61 ≤ byte && byte ≤ 0x66 then some (byte-0x61+10)
  else none

def isHexDigit (byte : UInt8) : Bool := (hexValue byte).isSome

def invalidPercentEncoding : SoapError :=
  (HttpRejection.badRequest "query string contains invalid percent encoding").intoError

def validatePercentEncoding : Bytes → SoapResult Unit
  | [] => .ok ()
  | byte :: rest =>
    if byte = 0x25 then match rest with
      | high :: low :: rest => if isHexDigit high && isHexDigit low then validatePercentEncoding rest
        else .error invalidPercentEncoding
      | _ => .error invalidPercentEncoding
    else validatePercentEncoding rest

/-- Decode percent escapes. An incomplete escape stays as it is. -/
def percentDecode : Bytes → Bytes
  | [] => []
  | byte :: rest =>
    if byte = 0x25 then match rest with
      | high :: low :: tail => match hexValue high,hexValue low with
        | some h,some l => (h*16+l) :: percentDecode tail
        | _,_ => byte :: percentDecode (high :: low :: tail)
      | other => byte :: percentDecode other
    else byte :: percentDecode rest

/-- Decode a component of a form, where a plus is a space. -/
def decodeComponent (bytes : Bytes) : Str :=
  fromUtf8Lossy (percentDecode (bytes.map fun byte => if byte = 0x2B then 0x20 else byte))

def splitOnceByte (sep : UInt8) : Bytes → Bytes × Bytes
  | [] => ([],[])
  | byte :: rest => if byte = sep then ([],rest) else
    let (before,after) := splitOnceByte sep rest
    (byte :: before,after)

/-- The name-value pairs of a form. Empty pieces are skipped. -/
def formPairs (input : Bytes) : List (Str × Str) :=
  ((input.splitOn 0x26).filter fun piece => !piece.isEmpty).map fun piece =>
    let (name,value) := splitOnceByte 0x3D piece
    (decodeComponent name,decodeComponent value)

/-- Append a value to those of its name. -/
def pushParameter (parameters : BTreeMap Str (List Str)) (pair : Str × Str) :
    BTreeMap Str (List Str) :=
  parameters.insert pair.1 (parameters[pair.1]?.getD [] ++ [pair.2])

def invalidQueryText : SoapError :=
  ((HttpRejection.badRequest "query string is not valid UTF-8").withSource
    [.technical "invalid utf-8 sequence"]).intoError

def parseQuery (query : Option Str) : SoapResult (BTreeMap Str (List Str)) :=
  match query with
  | none => .ok ∅
  | some query => do
    validatePercentEncoding (utf8 query)
    match decodeUtf8 (percentDecode (utf8 query)) with
    | none => .error invalidQueryText
    | some _ => .ok ((formPairs (utf8 query)).foldl pushParameter ∅)

/-- Every percent sign is followed by two hexadecimal digits. -/
def ValidPercentEncoding (bytes : Bytes) : Prop :=
  ∀ before after, bytes = before ++ 0x25 :: after →
    ∃ high low rest, after = high :: low :: rest ∧ isHexDigit high = true ∧ isHexDigit low = true

lemma validatePercentEncoding_error {bytes : Bytes} {error : SoapError}
    (h : validatePercentEncoding bytes = .error error) : error = invalidPercentEncoding := by
  fun_induction validatePercentEncoding bytes with
  | case1 => contradiction
  | case2 high low rest hd ih => exact ih h
  | case3 => exact (Except.error.inj h).symm
  | case4 => exact (Except.error.inj h).symm
  | case5 byte rest hb ih => exact ih h

lemma validPercentEncoding_nil : ValidPercentEncoding [] := by
  intro before after h
  simp at h

theorem validPercentEncoding_cons {byte : UInt8} {rest : Bytes} (hb : byte ≠ 0x25) :
    ValidPercentEncoding (byte :: rest) ↔ ValidPercentEncoding rest := by
  constructor
  · intro h before after he
    exact h (byte :: before) after (by rw [he]; rfl)
  · intro h before after he
    cases before with
    | nil => exact absurd (List.cons.inj he).1 hb
    | cons first before => exact h before after (List.cons.inj he).2

lemma ne_percent_of_isHexDigit {byte : UInt8} (h : isHexDigit byte = true) : byte ≠ 0x25 := by
  rintro rfl
  exact absurd h (by decide)

theorem validPercentEncoding_escape {high low : UInt8} {rest : Bytes}
    (hh : isHexDigit high = true) (hl : isHexDigit low = true) :
    ValidPercentEncoding (0x25 :: high :: low :: rest) ↔ ValidPercentEncoding rest := by
  have hskip : ValidPercentEncoding (high :: low :: rest) ↔ ValidPercentEncoding rest :=
    (validPercentEncoding_cons (ne_percent_of_isHexDigit hh)).trans
      (validPercentEncoding_cons (ne_percent_of_isHexDigit hl))
  refine Iff.trans ?_ hskip
  constructor
  · intro h before after he
    exact h (0x25 :: before) after (by rw [he]; rfl)
  · intro h before after he
    cases before with
    | nil => exact ⟨high,low,rest,(List.cons.inj he).2.symm,hh,hl⟩
    | cons first before => exact h before after (List.cons.inj he).2

/-- The check accepts exactly the texts whose escapes are complete. -/
theorem validatePercentEncoding_eq_ok {bytes : Bytes} :
    validatePercentEncoding bytes = .ok () ↔ ValidPercentEncoding bytes := by
  fun_induction validatePercentEncoding bytes with
  | case1 => exact iff_of_true rfl validPercentEncoding_nil
  | case2 high low rest hd ih =>
    rw [Bool.and_eq_true] at hd
    rw [ih,validPercentEncoding_escape hd.1 hd.2]
  | case3 high low rest hd =>
    refine iff_of_false (by simp) fun h => ?_
    obtain ⟨high',low',rest',he,hh,hl⟩ := h [] _ rfl
    obtain ⟨rfl,rfl,rfl⟩ : high = high' ∧ low = low' ∧ rest = rest' := by simpa using he
    exact hd (by simp [hh,hl])
  | case4 rest hrest =>
    refine iff_of_false (by simp) fun h => ?_
    obtain ⟨high,low,tail,he,-,-⟩ := h [] _ rfl
    exact hrest high low tail he
  | case5 byte rest hb ih => rw [ih,validPercentEncoding_cons hb]

/-- Parsing fails exactly on a broken escape or on text that is not UTF-8 once decoded. -/
theorem parseQuery_error_iff {query : Option Str} :
    (∃ error, parseQuery query = .error error) ↔ ∃ text, query = some text ∧
      (¬ ValidPercentEncoding (utf8 text) ∨ decodeUtf8 (percentDecode (utf8 text)) = none) := by
  cases query with
  | none => simp [parseQuery]
  | some text =>
    rw [parseQuery]
    simp only [Option.some.injEq,exists_eq_left',← validatePercentEncoding_eq_ok]
    cases hv : validatePercentEncoding (utf8 text) with
    | error error => exact iff_of_true ⟨error,rfl⟩ (Or.inl (by simp))
    | ok u =>
      cases hd : decodeUtf8 (percentDecode (utf8 text)) with
      | none => exact iff_of_true ⟨invalidQueryText,rfl⟩ (Or.inr rfl)
      | some decoded =>
        refine iff_of_false ?_ (by simp)
        rintro ⟨error,he⟩
        exact nomatch he

theorem parseQuery_error {query : Option Str} {error : SoapError}
    (h : parseQuery query = .error error) : error.IsBadRequest := by
  cases query with
  | none => contradiction
  | some text =>
    rw [parseQuery] at h
    cases hv : validatePercentEncoding (utf8 text) with
    | error e =>
      rw [hv] at h
      obtain rfl := Except.error.inj h
      exact validatePercentEncoding_error hv ▸ isBadRequest_intoError _
    | ok u =>
      rw [hv] at h
      cases hd : decodeUtf8 (percentDecode (utf8 text)) with
      | none =>
        simp only [hd] at h
        exact Except.error.inj h ▸ isBadRequest_withSource _ _
      | some decoded =>
        simp only [hd] at h
        exact nomatch h

end SoapAxum.Request
