import SoapAxum.Request.Components

/-! The form encoding that the adapter writes, and that reading it back gives the pairs it was
written from. -/
namespace SoapAxum.Request
open SoapAxum.Http SoapAxum.Text SoapAxum.Data SoapAxum.Semantics

/-- Bytes that stand for themselves in a form. -/
def isFormUnreserved (byte : UInt8) : Bool :=
  byte == 0x2A || byte == 0x2D || byte == 0x2E || byte == 0x5F || (0x30 ≤ byte && byte ≤ 0x39) ||
    (0x41 ≤ byte && byte ≤ 0x5A) || (0x61 ≤ byte && byte ≤ 0x7A)

def upperHexDigit (n : ℕ) : Char := Char.ofNat (if n < 10 then 0x30+n else 0x37+n)

def serializeByte (byte : UInt8) : Str :=
  if isFormUnreserved byte then [Char.ofNat byte.toNat]
  else if byte = 0x20 then ['+']
  else ['%',upperHexDigit (byte.toNat/16),upperHexDigit (byte.toNat%16)]

def byteSerialize (bytes : Bytes) : Str := bytes.flatMap serializeByte

/-- Write one more pair. A separator stands before every pair but the first. -/
def appendPair (target : Str) (pair : Str × Str) : Str :=
  (if target.isEmpty then target else target ++ ['&']) ++
    byteSerialize (utf8 pair.1) ++ '=' :: byteSerialize (utf8 pair.2)

def serializePairs (pairs : List (Str × Str)) : Str := pairs.foldl appendPair []

lemma hexValue_upperHexDigit {n : ℕ} (h : n < 16) :
    hexValue (UInt8.ofNat (upperHexDigit n).toNat) = some (UInt8.ofNat n) := by
  have hall : ∀ m : Fin 16,
      hexValue (UInt8.ofNat (upperHexDigit m).toNat) = some (UInt8.ofNat m) := by decide
  exact hall ⟨n,h⟩

lemma toNat_upperHexDigit_lt {n : ℕ} (h : n < 16) : (upperHexDigit n).toNat < 128 := by
  have hall : ∀ m : Fin 16, (upperHexDigit m).toNat < 128 := by decide
  exact hall ⟨n,h⟩

theorem isFormUnreserved_lt {byte : UInt8} (h : isFormUnreserved byte = true) : byte.toNat < 128 := by
  simp only [isFormUnreserved,Bool.or_eq_true,Bool.and_eq_true,beq_iff_eq,decide_eq_true_eq,
    UInt8.le_iff_toNat_le] at h
  rcases h with (((((rfl | rfl) | rfl) | rfl) | h) | h) | h
  · decide
  · decide
  · decide
  · decide
  · exact Nat.lt_of_le_of_lt h.2 (by decide)
  · exact Nat.lt_of_le_of_lt h.2 (by decide)
  · exact Nat.lt_of_le_of_lt h.2 (by decide)

/-- The three ways to write a byte. -/
theorem utf8_serializeByte_cases (byte : UInt8) :
    (isFormUnreserved byte = true ∧ utf8 (serializeByte byte) = [byte]) ∨
      (byte = 0x20 ∧ utf8 (serializeByte byte) = [0x2B]) ∨
      ∃ high low h l, hexValue high = some h ∧ hexValue low = some l ∧ h*16+l = byte ∧
        utf8 (serializeByte byte) = [0x25,high,low] := by
  unfold serializeByte
  split_ifs with hu hs
  · left
    have hlt := isFormUnreserved_lt hu
    have hc : (Char.ofNat byte.toNat).toNat = byte.toNat := toNat_charOfNat (by omega)
    refine ⟨hu,?_⟩
    rw [utf8_cons_of_lt _ (by omega),hc,UInt8.ofNat_toNat]
    rfl
  · right
    left
    exact ⟨hs,rfl⟩
  · right
    right
    have hlt : byte.toNat < 256 := byte.toNat_lt
    have hhigh : byte.toNat/16 < 16 := by omega
    have hlow : byte.toNat%16 < 16 := by omega
    refine ⟨_,_,_,_,hexValue_upperHexDigit hhigh,hexValue_upperHexDigit hlow,?_,?_⟩
    · apply UInt8.toNat_inj.mp
      simp only [UInt8.toNat_add,UInt8.toNat_mul,UInt8.toNat_ofNat']
      change (byte.toNat/16%256*16%256+byte.toNat%16%256)%256 = byte.toNat
      omega
    · rw [utf8_cons_of_lt _ (by decide),utf8_cons_of_lt _ (toNat_upperHexDigit_lt hhigh),
        utf8_cons_of_lt _ (toNat_upperHexDigit_lt hlow)]
      rfl

lemma isFormUnreserved_ne {byte other : UInt8} (h : isFormUnreserved byte = true)
    (ho : isFormUnreserved other = false) : byte ≠ other := by
  rintro rfl
  rw [h] at ho
  contradiction

lemma isHexDigit_of_hexValue {byte value : UInt8} (h : hexValue byte = some value) :
    isHexDigit byte = true := by
  unfold isHexDigit
  rw [h,Option.isSome_some]

theorem formDecode_serializeByte (byte : UInt8) (rest : Bytes) :
    formDecode (utf8 (serializeByte byte) ++ rest) = byte :: formDecode rest := by
  unfold formDecode
  rcases utf8_serializeByte_cases byte with ⟨hu,he⟩ | ⟨rfl,he⟩ | ⟨high,low,h,l,hh,hl,hb,he⟩
  · have hplus : byte ≠ 0x2B := isFormUnreserved_ne hu (by decide)
    have hpercent : byte ≠ 0x25 := isFormUnreserved_ne hu (by decide)
    rw [he,List.singleton_append,List.map_cons,if_neg hplus,percentDecode_cons _ hpercent]
  · rw [he,List.singleton_append,List.map_cons,if_pos rfl,percentDecode_cons _ (by decide)]
  · have hhigh := ne_plus_of_isHexDigit (isHexDigit_of_hexValue hh)
    have hlow := ne_plus_of_isHexDigit (isHexDigit_of_hexValue hl)
    rw [he]
    simp only [List.cons_append,List.nil_append,List.map_cons]
    rw [if_neg (by decide),if_neg hhigh,if_neg hlow,percentDecode,if_pos rfl]
    simp only [hh,hl,hb]

/-- Reading a written component gives back its bytes. -/
theorem formDecode_byteSerialize (bytes : Bytes) : formDecode (utf8 (byteSerialize bytes)) = bytes := by
  unfold byteSerialize
  induction bytes with
  | nil => rfl
  | cons byte bytes ih =>
    rw [List.flatMap_cons,utf8_append,formDecode_serializeByte,ih]

theorem validPercentEncoding_append {a b : Bytes} (ha : ValidPercentEncoding a)
    (hb : ValidPercentEncoding b) : ValidPercentEncoding (a ++ b) := by
  rw [← validatePercentEncoding_eq_ok] at ha
  fun_induction validatePercentEncoding a with
  | case1 => exact hb
  | case2 high low rest hd ih =>
    rw [Bool.and_eq_true] at hd
    exact (validPercentEncoding_escape hd.1 hd.2).mpr (ih ha)
  | case3 => contradiction
  | case4 => contradiction
  | case5 byte rest hne ih => exact (validPercentEncoding_cons hne).mpr (ih ha)

theorem validPercentEncoding_byteSerialize (bytes : Bytes) :
    ValidPercentEncoding (utf8 (byteSerialize bytes)) := by
  unfold byteSerialize
  induction bytes with
  | nil => exact validPercentEncoding_nil
  | cons byte bytes ih =>
    rw [List.flatMap_cons,utf8_append]
    apply validPercentEncoding_append _ ih
    rcases utf8_serializeByte_cases byte with ⟨hu,he⟩ | ⟨rfl,he⟩ | ⟨high,low,h,l,hh,hl,-,he⟩
    · rw [he,validPercentEncoding_cons (isFormUnreserved_ne hu (by decide))]
      exact validPercentEncoding_nil
    · rw [he,validPercentEncoding_cons (by decide)]
      exact validPercentEncoding_nil
    · rw [he,validPercentEncoding_escape (isHexDigit_of_hexValue hh) (isHexDigit_of_hexValue hl)]
      exact validPercentEncoding_nil

/-- No separator is left in a written component. -/
theorem not_mem_byteSerialize {sep : UInt8} (bytes : Bytes) (hs : sep = 0x26 ∨ sep = 0x3D) :
    sep ∉ utf8 (byteSerialize bytes) := by
  have hu : isFormUnreserved sep = false := by rcases hs with rfl | rfl <;> rfl
  have hx : isHexDigit sep = false := by rcases hs with rfl | rfl <;> rfl
  have hplus : sep ≠ 0x2B := by rcases hs with rfl | rfl <;> decide
  have hpercent : sep ≠ 0x25 := by rcases hs with rfl | rfl <;> decide
  unfold byteSerialize
  induction bytes with
  | nil => exact List.not_mem_nil
  | cons byte bytes ih =>
    rw [List.flatMap_cons,utf8_append,List.mem_append,not_or]
    refine ⟨?_,ih⟩
    rcases utf8_serializeByte_cases byte with ⟨hbyte,he⟩ | ⟨-,he⟩ | ⟨high,low,h,l,hh,hl,-,he⟩
    · rw [he,List.mem_singleton]
      exact Ne.symm (isFormUnreserved_ne hbyte hu)
    · rw [he,List.mem_singleton]
      exact hplus
    · have hhigh : sep ≠ high := by
        rintro rfl
        rw [isHexDigit_of_hexValue hh] at hx
        contradiction
      have hlow : sep ≠ low := by
        rintro rfl
        rw [isHexDigit_of_hexValue hl] at hx
        contradiction
      simp [he,hpercent,hhigh,hlow]

/-- A pair as it stands between the separators. -/
def serializePair (pair : Str × Str) : Str :=
  byteSerialize (utf8 pair.1) ++ '=' :: byteSerialize (utf8 pair.2)

lemma intercalate_append_cons (sep a b : Str) (l : List Str) :
    sep.intercalate ((a ++ sep ++ b) :: l) = sep.intercalate (a :: b :: l) := by
  cases l with
  | nil => simp
  | cons c l => simp [List.intercalate_cons_cons]

/-- The pairs are joined by one separator each. -/
theorem serializePairs_eq (pairs : List (Str × Str)) :
    serializePairs pairs = ['&'].intercalate (pairs.map serializePair) := by
  have hfold : ∀ (pairs : List (Str × Str)) (target : Str), target ≠ [] →
      pairs.foldl appendPair target = ['&'].intercalate (target :: pairs.map serializePair) := by
    intro pairs
    induction pairs with
    | nil => simp
    | cons pair pairs ih =>
      intro target ht
      have happend : appendPair target pair = target ++ ['&'] ++ serializePair pair := by
        unfold appendPair serializePair
        rw [if_neg (by simpa using ht)]
        simp
      rw [List.foldl_cons,happend,ih _ (by simp),intercalate_append_cons,List.map_cons]
  unfold serializePairs
  cases pairs with
  | nil => rfl
  | cons pair pairs =>
    have hfirst : appendPair [] pair = serializePair pair := rfl
    rw [List.foldl_cons,hfirst,hfold _ _ (by simp [serializePair]),List.map_cons]

lemma utf8_serializePair (pair : Str × Str) :
    utf8 (serializePair pair) =
      utf8 (byteSerialize (utf8 pair.1)) ++ 0x3D :: utf8 (byteSerialize (utf8 pair.2)) := by
  unfold serializePair
  rw [utf8_append,utf8_cons_of_lt _ (by decide)]
  rfl

theorem utf8_serializePairs (pairs : List (Str × Str)) :
    utf8 (serializePairs pairs) =
      [0x26].intercalate (pairs.map fun pair => utf8 (serializePair pair)) := by
  rw [serializePairs_eq]
  induction pairs with
  | nil => rfl
  | cons first rest ih =>
    cases rest with
    | nil => simp
    | cons second rest =>
      simp only [List.map_cons] at ih ⊢
      rw [List.intercalate_cons_cons,utf8_append,utf8_append,ih,List.intercalate_cons_cons]
      rfl

lemma splitOnceByte_append {sep : UInt8} {a : Bytes} (b : Bytes) (h : sep ∉ a) :
    splitOnceByte sep (a ++ sep :: b) = (a,b) := by
  induction a with
  | nil =>
    rw [List.nil_append,splitOnceByte,if_pos rfl]
  | cons byte a ih =>
    obtain ⟨hne,ha⟩ := not_or.mp (mt List.mem_cons.mpr h)
    rw [List.cons_append,splitOnceByte,if_neg (Ne.symm hne),ih ha]

/-- Splitting what was written gives the written names and values. -/
theorem queryComponents_serializePairs (pairs : List (Str × Str)) :
    queryComponents (utf8 (serializePairs pairs)) = pairs.map fun pair =>
      (utf8 (byteSerialize (utf8 pair.1)),utf8 (byteSerialize (utf8 pair.2))) := by
  unfold queryComponents
  rw [utf8_serializePairs]
  cases pairs with
  | nil => rfl
  | cons first rest =>
    have hsep : ∀ piece ∈ (first :: rest).map fun pair => utf8 (serializePair pair),
        (0x26 : UInt8) ∉ piece := by
      rw [List.forall_mem_map]
      intro pair _
      rw [utf8_serializePair,List.mem_append,List.mem_cons]
      simp [not_mem_byteSerialize]
    rw [List.splitOn_intercalate _ hsep (by simp),List.filter_eq_self.mpr,List.map_map]
    · apply List.map_congr_left
      intro pair _
      rw [Function.comp_apply,utf8_serializePair,
        splitOnceByte_append _ (not_mem_byteSerialize _ (Or.inr rfl))]
    · rw [List.forall_mem_map]
      intro pair _
      simp [utf8_serializePair]

theorem validPercentEncoding_serializePairs (pairs : List (Str × Str)) :
    ValidPercentEncoding (utf8 (serializePairs pairs)) := by
  rw [utf8_serializePairs]
  induction pairs with
  | nil => exact validPercentEncoding_nil
  | cons first rest ih =>
    have hfirst : ValidPercentEncoding (utf8 (serializePair first)) := by
      rw [utf8_serializePair]
      apply validPercentEncoding_append (validPercentEncoding_byteSerialize _)
      rw [validPercentEncoding_cons (by decide)]
      exact validPercentEncoding_byteSerialize _
    cases rest with
    | nil => simpa using hfirst
    | cons second rest =>
      simp only [List.map_cons] at ih ⊢
      rw [List.intercalate_cons_cons,List.append_assoc,List.singleton_append]
      apply validPercentEncoding_append hfirst
      rwa [validPercentEncoding_cons (by decide)]

theorem isUtf8_percentDecode_byteSerialize (s : Str) :
    IsUtf8 (percentDecode (utf8 (byteSerialize (utf8 s)))) := by
  have h := forall₂_formDecode (validPercentEncoding_byteSerialize (utf8 s))
  rw [formDecode_byteSerialize] at h
  apply isUtf8_of_forall₂ _ ⟨s,rfl⟩
  apply List.Forall₂.flip
  refine h.imp fun x y hxy => ?_
  rcases hxy with rfl | ⟨hx,hy⟩
  · exact Or.inl rfl
  · exact Or.inr ⟨hy,hx⟩

/-- Reading a form back gives the pairs it was written from. -/
theorem formPairs_serializePairs (pairs : List (Str × Str)) :
    formPairs (utf8 (serializePairs pairs)) = pairs := by
  have htext : ∀ s : Str, fromUtf8Lossy (formDecode (utf8 (byteSerialize (utf8 s)))) = s := by
    intro s
    rw [formDecode_byteSerialize]
    exact fromUtf8Lossy_of_decodeUtf8 (decodeUtf8_eq_some.mpr rfl)
  rw [formPairs_eq,queryComponents_serializePairs,List.map_map]
  simp only [Function.comp_def,htext,List.map_id']

/-- What the adapter writes is a query that it accepts. -/
theorem parseQuery_serializePairs (pairs : List (Str × Str)) :
    parseQuery (some (serializePairs pairs)) = .ok (pairs.foldl pushParameter ∅) := by
  have hv := validPercentEncoding_serializePairs pairs
  rw [parseQuery_eq_ok]
  refine ⟨hv,?_,by rw [formPairs_serializePairs]⟩
  rw [isUtf8_percentDecode hv,queryComponents_serializePairs,List.forall_mem_map]
  intro pair _
  exact ⟨isUtf8_percentDecode_byteSerialize pair.1,isUtf8_percentDecode_byteSerialize pair.2⟩

end SoapAxum.Request
