import SoapAxum.Request.Parameters

/-! The names and values of a query. The adapter checks the escapes and the UTF-8 of the whole query
once and then decodes each component on its own, which agree because no separator is part of an
escape or of a longer character. -/
namespace SoapAxum.Request
open SoapAxum.Http SoapAxum.Text SoapAxum.Data SoapAxum.Semantics

/-- The names and values between the separators, still encoded. Empty pieces have none. -/
def queryComponents (bytes : Bytes) : List (Bytes × Bytes) :=
  ((bytes.splitOn 0x26).filter fun piece => !piece.isEmpty).map (splitOnceByte 0x3D)

/-- The decoding of a component: plus to space, then the escapes. -/
def formDecode (bytes : Bytes) : Bytes :=
  percentDecode (bytes.map fun byte => if byte = 0x2B then 0x20 else byte)

lemma formPairs_eq (bytes : Bytes) :
    formPairs bytes = (queryComponents bytes).map fun component =>
      (fromUtf8Lossy (formDecode component.1),fromUtf8Lossy (formDecode component.2)) := by
  unfold formPairs queryComponents
  rw [List.map_map]
  rfl

lemma percentDecode_cons {byte : UInt8} (rest : Bytes) (h : byte ≠ 0x25) :
    percentDecode (byte :: rest) = byte :: percentDecode rest := by
  rw [percentDecode.eq_def]
  exact if_neg h

lemma percentDecode_escape {high low : UInt8} (hh : isHexDigit high = true)
    (hl : isHexDigit low = true) : ∃ byte,
      ∀ tail, percentDecode (0x25 :: high :: low :: tail) = byte :: percentDecode tail := by
  obtain ⟨h,hhigh⟩ := Option.isSome_iff_exists.mp hh
  obtain ⟨l,hlow⟩ := Option.isSome_iff_exists.mp hl
  refine ⟨h*16+l,fun tail => ?_⟩
  rw [percentDecode,if_pos rfl]
  simp only [hhigh,hlow]

/-- Complete escapes are decoded no matter what follows. -/
theorem percentDecode_append {a : Bytes} (b : Bytes) (h : ValidPercentEncoding a) :
    percentDecode (a ++ b) = percentDecode a ++ percentDecode b := by
  rw [← validatePercentEncoding_eq_ok] at h
  fun_induction validatePercentEncoding a with
  | case1 => rfl
  | case2 high low rest hd ih =>
    rw [Bool.and_eq_true] at hd
    obtain ⟨byte,hbyte⟩ := percentDecode_escape hd.1 hd.2
    have hwhole : percentDecode (0x25 :: high :: low :: rest ++ b) = byte :: percentDecode (rest ++ b) :=
      hbyte (rest ++ b)
    rw [hwhole,hbyte rest,ih h,List.cons_append]
  | case3 => contradiction
  | case4 => contradiction
  | case5 byte rest hb ih =>
    rw [List.cons_append,percentDecode_cons _ hb,percentDecode_cons _ hb,ih h,List.cons_append]

/-- No escape reaches over a byte that is no hexadecimal digit. -/
theorem validPercentEncoding_append_cons {sep : UInt8} {a b : Bytes} (hs : isHexDigit sep = false)
    (h : ValidPercentEncoding (a ++ sep :: b)) :
    ValidPercentEncoding a ∧ ValidPercentEncoding b := by
  constructor
  · intro before after ha
    have hwhole : a ++ sep :: b = before ++ 0x25 :: (after ++ sep :: b) := by simp [ha]
    obtain ⟨high,low,rest,he,hh,hl⟩ := h before _ hwhole
    cases after with
    | nil =>
      obtain ⟨rfl,-⟩ := List.cons.inj he
      rw [hs] at hh
      contradiction
    | cons first after =>
      obtain ⟨rfl,hafter⟩ := List.cons.inj he
      cases after with
      | nil =>
        obtain ⟨rfl,-⟩ := List.cons.inj hafter
        rw [hs] at hl
        contradiction
      | cons second after =>
        obtain ⟨rfl,-⟩ := List.cons.inj hafter
        exact ⟨first,second,after,rfl,hh,hl⟩
  · intro before after hb
    exact h (a ++ sep :: before) after (by simp [hb])

/-- Escapes stay complete in every piece between separators. -/
theorem validPercentEncoding_of_mem_splitOn {sep : UInt8} {bytes piece : Bytes}
    (hs : isHexDigit sep = false) (h : ValidPercentEncoding bytes)
    (hp : piece ∈ bytes.splitOn sep) : ValidPercentEncoding piece := by
  have hjoin : [sep].intercalate (bytes.splitOn sep) = bytes := List.intercalate_splitOn sep
  rw [← hjoin] at h
  generalize bytes.splitOn sep = pieces at h hp
  induction pieces with
  | nil => contradiction
  | cons first rest ih =>
    cases rest with
    | nil =>
      rw [List.mem_singleton.mp hp]
      simpa using h
    | cons second rest =>
      rw [List.intercalate_cons_cons,List.append_assoc,List.singleton_append] at h
      obtain ⟨hfirst,hrest⟩ := validPercentEncoding_append_cons hs h
      rcases List.mem_cons.mp hp with rfl | hp
      · exact hfirst
      · exact ih hrest hp

theorem percentDecode_intercalate {sep : UInt8} {pieces : List Bytes} (hs : sep ≠ 0x25)
    (h : ∀ piece ∈ pieces, ValidPercentEncoding piece) :
    percentDecode ([sep].intercalate pieces) = [sep].intercalate (pieces.map percentDecode) := by
  induction pieces with
  | nil => rfl
  | cons first rest ih =>
    obtain ⟨hfirst,hrest⟩ := List.forall_mem_cons.mp h
    cases rest with
    | nil => simp
    | cons second rest =>
      rw [List.intercalate_cons_cons,List.append_assoc,List.singleton_append,
        percentDecode_append _ hfirst,percentDecode_cons _ hs,ih hrest]
      simp only [List.map_cons]
      rw [List.intercalate_cons_cons,List.append_assoc,List.singleton_append]

theorem splitOnceByte_cases (sep : UInt8) (piece : Bytes) :
    splitOnceByte sep piece = (piece,[]) ∨
      piece = (splitOnceByte sep piece).1 ++ sep :: (splitOnceByte sep piece).2 := by
  induction piece with
  | nil => exact Or.inl rfl
  | cons byte rest ih =>
    unfold splitOnceByte
    split_ifs with h
    · right
      rw [h,List.nil_append]
    · rcases ih with ih | ih
      · left
        rw [ih]
      · right
        exact congrArg (byte :: ·) ih

/-- A piece is text once decoded exactly if its name and its value are. -/
theorem isUtf8_percentDecode_piece {piece : Bytes} (h : ValidPercentEncoding piece) :
    IsUtf8 (percentDecode piece) ↔ IsUtf8 (percentDecode (splitOnceByte 0x3D piece).1) ∧
      IsUtf8 (percentDecode (splitOnceByte 0x3D piece).2) := by
  rcases splitOnceByte_cases 0x3D piece with he | he
  · rw [he]
    exact (and_iff_left isUtf8_nil).symm
  · generalize (splitOnceByte 0x3D piece).1 = name at he
    generalize (splitOnceByte 0x3D piece).2 = value at he
    subst he
    have hname := (validPercentEncoding_append_cons (by decide) h).1
    rw [percentDecode_append _ hname,percentDecode_cons _ (by decide),
      isUtf8_append_cons (by decide)]

/-- The query is text once decoded exactly if all its names and values are. -/
theorem isUtf8_percentDecode {bytes : Bytes} (h : ValidPercentEncoding bytes) :
    IsUtf8 (percentDecode bytes) ↔ ∀ component ∈ queryComponents bytes,
      IsUtf8 (percentDecode component.1) ∧ IsUtf8 (percentDecode component.2) := by
  have hpiece : ∀ piece ∈ bytes.splitOn 0x26, ValidPercentEncoding piece := fun piece hp =>
    validPercentEncoding_of_mem_splitOn (by decide) h hp
  have hsplit : IsUtf8 (percentDecode bytes) ↔
      ∀ piece ∈ bytes.splitOn 0x26, IsUtf8 (percentDecode piece) := by
    have hjoin : [0x26].intercalate (bytes.splitOn 0x26) = bytes := List.intercalate_splitOn 0x26
    conv => lhs; rw [← hjoin]
    rw [percentDecode_intercalate (by decide) hpiece,isUtf8_intercalate (by decide),
      List.forall_mem_map]
  rw [hsplit]
  unfold queryComponents
  rw [List.forall_mem_map]
  constructor
  · intro hall piece hp
    have hmem := List.mem_of_mem_filter hp
    exact (isUtf8_percentDecode_piece (hpiece piece hmem)).mp (hall piece hmem)
  · intro hall piece hp
    cases piece with
    | nil => exact isUtf8_nil
    | cons byte rest =>
      apply (isUtf8_percentDecode_piece (hpiece _ hp)).mpr
      exact hall _ (List.mem_filter.mpr ⟨hp,rfl⟩)

lemma ne_plus_of_isHexDigit {byte : UInt8} (h : isHexDigit byte = true) : byte ≠ 0x2B := by
  rintro rfl
  exact absurd h (by decide)

/-- Plus and space are both below 0x80, so which of them stands in a text does not matter. -/
theorem forall₂_formDecode {bytes : Bytes} (h : ValidPercentEncoding bytes) :
    List.Forall₂ (fun x y => x = y ∨ x < 0x80 ∧ y < 0x80) (formDecode bytes)
      (percentDecode bytes) := by
  rw [← validatePercentEncoding_eq_ok] at h
  unfold formDecode
  fun_induction validatePercentEncoding bytes with
  | case1 => exact .nil
  | case2 high low rest hd ih =>
    rw [Bool.and_eq_true] at hd
    obtain ⟨byte,hbyte⟩ := percentDecode_escape hd.1 hd.2
    rw [List.map_cons,List.map_cons,List.map_cons,if_neg (by decide),
      if_neg (ne_plus_of_isHexDigit hd.1),if_neg (ne_plus_of_isHexDigit hd.2),hbyte,hbyte]
    exact .cons (Or.inl rfl) (ih h)
  | case3 => contradiction
  | case4 => contradiction
  | case5 byte rest hb ih =>
    rw [List.map_cons,percentDecode_cons _ hb]
    split_ifs with hplus
    · rw [percentDecode_cons _ (by decide),hplus]
      exact .cons (Or.inr (by decide)) (ih h)
    · rw [percentDecode_cons _ hb]
      exact .cons (Or.inl rfl) (ih h)

theorem parseQuery_eq_ok {query : Str} {parameters : BTreeMap Str (List Str)} :
    parseQuery (some query) = .ok parameters ↔ ValidPercentEncoding (utf8 query) ∧
      IsUtf8 (percentDecode (utf8 query)) ∧
      (formPairs (utf8 query)).foldl pushParameter ∅ = parameters := by
  unfold parseQuery
  simp only [← validatePercentEncoding_eq_ok,← isSome_decodeUtf8]
  cases hv : validatePercentEncoding (utf8 query) with
  | error error => simp [bind,Except.bind]
  | ok u =>
    cases hd : decodeUtf8 (percentDecode (utf8 query)) with
    | none => simp [bind,Except.bind]
    | some decoded => simp [bind,Except.bind]

end SoapAxum.Request
