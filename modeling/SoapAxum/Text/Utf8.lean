import Mathlib.Data.List.Forall2
import SoapAxum.Text.Ascii

/-! Decoding of UTF-8, either strict or with every ill-formed part replaced. Text can be cut at every
byte below 0x80. -/
namespace SoapAxum.Text

def decodeUtf8 (bytes : List UInt8) : Option Str :=
  (ByteArray.utf8Decode? ⟨bytes.toArray⟩).map Array.toList

/-- The second bytes a lead byte allows and the number of bytes that follow it. -/
def utf8Follow (lead : UInt8) : Option ((UInt8 × UInt8) × ℕ) :=
  if 0xC2 ≤ lead && lead ≤ 0xDF then some ((0x80,0xBF),1)
  else if lead == 0xE0 then some ((0xA0,0xBF),2)
  else if lead == 0xED then some ((0x80,0x9F),2)
  else if 0xE1 ≤ lead && lead ≤ 0xEF then some ((0x80,0xBF),2)
  else if lead == 0xF0 then some ((0x90,0xBF),3)
  else if 0xF1 ≤ lead && lead ≤ 0xF3 then some ((0x80,0xBF),3)
  else if lead == 0xF4 then some ((0x80,0x8F),3)
  else none

/-- The bytes that continue a character after its lead byte. -/
def utf8Rest (range : UInt8 × UInt8) (n : ℕ) : List UInt8 → List UInt8
  | [] => []
  | second :: rest => if range.1 ≤ second && second ≤ range.2 then
      second :: (rest.take (n-1)).takeWhile fun byte => 0x80 ≤ byte && byte ≤ 0xBF
    else []

/-- Replace each longest ill-formed part by U+FFFD. The fuel is a bound on the bytes. -/
def replaceInvalid : ℕ → List UInt8 → Str
  | 0,_ => []
  | _,[] => []
  | fuel+1,lead :: rest =>
    if lead < 0x80 then Char.ofNat lead.toNat :: replaceInvalid fuel rest
    else match utf8Follow lead with
    | none => '\uFFFD' :: replaceInvalid fuel rest
    | some (range,n) =>
      let follow := utf8Rest range n rest
      (if follow.length = n then (decodeUtf8 (lead :: follow)).getD [] else ['\uFFFD']) ++
        replaceInvalid fuel (rest.drop follow.length)

def fromUtf8Lossy (bytes : List UInt8) : Str :=
  (decodeUtf8 bytes).getD (replaceInvalid bytes.length bytes)

/-- Well-formed text is decoded as it is. -/
theorem fromUtf8Lossy_of_decodeUtf8 {bytes : List UInt8} {s : Str} (h : decodeUtf8 bytes = some s) :
    fromUtf8Lossy bytes = s := by rw [fromUtf8Lossy,h,Option.getD_some]

example : fromUtf8Lossy [0x61,0xE2,0x82,0x62,0xFF,0xC3,0xA9] = ['a','\uFFFD','b','\uFFFD','é'] := by
  decide

/-- Decoding is the inverse of encoding. -/
theorem decodeUtf8_eq_some {bytes : List UInt8} {s : Str} :
    decodeUtf8 bytes = some s ↔ bytes = s.flatMap String.utf8EncodeChar := by
  have hencode : ∀ t : Str, List.utf8Encode t = ⟨(t.flatMap String.utf8EncodeChar).toArray⟩ := by
    intro t
    apply ByteArray.ext
    simp [List.utf8Encode]
  unfold decodeUtf8
  constructor
  · intro h
    obtain ⟨a,ha,rfl⟩ := Option.map_eq_some_iff.mp h
    have hs : (ByteArray.utf8Decode? ⟨bytes.toArray⟩).isSome := by simp [ha]
    have hb := ByteArray.utf8Encode_get_utf8Decode? (b := ⟨bytes.toArray⟩) (h := hs)
    simp only [ha,Option.get_some,hencode] at hb
    simpa using (congrArg ByteArray.data hb).symm
  · rintro rfl
    rw [← hencode,List.utf8Decode?_utf8Encode]
    rfl

theorem le_of_mem_utf8EncodeChar {c : Char} (h : 128 ≤ c.toNat) :
    ∀ byte ∈ String.utf8EncodeChar c, 0x80 ≤ byte := by
  unfold String.utf8EncodeChar
  change ∀ byte ∈ (if c.toNat ≤ 127 then _ else _), _
  rw [if_neg (by omega)]
  split_ifs
  all_goals
    simp only [List.mem_cons,List.not_mem_nil,or_false,UInt8.le_iff_toNat_le]
    intro byte hb
    rcases hb with rfl | rfl | rfl | rfl
    all_goals
      rw [UInt8.toNat_ofNat']
      change 128 ≤ _
      omega

/-- A character is encoded by one byte below 0x80 or by several bytes from 0x80 on. -/
theorem utf8EncodeChar_cases (c : Char) :
    (∃ byte, byte < 0x80 ∧ String.utf8EncodeChar c = [byte]) ∨
      ∀ byte ∈ String.utf8EncodeChar c, 0x80 ≤ byte := by
  by_cases h : c.toNat < 128
  · left
    refine ⟨_,?_,utf8EncodeChar_of_lt h⟩
    rw [UInt8.lt_iff_toNat_lt,UInt8.toNat_ofNat']
    change _ < 128
    omega
  · right
    exact le_of_mem_utf8EncodeChar (by omega)

/-- The bytes encode some text. -/
def IsUtf8 (bytes : List UInt8) : Prop := ∃ s : Str, bytes = s.flatMap String.utf8EncodeChar

lemma isSome_decodeUtf8 {bytes : List UInt8} : (decodeUtf8 bytes).isSome ↔ IsUtf8 bytes := by
  simp only [Option.isSome_iff_exists,decodeUtf8_eq_some,IsUtf8]

lemma isUtf8_nil : IsUtf8 [] := ⟨[],rfl⟩

lemma isUtf8_append {a b : List UInt8} (ha : IsUtf8 a) (hb : IsUtf8 b) : IsUtf8 (a ++ b) := by
  obtain ⟨s,rfl⟩ := ha
  obtain ⟨t,rfl⟩ := hb
  exact ⟨s ++ t,List.flatMap_append.symm⟩

lemma isUtf8_singleton {byte : UInt8} (h : byte < 0x80) : IsUtf8 [byte] := by
  have hlt : byte.toNat < 128 := UInt8.lt_iff_toNat_lt.mp h
  have hc : (Char.ofNat byte.toNat).toNat = byte.toNat := toNat_charOfNat (by omega)
  refine ⟨[Char.ofNat byte.toNat],?_⟩
  rw [List.flatMap_singleton,utf8EncodeChar_of_lt (by omega),hc,UInt8.ofNat_toNat]

lemma isUtf8_encodeChar (c : Char) : IsUtf8 (String.utf8EncodeChar c) :=
  ⟨[c],by simp⟩

/-- Bytes below 0x80 may be replaced by one another. -/
theorem isUtf8_of_forall₂ {a b : List UInt8}
    (h : List.Forall₂ (fun x y => x = y ∨ x < 0x80 ∧ y < 0x80) b a) (ha : IsUtf8 a) : IsUtf8 b := by
  obtain ⟨s,rfl⟩ := ha
  induction s generalizing b with
  | nil =>
    cases h
    exact isUtf8_nil
  | cons c s ih =>
    rw [List.flatMap_cons] at h
    have hfirst := List.forall₂_take_append _ _ _ h
    have hrest := ih (List.forall₂_drop_append _ _ _ h)
    rw [← List.take_append_drop (String.utf8EncodeChar c).length b]
    refine isUtf8_append ?_ hrest
    generalize List.take (String.utf8EncodeChar c).length b = first at hfirst
    rcases utf8EncodeChar_cases c with ⟨byte,hbyte,he⟩ | hhigh
    · rw [he] at hfirst
      obtain ⟨x,_,hx,hnil,rfl⟩ := List.forall₂_cons_right_iff.mp hfirst
      cases hnil
      exact isUtf8_singleton (hx.elim (fun h => h ▸ hbyte) And.left)
    · have heq : first = String.utf8EncodeChar c := by
        generalize String.utf8EncodeChar c = encoded at hfirst hhigh
        induction hfirst with
        | nil => rfl
        | cons hx _ ih =>
          obtain ⟨hy,hhigh⟩ := List.forall_mem_cons.mp hhigh
          rw [ih hhigh,hx.resolve_right fun h => absurd h.2 (UInt8.not_lt.mpr hy)]
      rw [heq]
      exact isUtf8_encodeChar c

/-- A byte below 0x80 belongs to no other character, so text can be cut at it. -/
theorem isUtf8_append_cons {sep : UInt8} {a b : List UInt8} (h : sep < 0x80) :
    IsUtf8 (a ++ sep :: b) ↔ IsUtf8 a ∧ IsUtf8 b := by
  constructor
  · rintro ⟨s,hs⟩
    induction s generalizing a with
    | nil => simp at hs
    | cons c s ih =>
      rw [List.flatMap_cons,List.append_eq_append_iff] at hs
      obtain ⟨mid,hc,hrest⟩ | ⟨mid,rfl,hrest⟩ := hs
      · cases mid with
        | nil =>
          rw [List.append_nil] at hc
          have hb := ih (a := []) hrest
          exact ⟨hc ▸ isUtf8_encodeChar c,hb.2⟩
        | cons x mid =>
          obtain ⟨rfl,hb⟩ := List.cons.inj hrest
          have hmem : sep ∈ String.utf8EncodeChar c := by simp [hc]
          rcases utf8EncodeChar_cases c with ⟨byte,-,he⟩ | hhigh
          · rw [he] at hc
            obtain ⟨rfl,hmid⟩ : a = [] ∧ mid = [] := by
              cases a <;> simp_all
            rw [hmid] at hb
            exact ⟨isUtf8_nil,s,hb⟩
          · exact absurd h (UInt8.not_lt.mpr (hhigh sep hmem))
      · obtain ⟨hmid,hb⟩ := ih hrest.symm
        exact ⟨isUtf8_append (isUtf8_encodeChar c) hmid,hb⟩
  · rintro ⟨ha,hb⟩
    exact isUtf8_append ha (isUtf8_append (isUtf8_singleton h) hb)

/-- Pieces that are joined by a byte below 0x80 are text together exactly if each of them is. -/
theorem isUtf8_intercalate {sep : UInt8} {pieces : List (List UInt8)} (h : sep < 0x80) :
    IsUtf8 ([sep].intercalate pieces) ↔ ∀ piece ∈ pieces, IsUtf8 piece := by
  induction pieces with
  | nil => simp [isUtf8_nil]
  | cons first rest ih =>
    cases rest with
    | nil => simp
    | cons second rest =>
      rw [List.intercalate_cons_cons,List.append_assoc,List.singleton_append,
        isUtf8_append_cons h,ih,List.forall_mem_cons (a := first)]

end SoapAxum.Text
