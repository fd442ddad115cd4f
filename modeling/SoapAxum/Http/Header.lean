import SoapAxum.Data.Multimap
import SoapAxum.Text.Ascii

/-! Header names, header values and header maps. A name is kept in its normalized lowercase form,
a value is the byte string that travels on the wire. -/
namespace SoapAxum.Http
open SoapAxum.Text SoapAxum.Data

/-- The characters of a normalized header name. -/
def isHeaderNameChar (c : Char) : Bool :=
  isAsciiDigit c || (97 ≤ c.toNat && c.toNat ≤ 122) ||
    ['!','#','$','%','&','\'','*','+','-','.','^','_','\x60','|','~'].contains c

structure HeaderName where
  text : Str
  valid : (!text.isEmpty && text.all isHeaderNameChar) = true
  deriving DecidableEq,Repr

namespace HeaderName

def accept : HeaderName := ⟨"accept".toList,by decide⟩
def cacheControl : HeaderName := ⟨"cache-control".toList,by decide⟩
def contentSecurityPolicy : HeaderName := ⟨"content-security-policy".toList,by decide⟩
def contentType : HeaderName := ⟨"content-type".toList,by decide⟩
def cookie : HeaderName := ⟨"cookie".toList,by decide⟩
def referrerPolicy : HeaderName := ⟨"referrer-policy".toList,by decide⟩
def retryAfter : HeaderName := ⟨"retry-after".toList,by decide⟩
def setCookie : HeaderName := ⟨"set-cookie".toList,by decide⟩
def strictTransportSecurity : HeaderName := ⟨"strict-transport-security".toList,by decide⟩
def vary : HeaderName := ⟨"vary".toList,by decide⟩
def xContentTypeOptions : HeaderName := ⟨"x-content-type-options".toList,by decide⟩
def xFrameOptions : HeaderName := ⟨"x-frame-options".toList,by decide⟩

end HeaderName

/-- A visible character that is not a delimiter. -/
def IsTchar (c : Char) : Prop := 33 ≤ c.toNat ∧ c.toNat < 127 ∧
  c ∉ ['(',')',',','/',':',';','<','=','>','?','@','[','\\',']','\x7b','\x7d','"']

instance (c : Char) : Decidable (IsTchar c) := inferInstanceAs (Decidable (_ ∧ _ ∧ _))

def IsToken (s : Str) : Prop := s ≠ [] ∧ ∀ c ∈ s, IsTchar c

lemma isToken_of_all {s : Str} (hn : s ≠ []) (h : s.all (fun c => decide (IsTchar c)) = true) :
    IsToken s := ⟨hn,fun c hc => of_decide_eq_true (List.all_eq_true.mp h c hc)⟩

/-- Bytes allowed in a header value: no control characters other than the tab. -/
def isValidByte (b : UInt8) : Bool := (32 ≤ b && b != 127) || b == 9

/-- Bytes of a header value that can be read as text. -/
def isVisibleAscii (b : UInt8) : Bool := (32 ≤ b && b < 127) || b == 9

structure HeaderValue where
  bytes : List UInt8
  valid : bytes.all isValidByte = true
  deriving DecidableEq,Repr

/-- The UTF-8 bytes of a text. -/
def utf8 (s : Str) : List UInt8 := s.flatMap String.utf8EncodeChar

/-- Each byte as the character with its code. -/
def latin1 (bs : List UInt8) : Str := bs.map fun b => Char.ofNat b.toNat

namespace HeaderValue

def fromStr (s : Str) : Option HeaderValue :=
  if h : (utf8 s).all isValidByte = true then some ⟨utf8 s,h⟩ else none

def fromStatic (s : String) (h : (utf8 s.toList).all isValidByte = true) : HeaderValue :=
  ⟨utf8 s.toList,h⟩

def toStr (v : HeaderValue) : Option Str :=
  if v.bytes.all isVisibleAscii then some (latin1 v.bytes) else none

/-- The value can be read as visible text. -/
def IsVisible (v : HeaderValue) : Prop := v.bytes.all isVisibleAscii = true

instance (v : HeaderValue) : Decidable v.IsVisible := inferInstanceAs (Decidable (_ = true))

lemma toStr_eq_some {v : HeaderValue} {s : Str} :
    v.toStr = some s ↔ v.IsVisible ∧ s = latin1 v.bytes := by
  rw [toStr]
  split_ifs with h
  · simp [IsVisible,h,eq_comm]
  · simp [IsVisible,h]

lemma toStr_eq_none {v : HeaderValue} : v.toStr = none ↔ ¬ v.IsVisible := by
  simp [toStr,IsVisible]

lemma fromStatic_eq_fromStr {s : String} (h : (utf8 s.toList).all isValidByte = true) :
    fromStr s.toList = some (fromStatic s h) := dif_pos h

end HeaderValue

/-- Characters that a readable header value may contain. -/
def isVisibleChar (c : Char) : Bool := (32 ≤ c.toNat && c.toNat < 127) || c.toNat == 9

def VisibleText (s : Str) : Prop := ∀ c ∈ s, isVisibleChar c = true

lemma toNat_lt_of_isVisibleChar {c : Char} (h : isVisibleChar c = true) : c.toNat < 128 := by
  simp only [isVisibleChar,Bool.or_eq_true,Bool.and_eq_true,decide_eq_true_eq,beq_iff_eq] at h
  omega

lemma isVisibleChar_ofNat (b : UInt8) : isVisibleChar (Char.ofNat b.toNat) = isVisibleAscii b := by
  rw [isVisibleChar,toNat_charOfNat b.toNat_lt,isVisibleAscii,Bool.eq_iff_iff]
  simp only [Bool.or_eq_true,Bool.and_eq_true,decide_eq_true_eq,beq_iff_eq,UInt8.le_iff_toNat_le,
    UInt8.lt_iff_toNat_lt,← UInt8.toNat_inj]
  rfl

/-- A value is visible exactly if it is visible text, byte by byte. -/
theorem HeaderValue.isVisible_iff {v : HeaderValue} : v.IsVisible ↔ VisibleText (latin1 v.bytes) := by
  simp only [IsVisible,VisibleText,latin1,List.all_eq_true,List.mem_map,forall_exists_index,and_imp,
    forall_apply_eq_imp_iff₂,isVisibleChar_ofNat]

lemma HeaderValue.visibleText_of_toStr {v : HeaderValue} {s : Str} (h : v.toStr = some s) :
    VisibleText s := by
  obtain ⟨hv,rfl⟩ := toStr_eq_some.mp h
  exact isVisible_iff.mp hv

lemma utf8_append (s t : Str) : utf8 (s ++ t) = utf8 s ++ utf8 t := List.flatMap_append

lemma utf8_cons_of_lt {c : Char} (s : Str) (h : c.toNat < 128) :
    utf8 (c :: s) = UInt8.ofNat c.toNat :: utf8 s := by
  unfold utf8
  rw [List.flatMap_cons,utf8EncodeChar_of_lt h,List.singleton_append]

/-- An ASCII text is encoded byte by byte. -/
theorem utf8_eq_map {s : Str} (h : ∀ c ∈ s, c.toNat < 128) :
    utf8 s = s.map fun c => UInt8.ofNat c.toNat := by
  induction s with
  | nil => rfl
  | cons c s ih =>
    obtain ⟨hc,hs⟩ := List.forall_mem_cons.mp h
    rw [utf8_cons_of_lt s hc,List.map_cons,ih hs]

lemma latin1_utf8 {s : Str} (h : ∀ c ∈ s, c.toNat < 128) : latin1 (utf8 s) = s := by
  rw [utf8_eq_map h,latin1,List.map_map]
  refine (List.map_congr_left fun c hc => ?_).trans (List.map_id s)
  have hlt := h c hc
  simp only [Function.comp_apply,UInt8.toNat_ofNat',id_eq]
  rw [Nat.mod_eq_of_lt (by omega),Char.ofNat_toNat]

/-- Visible text is stored as it is and read back unchanged. -/
theorem HeaderValue.fromStr_visible {s : Str} (h : VisibleText s) :
    ∃ v, HeaderValue.fromStr s = some v ∧ v.IsVisible ∧ v.toStr = some s := by
  have hlt : ∀ c ∈ s, c.toNat < 128 := fun c hc => toNat_lt_of_isVisibleChar (h c hc)
  have hv : (utf8 s).all isVisibleAscii = true := by
    rw [utf8_eq_map hlt,List.all_map,List.all_eq_true]
    intro c hc
    exact forall_ascii (P := fun c => isVisibleChar c = true → isVisibleAscii (UInt8.ofNat c.toNat) = true)
      (by decide) c (hlt c hc) (h c hc)
  have hb : (utf8 s).all isValidByte = true := by
    rw [List.all_eq_true] at hv ⊢
    intro b hbm
    have := hv b hbm
    simp only [isVisibleAscii,isValidByte,Bool.or_eq_true,Bool.and_eq_true,decide_eq_true_eq,
      beq_iff_eq,bne_iff_ne] at this ⊢
    rcases this with ⟨h1,h2⟩ | h9
    · exact Or.inl ⟨h1,fun h => by subst h; exact absurd h2 (by decide)⟩
    · exact Or.inr h9
  refine ⟨⟨utf8 s,hb⟩,dif_pos hb,hv,?_⟩
  rw [toStr_eq_some]
  exact ⟨hv,(latin1_utf8 hlt).symm⟩

abbrev HeaderMap := Multimap HeaderName HeaderValue

end SoapAxum.Http
