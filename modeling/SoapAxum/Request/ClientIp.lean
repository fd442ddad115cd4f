import SoapAxum.Request.Head
import SoapAxum.Text.Digits

/-! How a client address is written, as the standard library does it: dotted decimal for version 4,
and for version 6 hexadecimal with the longest run of zeros left out. -/
namespace SoapAxum.Request
open SoapAxum.Text

def octets (address : BitVec 32) : List ℕ := fixedDigits 256 4 address.toNat
def segments (address : BitVec 128) : List ℕ := fixedDigits 65536 8 address.toNat

def displayV4 (address : BitVec 32) : Str :=
  ['.'].intercalate ((octets address).map (Nat.toDigits 10))

def toIpv4Mapped (address : BitVec 128) : Option (BitVec 32) :=
  if address.toNat/0x100000000 = 0xFFFF then some (address.setWidth 32) else none

structure Span where
  start : ℕ
  len : ℕ

/-- The longest run of zeros, the first one of those of equal length. -/
def longestZeros : List ℕ → ℕ → Span → Span → Span
  | [],_,_,longest => longest
  | segment :: rest,i,current,longest =>
    if segment = 0 then
      let current : Span := ⟨if current.len = 0 then i else current.start,current.len+1⟩
      longestZeros rest (i+1) current (if longest.len < current.len then current else longest)
    else longestZeros rest (i+1) ⟨0,0⟩ longest

/-- `fmt_subslice` of the standard library. -/
def colonHex (segments : List ℕ) : Str := [':'].intercalate (segments.map (Nat.toDigits 16))

def displayV6 (address : BitVec 128) : Str :=
  match toIpv4Mapped address with
  | some address => "::ffff:".toList ++ displayV4 address
  | none =>
    let zeroes := longestZeros (segments address) 0 ⟨0,0⟩ ⟨0,0⟩
    if 1 < zeroes.len then
      colonHex ((segments address).take zeroes.start) ++ "::".toList ++
        colonHex ((segments address).drop (zeroes.start+zeroes.len))
    else colonHex (segments address)

def IpAddr.display : IpAddr → Str
  | .v4 address => displayV4 address
  | .v6 address => displayV6 address

example : (IpAddr.v4 0xC0000201).display = "192.0.2.1".toList := by decide
example : (IpAddr.v6 0x20010DB8000000000001000000000001).display = "2001:db8::1:0:0:1".toList := by
  decide

/-- The span covers zeros only. -/
def IsZeroSpan (segments : List ℕ) (span : Span) : Prop :=
  ∃ before after, segments = before ++ List.replicate span.len 0 ++ after ∧
    before.length = span.start

lemma IsZeroSpan.append {segments : List ℕ} {span : Span} (h : IsZeroSpan segments span)
    (rest : List ℕ) : IsZeroSpan (segments ++ rest) span := by
  obtain ⟨before,after,rfl,hb⟩ := h
  exact ⟨before,after ++ rest,by rw [List.append_assoc],hb⟩

/-- The current run ends where the scan stands. -/
def IsCurrentSpan (segments : List ℕ) (span : Span) : Prop :=
  ∃ before, segments = before ++ List.replicate span.len 0 ∧
    (span.len ≠ 0 → before.length = span.start)

theorem isZeroSpan_longestZeros (rest : List ℕ) {scanned : List ℕ} {current longest : Span}
    (hc : IsCurrentSpan scanned current) (hl : IsZeroSpan scanned longest) :
    IsZeroSpan (scanned ++ rest) (longestZeros rest scanned.length current longest) := by
  induction rest generalizing scanned current longest with
  | nil => rwa [List.append_nil]
  | cons segment rest ih =>
    have hlength : scanned.length+1 = (scanned ++ [segment]).length := by simp
    have hlongest := hl.append [segment]
    rw [List.append_cons]
    unfold longestZeros
    rw [hlength]
    by_cases h0 : segment = 0
    · obtain ⟨before,rfl,hbefore⟩ := hc
      subst h0
      rw [if_pos rfl]
      generalize hstart : (if current.len = 0 then (before ++ List.replicate current.len 0).length
        else current.start) = start
      have hb : before.length = start := by
        rw [← hstart]
        split_ifs with hlen
        · rw [hlen,List.replicate_zero,List.append_nil]
        · exact hbefore hlen
      have happend : before ++ List.replicate current.len 0 ++ [0] =
          before ++ List.replicate (current.len+1) 0 := by
        rw [List.replicate_succ',List.append_assoc]
      apply ih
      · exact ⟨before,happend,fun _ => hb⟩
      · split_ifs with hlt
        · exact ⟨before,[],by rw [happend,List.append_nil],hb⟩
        · exact hlongest
    · rw [if_neg h0]
      apply ih
      · exact ⟨scanned ++ [segment],by simp,fun h => absurd rfl h⟩
      · exact hlongest

/-- Leaving out the run of zeros loses nothing but its length. -/
theorem segments_eq_of_longestZeros (address : BitVec 128) :
    IsZeroSpan (segments address) (longestZeros (segments address) 0 ⟨0,0⟩ ⟨0,0⟩) := by
  have hc : IsCurrentSpan [] ⟨0,0⟩ := ⟨[],rfl,fun _ => rfl⟩
  have hl : IsZeroSpan [] ⟨0,0⟩ := ⟨[],[],rfl,rfl⟩
  exact isZeroSpan_longestZeros (segments address) hc hl

/-- The three forms of a version 6 address. -/
theorem displayV6_cases (address : BitVec 128) :
    (address.toNat/0x100000000 = 0xFFFF ∧
        displayV6 address = "::ffff:".toList ++ displayV4 (address.setWidth 32)) ∨
      (∃ before len after, segments address = before ++ List.replicate len 0 ++ after ∧
        displayV6 address = colonHex before ++ "::".toList ++ colonHex after) ∨
      displayV6 address = colonHex (segments address) := by
  unfold displayV6 toIpv4Mapped
  split_ifs with hmapped
  · exact Or.inl ⟨hmapped,rfl⟩
  · right
    obtain ⟨before,after,hs,hb⟩ := segments_eq_of_longestZeros address
    generalize longestZeros (segments address) 0 ⟨0,0⟩ ⟨0,0⟩ = zeroes at hs hb
    simp only
    split_ifs with hlen
    · left
      refine ⟨before,zeroes.len,after,hs,?_⟩
      have htake : (segments address).take zeroes.start = before := by
        rw [hs,← hb,List.append_assoc,List.take_left]
      have hdrop : (segments address).drop (zeroes.start+zeroes.len) = after := by
        rw [hs,← hb]
        apply List.drop_left'
        simp
      rw [htake,hdrop]
    · exact Or.inr rfl

/-- The characters of a written address. -/
def isAddressChar (c : Char) : Bool := isHexChar c || c == '.' || c == ':'

lemma forall_mem_joined {sep : Char} {b : ℕ} (hb : 1 < b) (hb' : b ≤ 16) (numbers : List ℕ) :
    ∀ c ∈ [sep].intercalate (numbers.map (Nat.toDigits b)), isHexChar c = true ∨ c = sep := by
  apply forall_mem_intercalate
  · intro c hc
    exact Or.inr (List.mem_singleton.mp hc)
  · rw [List.forall_mem_map]
    intro n _ c hc
    exact Or.inl (isHexChar_of_mem_toDigits hb hb' hc)

/-- Joined numbers are taken apart again at the separator, which is no digit. -/
theorem splitOn_joined {sep : Char} {b : ℕ} (hb : 1 < b) (hb' : b ≤ 16)
    (hs : isHexChar sep = false) (numbers : List ℕ) :
    ([sep].intercalate (numbers.map (Nat.toDigits b))).splitOn sep =
      if numbers = [] then [[]] else numbers.map (Nat.toDigits b) := by
  split_ifs with h
  · rw [h]
    rfl
  · apply List.splitOn_intercalate
    · rw [List.forall_mem_map]
      intro n _ hm
      rw [isHexChar_of_mem_toDigits hb hb' hm] at hs
      contradiction
    · simpa using h

theorem pieces_injective {b : ℕ} (hb : 1 < b) (hb' : b ≤ 16) {numbers numbers' : List ℕ}
    (h : (if numbers = [] then [[]] else numbers.map (Nat.toDigits b)) =
      if numbers' = [] then [[]] else numbers'.map (Nat.toDigits b)) : numbers = numbers' := by
  cases numbers with
  | nil =>
    cases numbers' with
    | nil => rfl
    | cons n rest => exact absurd (List.cons.inj h).1.symm Nat.toDigits_ne_nil
  | cons m numbers =>
    cases numbers' with
    | nil => exact absurd (List.cons.inj h).1 Nat.toDigits_ne_nil
    | cons n rest => exact List.map_injective_iff.mpr (toDigits_injective hb hb') h

lemma joined_injective {sep : Char} {b : ℕ} (hb : 1 < b) (hb' : b ≤ 16)
    (hs : isHexChar sep = false) {numbers numbers' : List ℕ}
    (h : [sep].intercalate (numbers.map (Nat.toDigits b)) =
      [sep].intercalate (numbers'.map (Nat.toDigits b))) : numbers = numbers' := by
  have hsplit := congrArg (List.splitOn sep) h
  rw [splitOn_joined hb hb' hs,splitOn_joined hb hb' hs] at hsplit
  exact pieces_injective hb hb' hsplit

theorem displayV4_injective : Function.Injective displayV4 := by
  intro a b h
  have hoctets := joined_injective (by decide) (by decide) (by decide) h
  have ha : a.toNat < 256^4 := by
    have := a.isLt
    omega
  have hb : b.toNat < 256^4 := by
    have := b.isLt
    omega
  apply BitVec.eq_of_toNat_eq
  exact fixedDigits_inj ha hb hoctets

theorem segments_injective : Function.Injective segments := by
  intro a b h
  have ha : a.toNat < 65536^8 := by
    have := a.isLt
    omega
  have hb : b.toNat < 65536^8 := by
    have := b.isLt
    omega
  apply BitVec.eq_of_toNat_eq
  exact fixedDigits_inj ha hb h

lemma splitOn_colonHex (numbers : List ℕ) :
    (colonHex numbers).splitOn ':' =
      if numbers = [] then [[]] else numbers.map (Nat.toDigits 16) :=
  splitOn_joined (by decide) (by decide) (by decide) numbers

theorem splitOn_compressed (before after : List ℕ) :
    (colonHex before ++ "::".toList ++ colonHex after).splitOn ':' =
      (if before = [] then [[]] else before.map (Nat.toDigits 16)) ++
        [] :: if after = [] then [[]] else after.map (Nat.toDigits 16) := by
  have hcolons : colonHex before ++ "::".toList ++ colonHex after =
      colonHex before ++ ':' :: ([] ++ ':' :: colonHex after) := by
    rw [List.append_assoc]
    rfl
  rw [hcolons,List.splitOn_append_cons_self,List.splitOn_append_cons_self,splitOn_colonHex,
    splitOn_colonHex]
  rfl

/-- What stands on each side of the double colon is determined. -/
theorem compressed_inj {before before' after after' : List ℕ}
    (h : colonHex before ++ "::".toList ++ colonHex after =
      colonHex before' ++ "::".toList ++ colonHex after') : before = before' ∧ after = after' := by
  have hnil : ∀ numbers : List ℕ, ([] : Str) ∉ numbers.map (Nat.toDigits 16) := by
    intro numbers hm
    obtain ⟨n,-,hn⟩ := List.mem_map.mp hm
    exact absurd hn Nat.toDigits_ne_nil
  have hsplit := congrArg (List.splitOn ':') h
  rw [splitOn_compressed,splitOn_compressed] at hsplit
  cases before with
  | nil =>
    cases before' with
    | nil =>
      have hafter := (List.cons.inj (List.cons.inj hsplit).2).2
      exact ⟨rfl,pieces_injective (by decide) (by decide) hafter⟩
    | cons n before' => exact absurd (List.cons.inj hsplit).1.symm Nat.toDigits_ne_nil
  | cons m before =>
    cases before' with
    | nil => exact absurd (List.cons.inj hsplit).1 Nat.toDigits_ne_nil
    | cons n before' =>
      rw [if_neg (List.cons_ne_nil _ _),if_neg (List.cons_ne_nil _ _)] at hsplit
      obtain ⟨hbefore,hafter⟩ := append_cons_inj (hnil _) (hnil _) hsplit
      exact ⟨List.map_injective_iff.mpr (toDigits_injective (by decide) (by decide)) hbefore,
        pieces_injective (by decide) (by decide) hafter⟩

/-- A compressed address has an empty piece, a full one has none. -/
theorem compressed_ne_full (before after numbers : List ℕ) (hn : numbers ≠ []) :
    colonHex before ++ "::".toList ++ colonHex after ≠ colonHex numbers := by
  intro h
  have hsplit := congrArg (List.splitOn ':') h
  rw [splitOn_compressed,splitOn_colonHex,if_neg hn] at hsplit
  have hm : ([] : Str) ∈ numbers.map (Nat.toDigits 16) := by
    rw [← hsplit]
    simp
  obtain ⟨n,-,hd⟩ := List.mem_map.mp hm
  exact absurd hd Nat.toDigits_ne_nil

theorem sep_mem_joined {sep : Char} {b : ℕ} {numbers : List ℕ} (h : 1 < numbers.length) :
    sep ∈ [sep].intercalate (numbers.map (Nat.toDigits b)) := by
  cases numbers with
  | nil => contradiction
  | cons m rest =>
    cases rest with
    | nil => contradiction
    | cons n rest =>
      rw [List.map_cons,List.map_cons,List.intercalate_cons_cons]
      simp

lemma colon_not_mem_displayV4 (address : BitVec 32) : ':' ∉ displayV4 address := by
  intro hm
  rcases forall_mem_joined (by decide) (by decide) (octets address) ':' hm with h | h
  · exact absurd h (by decide)
  · exact absurd h (by decide)

lemma dot_mem_displayV4 (address : BitVec 32) : '.' ∈ displayV4 address := by
  apply sep_mem_joined
  unfold octets
  rw [length_fixedDigits]
  decide

lemma dot_not_mem_colonHex (numbers : List ℕ) : '.' ∉ colonHex numbers := by
  intro hm
  rcases forall_mem_joined (by decide) (by decide) numbers '.' hm with h | h
  · exact absurd h (by decide)
  · exact absurd h (by decide)

lemma dot_not_mem_compressed (before after : List ℕ) :
    '.' ∉ colonHex before ++ "::".toList ++ colonHex after := by
  simp only [List.mem_append,not_or]
  exact ⟨⟨dot_not_mem_colonHex before,by decide⟩,dot_not_mem_colonHex after⟩

lemma segments_ne_nil (address : BitVec 128) : segments address ≠ [] := by
  intro h
  have hlength := congrArg List.length h
  unfold segments at hlength
  rw [length_fixedDigits] at hlength
  contradiction

theorem colon_mem_displayV6 (address : BitVec 128) : ':' ∈ displayV6 address := by
  rcases displayV6_cases address with ⟨-,he⟩ | ⟨before,len,after,-,he⟩ | he
  · rw [he]
    exact List.mem_append_left _ (by decide)
  · rw [he]
    exact List.mem_append_left _ (List.mem_append_right _ (by decide))
  · rw [he]
    apply sep_mem_joined
    unfold segments
    rw [length_fixedDigits]
    decide

theorem segments_inj_of_compressed {a b : BitVec 128} {before after : List ℕ} {len len' : ℕ}
    (ha : segments a = before ++ List.replicate len 0 ++ after)
    (hb : segments b = before ++ List.replicate len' 0 ++ after) : a = b := by
  have hla := congrArg List.length ha
  have hlb := congrArg List.length hb
  unfold segments at hla hlb
  simp only [length_fixedDigits,List.length_append,List.length_replicate] at hla hlb
  have hlen : len = len' := by omega
  apply segments_injective
  rw [ha,hb,hlen]

/-- Only a mapped version 4 address has a dot. -/
theorem displayV6_injective : Function.Injective displayV6 := by
  intro a b h
  rcases displayV6_cases a with ⟨hma,ha⟩ | ⟨before,len,after,hsa,ha⟩ | ha
  · have hdot : '.' ∈ displayV6 a := by
      rw [ha]
      exact List.mem_append_right _ (dot_mem_displayV4 _)
    rcases displayV6_cases b with ⟨hmb,hb⟩ | ⟨before',len',after',-,hb⟩ | hb
    · rw [ha,hb] at h
      have hlow := congrArg BitVec.toNat (displayV4_injective (List.append_cancel_left h))
      rw [BitVec.toNat_setWidth,BitVec.toNat_setWidth] at hlow
      apply BitVec.eq_of_toNat_eq
      omega
    · rw [h,hb] at hdot
      exact absurd hdot (dot_not_mem_compressed before' after')
    · rw [h,hb] at hdot
      exact absurd hdot (dot_not_mem_colonHex (segments b))
  · rcases displayV6_cases b with ⟨hmb,hb⟩ | ⟨before',len',after',hsb,hb⟩ | hb
    · have hdot := dot_not_mem_compressed before after
      rw [← ha,h,hb] at hdot
      exact absurd (List.mem_append_right _ (dot_mem_displayV4 _)) hdot
    · rw [ha,hb] at h
      obtain ⟨rfl,rfl⟩ := compressed_inj h
      exact segments_inj_of_compressed hsa hsb
    · rw [ha,hb] at h
      exact absurd h (compressed_ne_full before after (segments b) (segments_ne_nil b))
  · rcases displayV6_cases b with ⟨hmb,hb⟩ | ⟨before',len',after',hsb,hb⟩ | hb
    · have hdot := dot_not_mem_colonHex (segments a)
      rw [← ha,h,hb] at hdot
      exact absurd (List.mem_append_right _ (dot_mem_displayV4 _)) hdot
    · rw [ha,hb] at h
      exact absurd h.symm (compressed_ne_full before' after' (segments a) (segments_ne_nil a))
    · rw [ha,hb] at h
      exact segments_injective (joined_injective (by decide) (by decide) (by decide) h)

/-- Different addresses are written differently. -/
theorem display_injective : Function.Injective IpAddr.display := by
  intro a b h
  cases a with
  | v4 a =>
    cases b with
    | v4 b => rw [displayV4_injective h]
    | v6 b =>
      have hcolon := colon_mem_displayV6 b
      change displayV4 a = displayV6 b at h
      rw [← h] at hcolon
      exact absurd hcolon (colon_not_mem_displayV4 a)
  | v6 a =>
    cases b with
    | v4 b =>
      have hcolon := colon_mem_displayV6 a
      change displayV6 a = displayV4 b at h
      rw [h] at hcolon
      exact absurd hcolon (colon_not_mem_displayV4 b)
    | v6 b => rw [displayV6_injective h]

lemma isAddressChar_displayV4 (address : BitVec 32) :
    ∀ c ∈ displayV4 address, isAddressChar c = true := by
  intro c hc
  unfold isAddressChar
  rcases forall_mem_joined (by decide) (by decide) (octets address) c hc with h | rfl
  · rw [h]
    rfl
  · rfl

lemma isAddressChar_colonHex (numbers : List ℕ) :
    ∀ c ∈ colonHex numbers, isAddressChar c = true := by
  intro c hc
  unfold isAddressChar
  rcases forall_mem_joined (by decide) (by decide) numbers c hc with h | rfl
  · rw [h]
    rfl
  · rfl

/-- An address is written in hexadecimal digits, dots and colons. -/
theorem isAddressChar_display (address : IpAddr) : ∀ c ∈ address.display, isAddressChar c = true := by
  have happend : ∀ s t : Str, (∀ c ∈ s, isAddressChar c = true) → (∀ c ∈ t, isAddressChar c = true) →
      ∀ c ∈ s ++ t, isAddressChar c = true := by
    intro s t hs ht
    exact List.forall_mem_append.mpr ⟨hs,ht⟩
  cases address with
  | v4 address => exact isAddressChar_displayV4 address
  | v6 address =>
    change ∀ c ∈ displayV6 address, _
    rcases displayV6_cases address with ⟨-,he⟩ | ⟨before,len,after,-,he⟩ | he
    · rw [he]
      exact happend _ _ (List.all_eq_true.mp (by decide)) (isAddressChar_displayV4 _)
    · rw [he]
      exact happend _ _ (happend _ _ (isAddressChar_colonHex before)
        (List.all_eq_true.mp (by decide))) (isAddressChar_colonHex after)
    · rw [he]
      exact isAddressChar_colonHex _

end SoapAxum.Request
