import Mathlib.Algebra.Group.Nat.Defs
import SoapAxum.Http.Reference
import SoapAxum.Request.Accept

/-! The `Accept` lists of the protocol, and how far the adapter honours them. Among the ranges that
match JSON the most specific one decides. -/
namespace SoapAxum.Request
open SoapAxum.Http SoapAxum.Text SoapAxum.Data SoapAxum.Semantics

/-- A media range without parameters. -/
inductive MediaRange where
  | any
  | typeOnly (kind : Str)
  | exact (kind subtype : Str)
  deriving DecidableEq,Repr

namespace MediaRange

def kind : MediaRange → Str
  | any => ['*']
  | typeOnly kind => kind
  | exact kind _ => kind

def subtype : MediaRange → Str
  | any => ['*']
  | typeOnly _ => ['*']
  | exact _ subtype => subtype

def text (range : MediaRange) : Str := range.kind ++ '/' :: range.subtype

def WellFormed : MediaRange → Prop
  | any => True
  | typeOnly kind => IsToken kind ∧ kind ≠ ['*']
  | exact kind subtype => (IsToken kind ∧ kind ≠ ['*']) ∧ IsToken subtype ∧ subtype ≠ ['*']

/-- Ranges are compared without regard to case. -/
def lower : MediaRange → MediaRange
  | any => any
  | typeOnly kind => typeOnly (kind.map toAsciiLower)
  | exact kind subtype => exact (kind.map toAsciiLower) (subtype.map toAsciiLower)

def applicationJson : MediaRange := exact "application".toList "json".toList
def application : MediaRange := typeOnly "application".toList

end MediaRange

/-- The number of thousandths that up to three decimals denote. -/
def thousandths (digits : Str) : ℕ :=
  digits.foldl (fun n c => 10*n+(c.toNat-48)) 0 * 10^(3-digits.length)

/-- The text of a quality and its thousandths. -/
inductive IsQvalue : Str → ℕ → Prop
  | zero : IsQvalue ['0'] 0
  | one : IsQvalue ['1'] 1000
  | zeroPoint (digits : Str) (hl : digits.length ≤ 3) (hd : ∀ c ∈ digits, isAsciiDigit c = true) :
      IsQvalue ('0' :: '.' :: digits) (thousandths digits)
  | onePoint (digits : Str) (hl : digits.length ≤ 3) (hd : ∀ c ∈ digits, c = '0') :
      IsQvalue ('1' :: '.' :: digits) 1000

/-- A media range with its quality in thousandths. -/
structure AcceptItem where
  range : MediaRange
  quality : ℕ

/-- Optional whitespace. -/
def IsOws (s : Str) : Prop := ∀ c ∈ s, c = ' ' ∨ c = '\t'

/-- The text of an item. Without a weight the quality is one. -/
inductive Spells : Str → AcceptItem → Prop
  | bare {before after : Str} {range : MediaRange} (hb : IsOws before) (ha : IsOws after)
      (hr : range.WellFormed) : Spells (before ++ range.text ++ after) ⟨range,1000⟩
  | weighted {before after left right value : Str} {q : Char} {range : MediaRange} {quality : ℕ}
      (hb : IsOws before) (ha : IsOws after) (hl : IsOws left) (hr : IsOws right)
      (hq : q = 'q' ∨ q = 'Q') (hv : IsQvalue value quality) (hw : range.WellFormed) :
      Spells (before ++ (range.text ++ left ++ ';' :: (right ++ q :: '=' :: value)) ++ after)
        ⟨range,quality⟩

/-- The header lines are comma-separated lists that spell the items one after the other. -/
def SpelledBy (values : List HeaderValue) (items : List AcceptItem) : Prop :=
  ∃ lists : List (List AcceptItem), items = lists.flatten ∧
    List.Forall₂ (fun value list => ∃ line, value.toStr = some line ∧
      List.Forall₂ Spells (line.splitOn ',') list) values lists

/-- The quality an item of the list gives to a range. -/
def listedQuality (items : List AcceptItem) (range : MediaRange) : Option ℕ :=
  (items.find? fun item => item.range.lower = range).map AcceptItem.quality

/-- The quality of the most specific listed range that matches JSON. -/
def mostSpecificQuality (items : List AcceptItem) : Option ℕ :=
  (listedQuality items .applicationJson).or
    ((listedQuality items .application).or (listedQuality items .any))

lemma toNat_lt_of_isAsciiDigit {c : Char} (h : isAsciiDigit c = true) : c.toNat < 128 := by
  simp only [isAsciiDigit,Bool.and_eq_true,decide_eq_true_eq] at h
  omega

lemma digit_pos_iff {c : Char} (h : isAsciiDigit c = true) : 0 < c.toNat-48 ↔ c ≠ '0' :=
  forall_ascii (P := fun c => isAsciiDigit c = true → (0 < c.toNat-48 ↔ c ≠ '0')) (by decide) c
    (toNat_lt_of_isAsciiDigit h) h

/-- Reading further digits, a number is above zero if it was or one of them is. -/
theorem foldl_digits_pos {digits : Str} (n : ℕ) (hd : ∀ c ∈ digits, isAsciiDigit c = true) :
    0 < digits.foldl (fun n c => 10*n+(c.toNat-48)) n ↔ 0 < n ∨ ∃ c ∈ digits, c ≠ '0' := by
  induction digits generalizing n with
  | nil => simp
  | cons c digits ih =>
    obtain ⟨hc,hd⟩ := List.forall_mem_cons.mp hd
    have hstep : 0 < 10*n+(c.toNat-48) ↔ 0 < n ∨ 0 < c.toNat-48 := by omega
    rw [List.foldl_cons,ih _ hd,hstep,digit_pos_iff hc,or_assoc]
    simp only [List.mem_cons,exists_eq_or_imp]

lemma thousandths_pos {digits : Str} (hd : ∀ c ∈ digits, isAsciiDigit c = true) :
    0 < thousandths digits ↔ ∃ c ∈ digits, c ≠ '0' := by
  rw [thousandths,Nat.mul_pos_iff_of_pos_right (Nat.pow_pos (by decide)),foldl_digits_pos 0 hd]
  simp

lemma isAsciiDigitByte_ofNat {c : Char} (h : isAsciiDigit c = true) :
    isAsciiDigitByte (UInt8.ofNat c.toNat) = true ∧
      ((UInt8.ofNat c.toNat == 0x30) = true ↔ c = '0') :=
  forall_ascii (P := fun c => isAsciiDigit c = true →
    isAsciiDigitByte (UInt8.ofNat c.toNat) = true ∧ ((UInt8.ofNat c.toNat == 0x30) = true ↔ c = '0'))
    (by decide) c (toNat_lt_of_isAsciiDigit h) h

section
variable {digits : Str} (hd : ∀ c ∈ digits, isAsciiDigit c = true)
include hd

lemma utf8_digits : utf8 digits = digits.map fun c => UInt8.ofNat c.toNat := by
  apply utf8_eq_map
  intro c hc
  exact toNat_lt_of_isAsciiDigit (hd c hc)

lemma all_utf8_digits : (utf8 digits).all isAsciiDigitByte = true := by
  rw [utf8_digits hd,List.all_map,List.all_eq_true]
  intro c hc
  exact (isAsciiDigitByte_ofNat (hd c hc)).1

lemma all_zero_utf8_digits : (utf8 digits).all (· == 0x30) = true ↔ ∀ c ∈ digits, c = '0' := by
  rw [utf8_digits hd,List.all_map,List.all_eq_true]
  refine forall_congr' fun c => forall_congr' fun hc => ?_
  exact (isAsciiDigitByte_ofNat (hd c hc)).2

lemma any_nonzero_utf8_digits :
    (utf8 digits).any (· != 0x30) = true ↔ ∃ c ∈ digits, c ≠ '0' := by
  rw [utf8_digits hd,List.any_map,List.any_eq_true]
  refine exists_congr fun c => and_congr_right fun hc => ?_
  simp only [Function.comp_apply,bne,Bool.not_eq_true',Bool.eq_false_iff]
  exact not_congr (isAsciiDigitByte_ofNat (hd c hc)).2

/-- With up to three decimals, what is before the point decides. -/
theorem parseQuality_point (whole : Str) (hw : '.' ∉ whole) (hl : digits.length ≤ 3) :
    parseQuality (whole ++ '.' :: digits) =
      if whole = ['0'] then some ((utf8 digits).any (· != 0x30))
      else if whole = ['1'] ∧ (utf8 digits).all (· == 0x30) then some true
      else none := by
  have hlength : (utf8 digits).length ≤ 3 := by
    rw [utf8_digits hd,List.length_map]
    exact hl
  rw [parseQuality,splitOnce_append digits hw,Option.getD_some]
  simp only [all_utf8_digits hd]
  rw [if_neg (by simp; omega)]

end

/-- A quality of the protocol is read as zero or not. -/
theorem parseQuality_of_isQvalue {value : Str} {quality : ℕ} (h : IsQvalue value quality) :
    parseQuality value = some (decide (0 < quality)) := by
  cases h with
  | zero => decide
  | one => decide
  | zeroPoint digits hl hd =>
    have hpoint := parseQuality_point hd ['0'] (by decide) hl
    rw [if_pos rfl] at hpoint
    refine hpoint.trans (congrArg some ?_)
    rw [Bool.eq_iff_iff,any_nonzero_utf8_digits hd,decide_eq_true_eq,thousandths_pos hd]
  | onePoint digits hl hzero =>
    have hd : ∀ c ∈ digits, isAsciiDigit c = true := by
      intro c hc
      rw [hzero c hc]
      decide
    have hpoint := parseQuality_point hd ['1'] (by decide) hl
    rw [if_neg (by decide),if_pos ⟨rfl,(all_zero_utf8_digits hd).mpr hzero⟩] at hpoint
    exact hpoint

lemma isWhitespace_of_isTchar {c : Char} (h : IsTchar c) : isWhitespace c = false :=
  forall_ascii (P := fun c => IsTchar c → isWhitespace c = false) (by decide) c
    (by have := h.2.1; omega) h

lemma isTchar_of_isAsciiDigit {c : Char} (h : isAsciiDigit c = true) : IsTchar c :=
  forall_ascii (P := fun c => isAsciiDigit c = true → IsTchar c) (by decide) c
    (toNat_lt_of_isAsciiDigit h) h

/-- A quality has only digits and a point, so it is a token. -/
theorem IsQvalue.token {value : Str} {quality : ℕ} (h : IsQvalue value quality) : IsToken value := by
  cases h with
  | zero => exact isToken_of_all (by simp) (by decide)
  | one => exact isToken_of_all (by simp) (by decide)
  | zeroPoint digits hl hd =>
    refine ⟨by simp,?_⟩
    simp only [List.forall_mem_cons]
    exact ⟨by decide,by decide,fun c hc => isTchar_of_isAsciiDigit (hd c hc)⟩
  | onePoint digits hl hd =>
    refine ⟨by simp,?_⟩
    simp only [List.forall_mem_cons]
    exact ⟨by decide,by decide,fun c hc => by rw [hd c hc]; decide⟩

lemma MediaRange.WellFormed.tokens {range : MediaRange} (h : range.WellFormed) :
    IsToken range.kind ∧ IsToken range.subtype := by
  have hstar : IsToken ['*'] := isToken_of_all (by simp) (by decide)
  cases range with
  | any => exact ⟨hstar,hstar⟩
  | typeOnly kind => exact ⟨h.1,hstar⟩
  | exact kind subtype => exact ⟨h.1.1,h.2.1⟩

/-- Whitespace around text that neither starts nor ends in any is trimmed away. -/
theorem trim_ows_of_solid {before after s : Str} (hb : IsOws before) (ha : IsOws after)
    (hh : ∀ c ∈ s.head?, isWhitespace c = false) (hl : ∀ c ∈ s.getLast?, isWhitespace c = false) :
    trim (before ++ s ++ after) = s := by
  have hw : ∀ {t : Str}, IsOws t → ∀ c ∈ t, isWhitespace c = true := by
    intro t ht c hc
    rcases ht c hc with rfl | rfl <;> decide
  rw [trim,trimWith_append_append s (hw hb) (hw ha)]
  exact trimWith_eq_self hh hl

lemma trim_ows {before after s : Str} (hb : IsOws before) (ha : IsOws after)
    (hh : ∀ c ∈ s.head?, IsTchar c) (hl : ∀ c ∈ s.getLast?, IsTchar c) :
    trim (before ++ s ++ after) = s :=
  trim_ows_of_solid hb ha (fun c hc => isWhitespace_of_isTchar (hh c hc))
    (fun c hc => isWhitespace_of_isTchar (hl c hc))

lemma isOws_nil : IsOws [] := fun _ hc => (List.not_mem_nil hc).elim

lemma head?_token {s t : Str} (h : IsToken s) : ∀ c ∈ (s ++ t).head?, IsTchar c := by
  obtain ⟨hne,hs⟩ := h
  cases s with
  | nil => exact absurd rfl hne
  | cons d s =>
    intro c hc
    exact hs c (by simp_all)

lemma getLast?_token {s t : Str} (h : IsToken t) : ∀ c ∈ (s ++ t).getLast?, IsTchar c := by
  obtain ⟨hne,ht⟩ := h
  cases t using List.reverseRecOn with
  | nil => exact absurd rfl hne
  | append_singleton t d =>
    intro c hc
    exact ht c (by simp_all)

lemma token_not_mem {s : Str} {c : Char} (h : IsToken s) (hc : ¬ IsTchar c) : c ∉ s :=
  fun hm => hc (h.2 c hm)

lemma trim_token {s : Str} (h : IsToken s) : trim s = s :=
  trimWith_eq_self_of_forall fun c hc => isWhitespace_of_isTchar (h.2 c hc)

lemma ows_not_mem {s : Str} {c : Char} (h : IsOws s) (hc : ¬ (c = ' ' ∨ c = '\t')) : c ∉ s :=
  fun hm => hc (h c hm)

/-- Whether the code takes a range for one that JSON satisfies. -/
def MediaRange.matchesJson (range : MediaRange) : Bool :=
  (range.kind == ['*'] || eqIgnoreAsciiCase range.kind "application".toList) &&
    (range.subtype == ['*'] || eqIgnoreAsciiCase range.subtype "json".toList)

lemma eqIgnoreAsciiCase_lower {s t : Str} (h : t.map toAsciiLower = t) :
    eqIgnoreAsciiCase s t = true ↔ s.map toAsciiLower = t := by rw [eqIgnoreAsciiCase_iff,h]

theorem matchesJson_iff {range : MediaRange} (h : range.WellFormed) :
    range.matchesJson = true ↔
      range.lower ∈ [MediaRange.applicationJson,MediaRange.application,MediaRange.any] := by
  have ha := fun s => @eqIgnoreAsciiCase_lower s "application".toList (by decide)
  have hj := fun s => @eqIgnoreAsciiCase_lower s "json".toList (by decide)
  cases range with
  | any => decide
  | typeOnly kind =>
    simp only [MediaRange.matchesJson,MediaRange.kind,MediaRange.subtype,Bool.and_eq_true,
      Bool.or_eq_true,ha,beq_iff_eq,h.2,false_or,true_or,and_true]
    simp [MediaRange.lower,MediaRange.applicationJson,MediaRange.application]
  | exact kind subtype =>
    simp only [MediaRange.matchesJson,MediaRange.kind,MediaRange.subtype,Bool.and_eq_true,
      Bool.or_eq_true,ha,hj,beq_iff_eq,h.1.2,h.2.2,false_or]
    simp [MediaRange.lower,MediaRange.applicationJson,MediaRange.application]

lemma splitOnce_text {range : MediaRange} (h : range.WellFormed) :
    splitOnce '/' range.text = some (range.kind,range.subtype) :=
  splitOnce_append _ (token_not_mem h.tokens.1 (by decide))

lemma semicolon_not_mem_text {range : MediaRange} (h : range.WellFormed) : ';' ∉ range.text := by
  simp [MediaRange.text,token_not_mem h.tokens.1 (by decide : ¬ IsTchar ';'),
    token_not_mem h.tokens.2 (by decide : ¬ IsTchar ';')]

lemma trim_text_append {before after rest : Str} {range : MediaRange} (hb : IsOws before)
    (ha : IsOws after) (h : range.WellFormed)
    (hl : ∀ c ∈ (range.text ++ rest).getLast?, IsTchar c) :
    trim (before ++ (range.text ++ rest) ++ after) = range.text ++ rest := by
  refine trim_ows hb ha ?_ hl
  rw [MediaRange.text,List.append_assoc]
  exact head?_token h.tokens.1

lemma trim_text {before after : Str} {range : MediaRange} (hb : IsOws before)
    (ha : IsOws after) (h : range.WellFormed) : trim (before ++ range.text ++ after) = range.text := by
  refine trim_ows hb ha (head?_token h.tokens.1) ?_
  have hl := @getLast?_token (range.kind ++ ['/']) range.subtype h.tokens.2
  simpa [MediaRange.text] using hl

/-- The code reads the parameter of a weight as whether it is above zero. -/
theorem readParameter_weight {right value : Str} {q : Char} {quality : ℕ} (allowed : Bool)
    (hr : IsOws right) (hq : q = 'q' ∨ q = 'Q') (hv : IsQvalue value quality) :
    readParameter allowed (right ++ q :: '=' :: value) = .ok (decide (0 < quality)) := by
  have hqt : IsToken [q] := by
    rcases hq with rfl | rfl <;> exact isToken_of_all (by simp) (by decide)
  have ht : trim (right ++ q :: '=' :: value) = q :: '=' :: value := by
    have h := @trim_ows right [] (q :: '=' :: value) hr isOws_nil (@head?_token [q] _ hqt)
      (@getLast?_token [q,'='] value hv.token)
    rwa [List.append_nil] at h
  have hs : splitOnce '=' (q :: '=' :: value) = some ([q],value) :=
    splitOnce_append value (token_not_mem hqt (by decide))
  have heq : eqIgnoreAsciiCase [q] ['q'] = true := by
    rcases hq with rfl | rfl <;> decide
  rw [readParameter,ht,hs]
  simp only [trim_token hqt,trim_token hv.token,heq,if_true,parseQuality_of_isQvalue hv]

theorem acceptItems_of_segments {item segment kind subtype : Str} {parameters : List Str}
    {allowed : Bool} (items : List Str) (hi : (trim item).splitOn ';' = segment :: parameters)
    (hs : splitOnce '/' (trim segment) = some (kind,subtype))
    (hp : parameters.foldlM readParameter true = .ok allowed) :
    acceptItems (item :: items) =
      if allowed && (kind == ['*'] || eqIgnoreAsciiCase kind "application".toList) &&
          (subtype == ['*'] || eqIgnoreAsciiCase subtype "json".toList) then .ok true
      else acceptItems items := by
  rw [acceptItems,hi]
  simp only [List.headD_cons,hs,List.tail_cons,hp]
  rfl

/-- The code takes a spelled item apart into its range and its quality. -/
theorem acceptItems_cons {piece : Str} {item : AcceptItem} (pieces : List Str)
    (h : Spells piece item) :
    acceptItems (piece :: pieces) =
      if 0 < item.quality ∧ item.range.matchesJson = true then .ok true else acceptItems pieces := by
  cases h with
  | @bare before after range hb ha hr =>
    have hi : (trim (before ++ range.text ++ after)).splitOn ';' = [range.text] := by
      rw [trim_text hb ha hr,List.splitOn_eq_singleton (semicolon_not_mem_text hr)]
    have hs : splitOnce '/' (trim range.text) = some (range.kind,range.subtype) := by
      have h := trim_text isOws_nil isOws_nil hr
      rw [List.nil_append,List.append_nil] at h
      rw [h,splitOnce_text hr]
    rw [acceptItems_of_segments pieces hi hs rfl]
    simp [MediaRange.matchesJson]
  | @weighted before after left right value q range quality hb ha hl hr hq hv hw =>
    have hlast := @getLast?_token (range.text ++ left ++ ';' :: (right ++ [q,'='])) value hv.token
    have hi : (trim (before ++ (range.text ++ left ++ ';' :: (right ++ q :: '=' :: value)) ++
        after)).splitOn ';' = [range.text ++ left,right ++ q :: '=' :: value] := by
      have ht : trim (before ++ (range.text ++ left ++ ';' :: (right ++ q :: '=' :: value)) ++ after) =
          range.text ++ left ++ ';' :: (right ++ q :: '=' :: value) := by
        have h := @trim_text_append before after (left ++ ';' :: (right ++ q :: '=' :: value)) range
          hb ha hw (by simpa using hlast)
        rwa [← List.append_assoc range.text left] at h
      have hleft : ';' ∉ range.text ++ left := by
        simp [semicolon_not_mem_text hw,ows_not_mem hl (by decide : ¬ (';' = ' ' ∨ ';' = '\t'))]
      have hright : ';' ∉ right ++ q :: '=' :: value := by
        simp only [List.mem_append,List.mem_cons,not_or]
        refine ⟨ows_not_mem hr (by decide),?_,by decide,token_not_mem hv.token (by decide)⟩
        rcases hq with rfl | rfl <;> decide
      rw [ht,List.splitOn_append_cons_self_of_not_mem hleft,List.splitOn_eq_singleton hright]
    have hs : splitOnce '/' (trim (range.text ++ left)) = some (range.kind,range.subtype) := by
      have h := trim_text isOws_nil hl hw
      rw [List.nil_append] at h
      rw [h,splitOnce_text hw]
    have hp : [right ++ q :: '=' :: value].foldlM readParameter true = .ok (decide (0 < quality)) := by
      rw [List.foldlM_cons,readParameter_weight true hr hq hv]
      rfl
    rw [acceptItems_of_segments pieces hi hs hp]
    simp only [MediaRange.matchesJson,Bool.and_eq_true,decide_eq_true_eq,and_assoc]

/-- An item that lets the adapter answer with JSON. -/
def AcceptItem.Allows (item : AcceptItem) : Prop :=
  0 < item.quality ∧ item.range.matchesJson = true

instance (item : AcceptItem) : Decidable item.Allows := inferInstanceAs (Decidable (_ ∧ _))

theorem acceptItems_of_spells {pieces : List Str} {items : List AcceptItem}
    (h : List.Forall₂ Spells pieces items) :
    acceptItems pieces = .ok (items.any fun item => decide item.Allows) := by
  induction h with
  | nil => rfl
  | cons hp _ ih =>
    rw [acceptItems_cons _ hp,ih,List.any_cons]
    split_ifs with ha
    · simp [AcceptItem.Allows,ha]
    · simp [AcceptItem.Allows,ha]

/-- On spelled lines the code accepts exactly if some item allows JSON. -/
theorem acceptLines_of_spells {values : List HeaderValue} {items : List AcceptItem}
    (h : SpelledBy values items) :
    acceptLines values = if ∃ item ∈ items, item.Allows then .ok () else .error notAcceptable := by
  obtain ⟨lists,rfl,hf⟩ := h
  induction hf with
  | nil => simp [acceptLines]
  | @cons value list values lists hv _ ih =>
    obtain ⟨line,hl,hs⟩ := hv
    have hline : acceptLines (value :: values) =
        if ∃ item ∈ list, item.Allows then .ok () else acceptLines values := by
      rw [acceptLines,hl]
      simp only [acceptValueAllowsJson,acceptItems_of_spells hs]
      by_cases hex : ∃ item ∈ list, item.Allows
      · have hany : (list.any fun item => decide item.Allows) = true := by simpa using hex
        rw [if_pos hex,hany]
        rfl
      · have hany : (list.any fun item => decide item.Allows) = false := by
          simpa [Bool.eq_false_iff] using hex
        rw [if_neg hex,hany]
        rfl
    rw [hline,ih,List.flatten_cons]
    by_cases hex : ∃ item ∈ list, item.Allows
    · rw [if_pos hex,if_pos (hex.imp fun item h => ⟨List.mem_append_left _ h.1,h.2⟩)]
    · rw [if_neg hex]
      refine if_congr ?_ rfl rfl
      constructor
      · exact fun h => h.imp fun item h => ⟨List.mem_append_right _ h.1,h.2⟩
      · rintro ⟨item,hm,ha⟩
        rcases List.mem_append.mp hm with hm | hm
        · exact absurd ⟨item,hm,ha⟩ hex
        · exact ⟨item,hm,ha⟩

lemma wellFormed_of_spells {piece : Str} {item : AcceptItem} (h : Spells piece item) :
    item.range.WellFormed := by
  cases h with
  | bare hb ha hr => exact hr
  | weighted hb ha hl hr hq hv hw => exact hw

theorem SpelledBy.wellFormed {values : List HeaderValue} {items : List AcceptItem}
    (h : SpelledBy values items) : ∀ item ∈ items, item.range.WellFormed := by
  obtain ⟨lists,rfl,hf⟩ := h
  have hmem : ∀ {α β : Type} {R : α → β → Prop} {xs : List α} {ys : List β},
      List.Forall₂ R xs ys → ∀ y ∈ ys, ∃ x, R x y := by
    intro α β R xs ys hf
    induction hf with
    | nil => simp
    | cons hx _ ih => exact List.forall_mem_cons.mpr ⟨⟨_,hx⟩,ih⟩
  intro item hm
  obtain ⟨list,hl,hm⟩ := List.mem_flatten.mp hm
  obtain ⟨value,line,-,hs⟩ := hmem hf list hl
  obtain ⟨piece,hp⟩ := hmem hs item hm
  exact wellFormed_of_spells hp

/-- Without repetition, the listed quality of a range is that of its only item. -/
theorem listedQuality_eq_some {items : List AcceptItem} {range : MediaRange} {quality : ℕ}
    (hn : (items.map fun item => item.range.lower).Nodup) :
    listedQuality items range = some quality ↔
      ∃ item ∈ items, item.range.lower = range ∧ item.quality = quality := by
  rw [listedQuality]
  induction items with
  | nil => simp
  | cons item items ih =>
    obtain ⟨hi,hn⟩ := List.nodup_cons.mp hn
    rw [List.find?_cons]
    by_cases he : item.range.lower = range
    · simp only [he,decide_true,Option.map_some,Option.some.injEq,List.mem_cons,exists_eq_or_imp,
        true_and]
      refine ⟨Or.inl,fun h => h.elim id ?_⟩
      rintro ⟨other,hm,ho,-⟩
      exact absurd (List.mem_map.mpr ⟨other,hm,ho.trans he.symm⟩) hi
    · simp [he,ih hn]

/-- The answer to a request is the one its most specific range asks for. -/
def HonoursMostSpecific [Platform] (request : RouteRequest) (items : List AcceptItem) : Prop :=
  (request.requireJsonAcceptable = .ok () ↔ ∃ q, mostSpecificQuality items = some q ∧ 0 < q) ∧
  (request.requireJsonAcceptable ≠ .ok () → request.requireJsonAcceptable = .error notAcceptable)

/-- If the most specific listed range that matches JSON has quality zero, so have all others. -/
def ZeroIsFinal (items : List AcceptItem) : Prop :=
  mostSpecificQuality items = some 0 →
    ∀ range ∈ [MediaRange.applicationJson,.application,.any],
      ∀ q, listedQuality items range = some q → q = 0

theorem mostSpecificQuality_mem {items : List AcceptItem} {q : ℕ}
    (h : mostSpecificQuality items = some q) :
    ∃ range ∈ [MediaRange.applicationJson,.application,.any], listedQuality items range = some q := by
  rw [mostSpecificQuality] at h
  cases hj : listedQuality items .applicationJson with
  | some a => exact ⟨.applicationJson,by simp,by simpa [hj] using h⟩
  | none =>
    cases ha : listedQuality items .application with
    | some a => exact ⟨.application,by simp,by simpa [hj,ha] using h⟩
    | none => exact ⟨.any,by simp,by simpa [hj,ha] using h⟩

lemma mostSpecificQuality_isSome {items : List AcceptItem} {range : MediaRange} {q : ℕ}
    (hr : range ∈ [MediaRange.applicationJson,.application,.any])
    (h : listedQuality items range = some q) : ∃ r, mostSpecificQuality items = some r := by
  rw [← Option.isSome_iff_exists,mostSpecificQuality,Option.isSome_or,Option.isSome_or]
  simp only [List.mem_cons,List.not_mem_nil,or_false] at hr
  rcases hr with rfl | rfl | rfl <;> simp [h]

/-- Negotiation honours the most specific range exactly when a zero in it is not contradicted by a
less specific range: the code stops at the first range that allows JSON. -/
theorem accept_honours_most_specific_iff [Platform] (request : RouteRequest)
    (items : List AcceptItem) (hlines : request.normalized.head.headers.getAll .accept ≠ [])
    (hspelled : SpelledBy (request.normalized.head.headers.getAll .accept) items)
    (hnodup : (items.map fun item => item.range.lower).Nodup) :
    HonoursMostSpecific request items ↔ ZeroIsFinal items := by
  have hrun : request.requireJsonAcceptable =
      if ∃ item ∈ items, item.Allows then .ok () else .error notAcceptable := by
    rw [RouteRequest.requireJsonAcceptable,if_neg (by simpa using hlines)]
    exact acceptLines_of_spells hspelled
  have hallows : (∃ item ∈ items, item.Allows) ↔
      ∃ range ∈ [MediaRange.applicationJson,.application,.any],
        ∃ q, listedQuality items range = some q ∧ 0 < q := by
    simp only [listedQuality_eq_some hnodup,AcceptItem.Allows]
    constructor
    · rintro ⟨item,hm,hq,hj⟩
      exact ⟨_,(matchesJson_iff (hspelled.wellFormed item hm)).mp hj,_,⟨item,hm,rfl,rfl⟩,hq⟩
    · rintro ⟨range,hr,q,⟨item,hm,rfl,rfl⟩,hq⟩
      exact ⟨item,hm,hq,(matchesJson_iff (hspelled.wellFormed item hm)).mpr hr⟩
  have hok : request.requireJsonAcceptable = .ok () ↔ ∃ item ∈ items, item.Allows := by
    rw [hrun]
    split_ifs with h <;> simp [h]
  rw [HonoursMostSpecific,hok,hallows]
  constructor
  · rintro ⟨hiff,-⟩ hzero range hr q hq
    by_contra hne
    obtain ⟨r,hm,hpos⟩ := hiff.mp ⟨range,hr,q,hq,Nat.pos_of_ne_zero hne⟩
    rw [hzero] at hm
    obtain rfl := Option.some.inj hm
    exact Nat.lt_irrefl 0 hpos
  · intro hfinal
    refine ⟨⟨?_,?_⟩,fun hne => ?_⟩
    · rintro ⟨range,hr,q,hq,hpos⟩
      obtain ⟨r,hm⟩ := mostSpecificQuality_isSome hr hq
      refine ⟨r,hm,Nat.pos_of_ne_zero ?_⟩
      rintro rfl
      exact Nat.ne_of_gt hpos (hfinal hm range hr q hq)
    · rintro ⟨q,hm,hpos⟩
      obtain ⟨range,hr,hq⟩ := mostSpecificQuality_mem hm
      exact ⟨range,hr,q,hq,hpos⟩
    · rw [hrun] at hne ⊢
      split_ifs at hne ⊢
      · exact absurd rfl hne
      · rfl

section
local instance negotiationPlatform : Platform := referencePlatform

/-- A request to read an article with the given `Accept` line. -/
def acceptRequest (accept : HeaderValue) : RouteRequest :=
  { endpoint :=
      { id := ⟨"article.get"⟩
        method := ⟨"GET"⟩
        path := "/articles"
        successStatus := 200
        bodyLimit := none
        timeout := none
        securityHeaders := none
        responseCache := none
        requiredEnforcementCapabilities := [] }
    normalized :=
      { head := .new ⟨"GET"⟩ { path := "/articles".toList,query := none }
          (Multimap.empty.append .accept accept) ∅ ∅ ∅
        body := [] }
    extensions := () }

lemma spells_applicationJson {quality : ℕ} {value : Str} (h : IsQvalue value quality) :
    Spells ("application/json;q=".toList ++ value) ⟨.applicationJson,quality⟩ := by
  have hw : MediaRange.applicationJson.WellFormed :=
    ⟨⟨isToken_of_all (by decide) (by decide),by decide⟩,
      isToken_of_all (by decide) (by decide),by decide⟩
  have hs := @Spells.weighted [] [] [] [] value 'q' .applicationJson quality isOws_nil isOws_nil
    isOws_nil isOws_nil (Or.inl rfl) h hw
  rwa [List.append_nil] at hs

lemma spells_any : Spells " */*".toList ⟨.any,1000⟩ :=
  @Spells.bare [' '] [] .any (by simp [IsOws]) isOws_nil trivial

/-- The line that lists `application/json` and then every type. -/
theorem spelledBy_applicationJson_any {quality : ℕ} {value : Str} {line : HeaderValue}
    (h : IsQvalue value quality)
    (hl : line.toStr = some ("application/json;q=".toList ++ value ++ ", */*".toList)) :
    SpelledBy [line] [⟨.applicationJson,quality⟩,⟨.any,1000⟩] := by
  refine ⟨[[⟨.applicationJson,quality⟩,⟨.any,1000⟩]],rfl,.cons ⟨_,hl,?_⟩ .nil⟩
  have hv : ',' ∉ "application/json;q=".toList ++ value := by
    rw [List.mem_append,not_or]
    exact ⟨by decide,token_not_mem h.token (by decide)⟩
  have hs : ("application/json;q=".toList ++ value ++ ", */*".toList).splitOn ',' =
      ["application/json;q=".toList ++ value," */*".toList] := by
    change ("application/json;q=".toList ++ value ++ ',' :: " */*".toList).splitOn ',' = _
    rw [List.splitOn_append_cons_self_of_not_mem hv,List.splitOn_eq_singleton (by decide)]
  rw [hs]
  exact .cons (spells_applicationJson h) (.cons spells_any .nil)

theorem accept_honours_preferred_json :
    HonoursMostSpecific (acceptRequest (.fromStatic "application/json;q=0.5, */*" (by decide)))
      [⟨.applicationJson,500⟩,⟨.any,1000⟩] := by
  have hs := @spelledBy_applicationJson_any 500 "0.5".toList
    (.fromStatic "application/json;q=0.5, */*" (by decide))
    (.zeroPoint ['5'] (by decide) (List.all_eq_true.mp (by decide))) (by decide)
  exact (accept_honours_most_specific_iff (acceptRequest _) _ (by decide) hs (by decide)).mpr
    (fun h => absurd h (by decide))

/-- A client that rules out JSON and accepts every other type is answered with JSON. -/
theorem accept_ignores_excluded_json :
    let request := acceptRequest (.fromStatic "application/json;q=0, */*" (by decide))
    let items : List AcceptItem := [⟨.applicationJson,0⟩,⟨.any,1000⟩]
    SpelledBy (request.normalized.head.headers.getAll .accept) items ∧
      mostSpecificQuality items = some 0 ∧ request.requireJsonAcceptable = .ok () ∧
      ¬ HonoursMostSpecific request items := by
  have hrun : (acceptRequest (.fromStatic "application/json;q=0, */*"
      (by decide))).requireJsonAcceptable = .ok () := by decide
  refine ⟨spelledBy_applicationJson_any .zero (by decide),by decide,hrun,fun h => ?_⟩
  obtain ⟨q,hq,hpos⟩ := h.1.mp hrun
  have hz : q = 0 := Option.some.inj (hq.symm.trans (by decide))
  omega

end
end SoapAxum.Request
