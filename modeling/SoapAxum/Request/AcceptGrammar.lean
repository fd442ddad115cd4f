import SoapAxum.Request.AcceptItems

/-! The grammar of the `Accept` header against the search over its items, which knows nothing of
quoted strings and takes every piece between commas for an item. -/
namespace SoapAxum.Request
open SoapAxum.Http SoapAxum.Text SoapAxum.Data SoapAxum.Semantics

/-- A character of a quoted string that needs no backslash. -/
def IsQdtext (c : Char) : Prop := c = '\t' ∨ c = ' ' ∨ c.toNat = 0x21 ∨
  (0x23 ≤ c.toNat ∧ c.toNat ≤ 0x5B) ∨ (0x5D ≤ c.toNat ∧ c.toNat ≤ 0x7E) ∨
  (0x80 ≤ c.toNat ∧ c.toNat ≤ 0xFF)

instance (c : Char) : Decidable (IsQdtext c) :=
  inferInstanceAs (Decidable (_ ∨ _ ∨ _ ∨ _ ∨ _ ∨ _))

/-- A character that may follow a backslash. -/
def IsQuotable (c : Char) : Prop := c = '\t' ∨ c = ' ' ∨ (0x21 ≤ c.toNat ∧ c.toNat ≤ 0x7E) ∨
  (0x80 ≤ c.toNat ∧ c.toNat ≤ 0xFF)

/-- What stands between the quotation marks. -/
inductive QuotedBody : Str → Prop
  | nil : QuotedBody []
  | text {c : Char} {body : Str} (hc : IsQdtext c) (hb : QuotedBody body) : QuotedBody (c :: body)
  | pair {c : Char} {body : Str} (hc : IsQuotable c) (hb : QuotedBody body) :
      QuotedBody ('\\' :: c :: body)

inductive ParameterValue where
  | token (text : Str)
  | quoted (body : Str)

def ParameterValue.text : ParameterValue → Str
  | token text => text
  | quoted body => '"' :: (body ++ ['"'])

def ParameterValue.WellFormed : ParameterValue → Prop
  | token text => IsToken text
  | quoted body => QuotedBody body

/-- A parameter of a media range. A weight is one of them. -/
structure Parameter where
  name : Str
  value : ParameterValue

namespace Parameter

def text (parameter : Parameter) : Str := parameter.name ++ '=' :: parameter.value.text

def WellFormed (parameter : Parameter) : Prop :=
  IsToken parameter.name ∧ parameter.value.WellFormed

end Parameter

/-- A semicolon with the whitespace on both sides, and the parameter, which may be missing. -/
structure ParameterSlot where
  left : Str
  right : Str
  parameter : Option Parameter

namespace ParameterSlot

def body (slot : ParameterSlot) : Str := slot.right ++ slot.parameter.elim [] Parameter.text
def text (slot : ParameterSlot) : Str := slot.left ++ ';' :: slot.body

def WellFormed (slot : ParameterSlot) : Prop :=
  IsOws slot.left ∧ IsOws slot.right ∧ ∀ parameter ∈ slot.parameter, parameter.WellFormed

end ParameterSlot

structure RangeText where
  kind : Str
  subtype : Str
  parameters : List ParameterSlot

namespace RangeText

def range (element : RangeText) : Str := element.kind ++ '/' :: element.subtype
def text (element : RangeText) : Str := element.range ++ element.parameters.flatMap ParameterSlot.text

def WellFormed (element : RangeText) : Prop := IsToken element.kind ∧ IsToken element.subtype ∧
  ∀ slot ∈ element.parameters, slot.WellFormed

end RangeText

/-- An element of the list with the whitespace around it. An empty element is allowed. -/
structure ListElement where
  before : Str
  element : Option RangeText
  after : Str

namespace ListElement

def text (item : ListElement) : Str := item.before ++ item.element.elim [] RangeText.text ++ item.after

def WellFormed (item : ListElement) : Prop :=
  IsOws item.before ∧ IsOws item.after ∧ ∀ element ∈ item.element, element.WellFormed

end ListElement

/-- The line is the list of the elements. -/
def Lists (value : HeaderValue) (items : List ListElement) : Prop :=
  items ≠ [] ∧ (∀ item ∈ items, item.WellFormed) ∧
    latin1 value.bytes = [','].intercalate (items.map ListElement.text)

/-- Every line is a list of the grammar. -/
def Conforms (values : List HeaderValue) : Prop := ∀ value ∈ values, ∃ items, Lists value items

/-- A quoted string that the scan cannot mistake: visible, and without comma or semicolon. -/
def ParameterValue.Plain : ParameterValue → Prop
  | token _ => True
  | quoted body => VisibleText body ∧ ',' ∉ body ∧ ';' ∉ body

def Parameter.Plain (parameter : Parameter) : Prop :=
  parameter.value.Plain ∧ (eqIgnoreAsciiCase parameter.name ['q'] = true →
    ∃ quality, IsQvalue parameter.value.text quality)

def ParameterSlot.Plain (slot : ParameterSlot) : Prop :=
  ∃ parameter, slot.parameter = some parameter ∧ parameter.Plain

/-- No empty element, no empty parameter, no separator in a quoted string, and only qualities as
weights. -/
def ListElement.Plain (item : ListElement) : Prop :=
  ∃ element, item.element = some element ∧ ∀ slot ∈ element.parameters, slot.Plain

def PlainlyConforms (values : List HeaderValue) : Prop :=
  ∀ value ∈ values, ∃ items, Lists value items ∧ ∀ item ∈ items, item.Plain

/-- Every item up to the first that allows JSON is readable. -/
inductive ReadableUpToJson : List (Option Str) → Prop
  | nil : ReadableUpToJson []
  | found {item : Str} {rest : List (Option Str)} (h : Readable item) (hj : allowsJson item = true) :
      ReadableUpToJson (some item :: rest)
  | next {item : Str} {rest : List (Option Str)} (h : Readable item)
      (tail : ReadableUpToJson rest) : ReadableUpToJson (some item :: rest)

lemma not_isBadRequest_notAcceptable : ¬ notAcceptable.IsBadRequest := by
  rintro ⟨message,source,h⟩
  have hstatus := congrArg (fun error => (HttpRejection.find error).map HttpRejection.status) h
  have hcode : 406 = 400 := Option.some.inj hstatus
  contradiction

lemma readHeaderItem_none : ∃ error, readHeaderItem none = .error error ∧ error.IsBadRequest :=
  ⟨_,rfl,isBadRequest_withSource _ _⟩

/-- The search answers without a bad request exactly on such items. -/
theorem anyM_readHeaderItem_iff {items : List (Option Str)} :
    (∃ found, items.anyM readHeaderItem = .ok found) ↔ ReadableUpToJson items := by
  induction items with
  | nil => exact iff_of_true ⟨false,rfl⟩ .nil
  | cons item rest ih =>
    rw [List.anyM_cons]
    cases item with
    | none =>
      obtain ⟨error,he,-⟩ := readHeaderItem_none
      rw [he]
      refine iff_of_false (Fallible.error_bind_ne_ok error _) ?_
      intro h
      cases h
    | some item =>
      change (∃ found, (readItem item >>= _) = Except.ok found) ↔ _
      by_cases hr : Readable item
      · rw [readItem_of_readable hr,Fallible.ok_bind]
        cases hj : allowsJson item with
        | true => exact iff_of_true ⟨true,rfl⟩ (.found hr hj)
        | false =>
          refine ih.trans ⟨.next hr,?_⟩
          intro h
          cases h with
          | found h hj' =>
            rw [hj] at hj'
            contradiction
          | next h tail => exact tail
      · obtain ⟨error,he,-⟩ := readItem_of_not_readable hr
        rw [he]
        refine iff_of_false (Fallible.error_bind_ne_ok error _) ?_
        intro h
        cases h with
        | found h hj => exact hr h
        | next h tail => exact hr h

lemma acceptance_cases (found : Bool) :
    acceptance found = .ok () ∨ acceptance found = .error notAcceptable := by
  cases found with
  | true => exact Or.inl rfl
  | false => exact Or.inr rfl

/-- A character that neither loop takes for a separator. -/
def IsPlainChar (c : Char) : Prop := isVisibleChar c = true ∧ c ≠ ',' ∧ c ≠ ';'

theorem isPlainChar_of_isTchar {c : Char} (h : IsTchar c) : IsPlainChar c := by
  refine ⟨?_,?_,?_⟩
  · have hlow := h.1
    have hhigh := h.2.1
    simp only [isVisibleChar,Bool.or_eq_true,Bool.and_eq_true,decide_eq_true_eq]
    omega
  · rintro rfl
    exact absurd h (by decide)
  · rintro rfl
    exact absurd h (by decide)

lemma isPlainChar_of_isOws {s : Str} (h : IsOws s) : ∀ c ∈ s, IsPlainChar c := by
  intro c hc
  rcases h c hc with rfl | rfl
  · exact ⟨rfl,by decide,by decide⟩
  · exact ⟨rfl,by decide,by decide⟩

lemma isPlainChar_of_isToken {s : Str} (h : IsToken s) : ∀ c ∈ s, IsPlainChar c :=
  fun c hc => isPlainChar_of_isTchar (h.2 c hc)

namespace Parameter

variable {parameter : Parameter}

theorem isPlainChar_text (h : parameter.WellFormed) (hp : parameter.Plain) :
    ∀ c ∈ parameter.text, IsPlainChar c := by
  have hvalue : ∀ c ∈ parameter.value.text, IsPlainChar c := by
    have hw := h.2
    have hplain := hp.1
    cases hv : parameter.value with
    | token text =>
      rw [hv] at hw
      exact isPlainChar_of_isToken hw
    | quoted body =>
      rw [hv] at hplain
      obtain ⟨hvisible,hcomma,hsemicolon⟩ := hplain
      have hquote : IsPlainChar '"' := ⟨rfl,by decide,by decide⟩
      refine List.forall_mem_cons.mpr ⟨hquote,List.forall_mem_append.mpr ⟨?_,by simpa using hquote⟩⟩
      intro c hc
      refine ⟨hvisible c hc,?_,?_⟩
      · rintro rfl
        exact hcomma hc
      · rintro rfl
        exact hsemicolon hc
  have hequals : IsPlainChar '=' := ⟨rfl,by decide,by decide⟩
  exact List.forall_mem_append.mpr
    ⟨isPlainChar_of_isToken h.1,List.forall_mem_cons.mpr ⟨hequals,hvalue⟩⟩

/-- A parameter does not end in whitespace. -/
theorem getLast?_text (front : Str) (h : parameter.WellFormed) :
    ∀ c ∈ (front ++ parameter.text).getLast?, isWhitespace c = false := by
  have hw := h.2
  unfold text
  intro c hc
  cases hv : parameter.value with
  | token value =>
    rw [hv] at hw hc
    have htext : front ++ (parameter.name ++ '=' :: value) =
        (front ++ parameter.name ++ ['=']) ++ value := by simp
    change c ∈ (front ++ (parameter.name ++ '=' :: value)).getLast? at hc
    rw [htext] at hc
    exact isWhitespace_of_isTchar (getLast?_token hw c hc)
  | quoted body =>
    rw [hv] at hc
    have htext : front ++ (parameter.name ++ '=' :: (ParameterValue.quoted body).text) =
        (front ++ parameter.name ++ '=' :: '"' :: body) ++ ['"'] := by simp [ParameterValue.text]
    rw [htext,List.getLast?_concat] at hc
    rw [← Option.some.inj hc]
    rfl

lemma trim_text {before after : Str} (h : parameter.WellFormed) (hb : IsOws before)
    (ha : IsOws after) : trim (before ++ parameter.text ++ after) = parameter.text := by
  apply trim_ows_of_solid hb ha
  · intro c hc
    exact isWhitespace_of_isTchar (head?_token h.1 c hc)
  · exact getLast?_text [] h

/-- The scan finds the name and the value of a parameter, and a quality in a weight. -/
theorem readable {before after : Str} (h : parameter.WellFormed) (hp : parameter.Plain)
    (hb : IsOws before) (ha : IsOws after) : ReadableParameter (before ++ parameter.text ++ after) := by
  have htrim := trim_text h hb ha
  have hname : '=' ∉ parameter.name := token_not_mem h.1 (by decide)
  have hsplit : splitOnce '=' parameter.text = some (parameter.name,parameter.value.text) :=
    splitOnce_append _ hname
  constructor
  · rw [htrim]
    exact mem_of_splitOnce hsplit
  · unfold weightOf
    rw [htrim,hsplit,Option.bind_some]
    simp only [trim_token h.1]
    intro weight hw
    split_ifs at hw with hq
    · obtain ⟨quality,hquality⟩ := hp.2 hq
      rw [← Option.some.inj hw,trim_token hquality.token]
      exact ⟨quality,hquality⟩
    · contradiction

end Parameter

/-- The pieces between the semicolons of an element. -/
def segmentsFrom : Str → List ParameterSlot → List Str
  | head,[] => [head]
  | head,slot :: slots => (head ++ slot.left) :: segmentsFrom slot.body slots

theorem splitOn_segmentsFrom {head : Str} {slots : List ParameterSlot} (hh : ';' ∉ head)
    (hs : ∀ slot ∈ slots, ';' ∉ slot.left ∧ ';' ∉ slot.body) :
    (head ++ slots.flatMap ParameterSlot.text).splitOn ';' = segmentsFrom head slots := by
  induction slots generalizing head with
  | nil => rw [List.flatMap_nil,List.append_nil,List.splitOn_eq_singleton hh,segmentsFrom]
  | cons slot slots ih =>
    obtain ⟨⟨hleft,hbody⟩,hs⟩ := List.forall_mem_cons.mp hs
    have hfirst : ';' ∉ head ++ slot.left := by
      rw [List.mem_append,not_or]
      exact ⟨hh,hleft⟩
    have htext : head ++ (slot :: slots).flatMap ParameterSlot.text =
        (head ++ slot.left) ++ ';' :: (slot.body ++ slots.flatMap ParameterSlot.text) := by
      simp [ParameterSlot.text]
    rw [htext,List.splitOn_append_cons_self_of_not_mem hfirst,ih hbody hs,segmentsFrom]

lemma headD_segmentsFrom (head : Str) (slots : List ParameterSlot)
    (h : ∀ slot ∈ slots, IsOws slot.left) :
    ∃ after, IsOws after ∧ (segmentsFrom head slots).headD [] = head ++ after := by
  cases slots with
  | nil => exact ⟨[],isOws_nil,(List.append_nil head).symm⟩
  | cons slot slots => exact ⟨slot.left,h slot List.mem_cons_self,rfl⟩

/-- Behind the range, each piece is a parameter up to whitespace. -/
theorem mem_tail_segmentsFrom {head segment : Str} {slots : List ParameterSlot}
    (h : ∀ slot ∈ slots, IsOws slot.left) (hm : segment ∈ (segmentsFrom head slots).tail) :
    ∃ slot ∈ slots, ∃ after, IsOws after ∧ segment = slot.body ++ after := by
  induction slots generalizing head with
  | nil => contradiction
  | cons slot slots ih =>
    obtain ⟨hslot,h⟩ := List.forall_mem_cons.mp h
    change segment ∈ segmentsFrom slot.body slots at hm
    cases slots with
    | nil =>
      refine ⟨slot,List.mem_cons_self,[],isOws_nil,?_⟩
      rw [List.append_nil]
      exact List.mem_singleton.mp hm
    | cons next slots =>
      rcases List.mem_cons.mp hm with rfl | hm
      · exact ⟨slot,List.mem_cons_self,next.left,h next List.mem_cons_self,rfl⟩
      · obtain ⟨other,ho,hother⟩ := @ih slot.body h hm
        exact ⟨other,List.mem_cons_of_mem _ ho,hother⟩

namespace ListElement

variable {item : ListElement}

theorem isPlainChar_slots {slots : List ParameterSlot} (h : ∀ slot ∈ slots, slot.WellFormed)
    (hp : ∀ slot ∈ slots, slot.Plain) :
    ∀ slot ∈ slots, (∀ c ∈ slot.left, IsPlainChar c) ∧ ∀ c ∈ slot.body, IsPlainChar c := by
  intro slot hs
  obtain ⟨hleft,hright,hw⟩ := h slot hs
  obtain ⟨parameter,hparameter,hplain⟩ := hp slot hs
  refine ⟨isPlainChar_of_isOws hleft,?_⟩
  unfold ParameterSlot.body
  rw [hparameter]
  exact List.forall_mem_append.mpr ⟨isPlainChar_of_isOws hright,
    Parameter.isPlainChar_text (hw parameter hparameter) hplain⟩

lemma isPlainChar_range {element : RangeText} (h : element.WellFormed) :
    ∀ c ∈ element.range, IsPlainChar c := by
  have hslash : IsPlainChar '/' := ⟨rfl,by decide,by decide⟩
  exact List.forall_mem_append.mpr
    ⟨isPlainChar_of_isToken h.1,List.forall_mem_cons.mpr ⟨hslash,isPlainChar_of_isToken h.2.1⟩⟩

/-- A range does not start or end in whitespace. -/
theorem head?_range {element : RangeText} (rest : Str) (h : element.WellFormed) :
    ∀ c ∈ (element.range ++ rest).head?, isWhitespace c = false := by
  unfold RangeText.range
  rw [List.append_assoc]
  intro c hc
  exact isWhitespace_of_isTchar (head?_token h.1 c hc)

lemma getLast?_range {element : RangeText} (h : element.WellFormed) :
    ∀ c ∈ element.range.getLast?, isWhitespace c = false := by
  have hrange : element.range = (element.kind ++ ['/']) ++ element.subtype := by
    simp [RangeText.range]
  rw [hrange]
  intro c hc
  exact isWhitespace_of_isTchar (getLast?_token h.2.1 c hc)

/-- An element holds visible characters and no comma. -/
theorem forall_mem_text (h : item.WellFormed) (hp : item.Plain) :
    ∀ c ∈ item.text, isVisibleChar c = true ∧ c ≠ ',' := by
  obtain ⟨hbefore,hafter,hw⟩ := h
  obtain ⟨element,helement,hplain⟩ := hp
  have helementw := hw element helement
  have hweaken : ∀ {s : Str}, (∀ c ∈ s, IsPlainChar c) → ∀ c ∈ s, isVisibleChar c = true ∧ c ≠ ',' :=
    fun hs c hc => ⟨(hs c hc).1,(hs c hc).2.1⟩
  have hslots : ∀ c ∈ element.parameters.flatMap ParameterSlot.text,
      isVisibleChar c = true ∧ c ≠ ',' := by
    intro c hc
    obtain ⟨slot,hs,hc⟩ := List.mem_flatMap.mp hc
    obtain ⟨hleft,hbody⟩ := isPlainChar_slots helementw.2.2 hplain slot hs
    have hsemicolon : isVisibleChar ';' = true ∧ ';' ≠ ',' := ⟨rfl,by decide⟩
    exact List.forall_mem_append.mpr
      ⟨hweaken hleft,List.forall_mem_cons.mpr ⟨hsemicolon,hweaken hbody⟩⟩ c hc
  unfold text
  rw [helement,List.forall_mem_append,List.forall_mem_append]
  refine ⟨⟨hweaken (isPlainChar_of_isOws hbefore),?_⟩,hweaken (isPlainChar_of_isOws hafter)⟩
  exact List.forall_mem_append.mpr ⟨hweaken (isPlainChar_range helementw),hslots⟩

theorem getLast?_elementText {element : RangeText} (h : element.WellFormed)
    (hp : ∀ slot ∈ element.parameters, slot.Plain) :
    ∀ c ∈ element.text.getLast?, isWhitespace c = false := by
  unfold RangeText.text
  rcases List.eq_nil_or_concat element.parameters with hnil | ⟨init,slot,hslots⟩
  · rw [hnil,List.flatMap_nil,List.append_nil]
    exact getLast?_range h
  · have hslot : slot ∈ element.parameters := by rw [hslots]; simp
    obtain ⟨parameter,hparameter,-⟩ := hp slot hslot
    have htext : element.range ++ element.parameters.flatMap ParameterSlot.text =
        (element.range ++ init.flatMap ParameterSlot.text ++ slot.left ++ ';' :: slot.right) ++
          parameter.text := by
      rw [hslots]
      simp [ParameterSlot.text,ParameterSlot.body,hparameter]
    rw [htext]
    exact Parameter.getLast?_text _ ((h.2.2 slot hslot).2.2 parameter hparameter)

theorem itemSegments_text {element : RangeText} (h : item.WellFormed)
    (helement : item.element = some element) (hp : ∀ slot ∈ element.parameters, slot.Plain) :
    itemSegments item.text = segmentsFrom element.range element.parameters := by
  obtain ⟨hbefore,hafter,hw⟩ := h
  have helementw := hw element helement
  have hhead : ∀ c ∈ element.text.head?, isWhitespace c = false := head?_range _ helementw
  unfold itemSegments text
  rw [helement,Option.elim_some,
    trim_ows_of_solid hbefore hafter hhead (getLast?_elementText helementw hp)]
  apply splitOn_segmentsFrom
  · intro hc
    exact (isPlainChar_range helementw ';' hc).2.2 rfl
  · intro slot hs
    obtain ⟨hleft,hbody⟩ := isPlainChar_slots helementw.2.2 hp slot hs
    exact ⟨fun hc => (hleft ';' hc).2.2 rfl,fun hc => (hbody ';' hc).2.2 rfl⟩

/-- The scan reads every plain element of the grammar. -/
theorem readable (h : item.WellFormed) (hp : item.Plain) : Readable item.text := by
  obtain ⟨element,helement,hplain⟩ := hp
  have hsegments := itemSegments_text h helement hplain
  have helementw := h.2.2 element helement
  have hleft : ∀ slot ∈ element.parameters, IsOws slot.left := fun slot hs => (helementw.2.2 slot hs).1
  constructor
  · obtain ⟨after,hafter,hhead⟩ := headD_segmentsFrom element.range element.parameters hleft
    have hstart := head?_range [] helementw
    rw [List.append_nil] at hstart
    have htrim : trim ([] ++ element.range ++ after) = element.range :=
      trim_ows_of_solid isOws_nil hafter hstart (getLast?_range helementw)
    rw [hsegments,hhead]
    rw [List.nil_append] at htrim
    rw [htrim]
    exact List.mem_append_right _ List.mem_cons_self
  · rw [hsegments]
    intro segment hm
    obtain ⟨slot,hs,after,hafter,rfl⟩ := mem_tail_segmentsFrom hleft hm
    obtain ⟨-,hright,hw⟩ := helementw.2.2 slot hs
    obtain ⟨parameter,hparameter,hparameterp⟩ := hplain slot hs
    unfold ParameterSlot.body
    rw [hparameter]
    exact Parameter.readable (hw parameter hparameter) hparameterp hright hafter

end ListElement

theorem headerItems_of_lists {value : HeaderValue} {items : List ListElement}
    (h : Lists value items) (hp : ∀ item ∈ items, item.Plain) :
    headerItems value = items.map fun item => some item.text := by
  obtain ⟨hne,hw,hline⟩ := h
  have hchars : ∀ item ∈ items, ∀ c ∈ item.text, isVisibleChar c = true ∧ c ≠ ',' :=
    fun item hi => ListElement.forall_mem_text (hw item hi) (hp item hi)
  have hvisible : VisibleText (latin1 value.bytes) := by
    rw [hline]
    apply forall_mem_intercalate
    · intro c hc
      rw [List.mem_singleton.mp hc]
      rfl
    · rw [List.forall_mem_map]
      exact fun item hi c hc => (hchars item hi c hc).1
  have hstr : value.toStr = some (latin1 value.bytes) :=
    HeaderValue.toStr_eq_some.mpr ⟨HeaderValue.isVisible_iff.mpr hvisible,rfl⟩
  have hcomma : ∀ text ∈ items.map ListElement.text, ',' ∉ text := by
    rw [List.forall_mem_map]
    exact fun item hi hc => (hchars item hi ',' hc).2 rfl
  unfold headerItems
  rw [hstr,Option.elim_some,hline,List.splitOn_intercalate ',' hcomma (by simpa using hne),List.map_map]
  rfl

lemma readableUpToJson_of_forall {items : List Str} (h : ∀ item ∈ items, Readable item) :
    ReadableUpToJson (items.map some) := by
  induction items with
  | nil => exact .nil
  | cons item items ih =>
    obtain ⟨hi,h⟩ := List.forall_mem_cons.mp h
    exact .next hi (ih h)

theorem readableUpToJson_of_plainlyConforms {values : List HeaderValue} (h : PlainlyConforms values) :
    ReadableUpToJson (values.flatMap headerItems) := by
  have hitems : ∃ items : List Str,
      values.flatMap headerItems = items.map some ∧ ∀ item ∈ items, Readable item := by
    induction values with
    | nil => exact ⟨[],rfl,by simp⟩
    | cons value values ih =>
      obtain ⟨⟨items,hlists,hplain⟩,h⟩ := List.forall_mem_cons.mp h
      obtain ⟨texts,htexts,hreadable⟩ := ih h
      refine ⟨items.map ListElement.text ++ texts,?_,?_⟩
      · rw [List.flatMap_cons,headerItems_of_lists hlists hplain,htexts,List.map_append,List.map_map]
        rfl
      · rw [List.forall_mem_append,List.forall_mem_map]
        exact ⟨fun item hi => ListElement.readable (hlists.2.1 item hi) (hplain item hi),hreadable⟩
  obtain ⟨items,hvalues,hreadable⟩ := hitems
  rw [hvalues]
  exact readableUpToJson_of_forall hreadable

theorem anyM_readHeaderItem_error {items : List (Option Str)} (h : ¬ ReadableUpToJson items) :
    ∃ error, items.anyM readHeaderItem = .error error ∧ error.IsBadRequest := by
  cases hs : items.anyM readHeaderItem with
  | ok found => exact absurd (anyM_readHeaderItem_iff.mp ⟨found,hs⟩) h
  | error error =>
    refine ⟨error,rfl,?_⟩
    obtain ⟨before,item,after,-,-,he⟩ := Fallible.anyM_error_iff.mp hs
    cases item with
    | none =>
      obtain ⟨error',he',hbad⟩ := readHeaderItem_none
      rw [he'] at he
      exact Except.error.inj he ▸ hbad
    | some item =>
      by_cases hr : Readable item
      · have hread := readItem_of_readable hr
        change readItem item = _ at he
        rw [hread] at he
        contradiction
      · obtain ⟨error',he',hbad⟩ := readItem_of_not_readable hr
        change readItem item = _ at he
        rw [he'] at he
        exact Except.error.inj he ▸ hbad

/-- The request is answered, or refused with 406, exactly if the scan can read the items up to the
first that allows JSON, as it can in every plain list of the grammar. -/
theorem accept_never_bad_request_iff [Platform] (request : RouteRequest) :
    ((request.requireJsonAcceptable = .ok () ∨ request.requireJsonAcceptable = .error notAcceptable) ↔
        ReadableUpToJson ((acceptValues request).flatMap headerItems)) ∧
      (¬ ReadableUpToJson ((acceptValues request).flatMap headerItems) →
        ∃ error, request.requireJsonAcceptable = .error error ∧ error.IsBadRequest) ∧
      (PlainlyConforms (acceptValues request) →
        ReadableUpToJson ((acceptValues request).flatMap headerItems)) := by
  have hbad : ¬ ReadableUpToJson ((acceptValues request).flatMap headerItems) →
      ∃ error, request.requireJsonAcceptable = .error error ∧ error.IsBadRequest := by
    intro hr
    obtain ⟨error,he,hbad⟩ := anyM_readHeaderItem_error hr
    have hne : acceptValues request ≠ [] := by
      intro hnil
      rw [hnil] at hr
      exact hr .nil
    refine ⟨error,?_,hbad⟩
    rw [requireJsonAcceptable_eq,if_neg hne,acceptLines_eq,he]
    rfl
  refine ⟨⟨?_,?_⟩,hbad,readableUpToJson_of_plainlyConforms⟩
  · intro h
    by_contra hr
    obtain ⟨error,he,hbad⟩ := hbad hr
    rw [he] at h
    rcases h with h | h
    · contradiction
    · exact not_isBadRequest_notAcceptable (Except.error.inj h ▸ hbad)
  · intro hr
    rw [requireJsonAcceptable_eq,acceptLines_eq]
    split_ifs with hnil
    · exact Or.inl rfl
    · obtain ⟨found,hfound⟩ := anyM_readHeaderItem_iff.mpr hr
      rw [hfound]
      exact acceptance_cases found

section
local instance acceptGrammarPlatform : Platform := referencePlatform

/-- A media range whose parameter is a quoted string with a comma in it. -/
def quotedElement : ListElement where
  before := []
  element := some ⟨"text".toList,"html".toList,
    [⟨[],[],some ⟨"level".toList,.quoted "a,b".toList⟩⟩]⟩
  after := []

def quotedLine : HeaderValue := .fromStatic "text/html;level=\"a,b\"" (by decide)

/-- A media range and an empty element. -/
def trailingElements : List ListElement :=
  [⟨[],some ⟨"text".toList,"html".toList,[]⟩,[]⟩,⟨[],none,[]⟩]

def trailingLine : HeaderValue := .fromStatic "text/html," (by decide)

theorem quotedLine_conforms : Conforms [quotedLine] := by
  intro value hv
  rw [List.mem_singleton.mp hv]
  have hbody : QuotedBody "a,b".toList := .text (by decide) (.text (by decide) (.text (by decide) .nil))
  refine ⟨[quotedElement],List.cons_ne_nil _ _,?_,by decide⟩
  intro item hi
  rw [List.mem_singleton.mp hi]
  refine ⟨isOws_nil,isOws_nil,?_⟩
  intro element he
  rw [← Option.some.inj he]
  refine ⟨isToken_of_all (by decide) (by decide),isToken_of_all (by decide) (by decide),?_⟩
  intro slot hs
  rw [List.mem_singleton.mp hs]
  refine ⟨isOws_nil,isOws_nil,?_⟩
  intro parameter hp
  rw [← Option.some.inj hp]
  exact ⟨isToken_of_all (by decide) (by decide),hbody⟩

theorem trailingLine_conforms : Conforms [trailingLine] := by
  intro value hv
  rw [List.mem_singleton.mp hv]
  refine ⟨trailingElements,List.cons_ne_nil _ _,?_,by decide⟩
  have hrange : RangeText.WellFormed ⟨"text".toList,"html".toList,[]⟩ :=
    ⟨isToken_of_all (by decide) (by decide),isToken_of_all (by decide) (by decide),by simp⟩
  unfold trailingElements
  rw [List.forall_mem_cons,List.forall_mem_singleton]
  refine ⟨⟨isOws_nil,isOws_nil,?_⟩,isOws_nil,isOws_nil,?_⟩
  · intro element he
    rw [← Option.some.inj he]
    exact hrange
  · intro element he
    contradiction

/-- The grammar allows a comma in a quoted string and an empty element, and the request is bad. -/
theorem accept_grammar_is_bad_request :
    Conforms (acceptValues (acceptLinesRequest [quotedLine])) ∧
      Conforms (acceptValues (acceptLinesRequest [trailingLine])) ∧
      (∃ error, (acceptLinesRequest [quotedLine]).requireJsonAcceptable = .error error ∧
        error.IsBadRequest) ∧
      ∃ error, (acceptLinesRequest [trailingLine]).requireJsonAcceptable = .error error ∧
        error.IsBadRequest := by
  exact ⟨quotedLine_conforms,trailingLine_conforms,⟨_,rfl,isBadRequest_intoError _⟩,
    _,rfl,isBadRequest_intoError _⟩

end
end SoapAxum.Request
