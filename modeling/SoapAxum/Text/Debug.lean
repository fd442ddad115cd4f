import SoapAxum.Text.Ascii

/-! Debug output as a formatter builds it: on one line or, with the alternate flag, on indented
lines. What a structure writes determines what its fields have written. -/
namespace SoapAxum.Text

/-- What a value writes, without or with the alternate flag. -/
abbrev Debug := Bool → Str

/-- A value that is written as it is displayed. -/
def display (s : Str) : Debug := fun _ => s

/-- Write four spaces in front of every line, the first one included if it is about to start. -/
def padFrom : Bool → Str → Str
  | _,[] => []
  | start,c :: s => (if start then "    ".toList else []) ++ c :: padFrom (c == '\n') s

def pad (s : Str) : Str := padFrom true s

theorem padFrom_injective (start : Bool) : Function.Injective (padFrom start) := by
  intro s t h
  induction s generalizing start t with
  | nil =>
    cases t with
    | nil => rfl
    | cons d t =>
      rw [padFrom,padFrom] at h
      exact absurd h.symm (List.append_ne_nil_of_right_ne_nil _ (List.cons_ne_nil _ _))
  | cons c s ih =>
    cases t with
    | nil =>
      rw [padFrom,padFrom] at h
      exact absurd h (List.append_ne_nil_of_right_ne_nil _ (List.cons_ne_nil _ _))
    | cons d t =>
      rw [padFrom,padFrom] at h
      obtain ⟨rfl,hrest⟩ := List.cons.inj (List.append_cancel_left h)
      rw [ih _ hrest]

/-- A character of a quoted text. The class `escaped` has those that are written by their code. -/
def escapeDebug (escaped : Char → Bool) (c : Char) : Str :=
  if c = '\x00' then "\\0".toList
  else if c = '\t' then "\\t".toList
  else if c = '\r' then "\\r".toList
  else if c = '\n' then "\\n".toList
  else if c = '"' then "\\\"".toList
  else if c = '\\' then "\\\\".toList
  else if escaped c then "\\u\x7b".toList ++ Nat.toDigits 16 c.toNat ++ "\x7d".toList
  else [c]

def debugStr (escaped : Char → Bool) (s : Str) : Debug :=
  fun _ => '"' :: s.flatMap (escapeDebug escaped) ++ ['"']

def debugList (entries : List Debug) : Debug
  | true => (if entries.isEmpty then "[".toList else "[\n".toList) ++
      entries.flatMap (fun entry => pad (entry true ++ ",\n".toList)) ++ "]".toList
  | false => "[".toList ++ ", ".toList.intercalate (entries.map fun entry => entry false) ++
      "]".toList

def debugOption : Option Debug → Debug
  | none => display "None".toList
  | some value => fun
    | true => "Some(\n".toList ++ pad (value true ++ ",\n".toList) ++ ")".toList
    | false => "Some(".toList ++ value false ++ ")".toList

/-- A structure whose fields are being written. -/
structure DebugStruct (alternate : Bool) where
  output : Str
  hasFields : Bool

def debugStruct (alternate : Bool) (name : Str) : DebugStruct alternate := ⟨name,false⟩

namespace DebugStruct

variable {alternate : Bool}

/-- What one more field adds to the output. -/
def fieldText (alternate hasFields : Bool) (name : Str) (value : Debug) : Str :=
  if alternate then (if hasFields then [] else " \x7b\n".toList) ++
    pad (name ++ ": ".toList ++ value true ++ ",\n".toList)
  else (if hasFields then ", ".toList else " \x7b ".toList) ++ (name ++ ": ".toList ++ value false)

def field (builder : DebugStruct alternate) (name : Str) (value : Debug) : DebugStruct alternate where
  output := builder.output ++ fieldText alternate builder.hasFields name value
  hasFields := true

/-- Close the structure and leave open whether it has more fields. -/
def finishNonExhaustive (builder : DebugStruct alternate) : Str :=
  if builder.hasFields then
    if alternate then builder.output ++ pad "..\n".toList ++ "\x7d".toList
    else builder.output ++ ", .. \x7d".toList
  else builder.output ++ " \x7b .. \x7d".toList

/-- Each value can be told from what its field adds. -/
theorem fieldText_inj {hasFields : Bool} {name : Str} {v w : Debug} :
    fieldText alternate hasFields name v = fieldText alternate hasFields name w ↔
      v alternate = w alternate := by
  cases alternate with
  | true =>
    simp only [fieldText,if_true]
    constructor
    · intro h
      have htext := padFrom_injective true (List.append_cancel_left h)
      exact List.append_cancel_left (List.append_cancel_right htext)
    · intro h
      rw [h]
  | false =>
    simp only [fieldText,Bool.false_eq_true,if_false,List.append_right_inj]

/-- Structures that agree before a field agree behind it exactly if its values are written alike. -/
theorem field_inj {b : DebugStruct alternate} {name : Str} {v w : Debug} :
    b.field name v = b.field name w ↔ v alternate = w alternate := by
  unfold field
  rw [DebugStruct.mk.injEq,List.append_right_inj,fieldText_inj]
  simp

variable {b c : DebugStruct alternate} {name name' label : Str} {v v' value : Debug}

/-- A further field that is written alike makes no difference. -/
theorem field_field_inj : (b.field name v).field label value = (c.field name' v').field label value ↔
    b.field name v = c.field name' v' := by
  unfold field
  rw [DebugStruct.mk.injEq,DebugStruct.mk.injEq,List.append_left_inj]

/-- Neither does the end. -/
theorem finishNonExhaustive_field_inj :
    (b.field name v).finishNonExhaustive = (c.field name' v').finishNonExhaustive ↔
      b.field name v = c.field name' v' := by
  unfold finishNonExhaustive field
  rw [DebugStruct.mk.injEq,if_pos rfl,if_pos rfl]
  split_ifs with h
  · rw [List.append_left_inj,List.append_left_inj]
    simp
  · rw [List.append_left_inj]
    simp

end DebugStruct
end SoapAxum.Text
