import Mathlib.Algebra.Order.Field.Rat
import Mathlib.Tactic.NormNum
import Mathlib.Tactic.Positivity
import SoapAxum.Request.AcceptItems

/-! The parser of qualities against the decimal numbers that its texts denote. -/
namespace SoapAxum.Request
open SoapAxum.Text

/-- The number that a decimal numeral denotes. -/
def decimal (numeral : Str) : ℚ :=
  let (whole,fraction) := (splitOnce '.' numeral).getD (numeral,[])
  Nat.ofDigitChars 10 whole 0 + Nat.ofDigitChars 10 fraction 0 / 10^fraction.length

lemma decimal_of_not_mem {numeral : Str} (h : '.' ∉ numeral) :
    decimal numeral = Nat.ofDigitChars 10 numeral 0 := by
  unfold decimal
  rw [splitOnce_eq_none.mpr h]
  simp

lemma decimal_append {whole : Str} (fraction : Str) (h : '.' ∉ whole) :
    decimal (whole ++ '.' :: fraction) =
      Nat.ofDigitChars 10 whole 0 + Nat.ofDigitChars 10 fraction 0 / 10^fraction.length := by
  unfold decimal
  rw [splitOnce_append fraction h]
  rfl

/-- Up to three decimals, counted in thousandths. -/
theorem thousandths_div {digits : Str} (h : digits.length ≤ 3) :
    (thousandths digits : ℚ) / 1000 = Nat.ofDigitChars 10 digits 0 / 10^digits.length := by
  have hvalue : thousandths digits = Nat.ofDigitChars 10 digits 0 * 10^(3-digits.length) := rfl
  have hpow : (10 : ℚ)^(3-digits.length) * 10^digits.length = 1000 := by
    rw [← pow_add,Nat.sub_add_cancel h]
    norm_num
  have hpos : (10 : ℚ)^digits.length ≠ 0 := by positivity
  rw [hvalue,div_eq_div_iff (by norm_num) hpos]
  push_cast
  rw [mul_assoc,hpow]

lemma ofDigitChars_zeros {digits : Str} (h : ∀ c ∈ digits, c = '0') :
    Nat.ofDigitChars 10 digits 0 = 0 := by
  rw [List.eq_replicate_of_mem h,Nat.ofDigitChars_replicate_zero,Nat.mul_zero]

/-- A quality denotes its thousandths. -/
theorem IsQvalue.decimal_eq {value : Str} {quality : ℕ} (h : IsQvalue value quality) :
    decimal value = quality / 1000 := by
  have hzero : Nat.ofDigitChars 10 ['0'] 0 = 0 := rfl
  have hone : Nat.ofDigitChars 10 ['1'] 0 = 1 := rfl
  cases h with
  | zero =>
    rw [decimal_of_not_mem (by decide),hzero]
    norm_num
  | one =>
    rw [decimal_of_not_mem (by decide),hone]
    norm_num
  | zeroPoint digits hl hd =>
    have hnumeral : '0' :: '.' :: digits = ['0'] ++ '.' :: digits := rfl
    rw [hnumeral,decimal_append digits (by decide),thousandths_div hl,hzero,Nat.cast_zero,zero_add]
  | onePoint digits hl hd =>
    have hnumeral : '1' :: '.' :: digits = ['1'] ++ '.' :: digits := rfl
    rw [hnumeral,decimal_append digits (by decide),ofDigitChars_zeros hd,hone]
    norm_num

theorem IsQvalue.decimal_pos_iff {value : Str} {quality : ℕ} (h : IsQvalue value quality) :
    0 < decimal value ↔ 0 < quality := by
  rw [h.decimal_eq]
  constructor
  · intro hpos
    by_contra hzero
    rw [Nat.eq_zero_of_not_pos hzero] at hpos
    norm_num at hpos
  · intro hpos
    positivity

/-- Exactly the texts of the protocol are read as a quality, and what is read is whether the number
they denote is above zero. -/
theorem parse_quality_recognises_qvalues (value : Str) :
    (∀ positive, parseQuality value = some positive ↔
        (∃ quality, IsQvalue value quality) ∧ (positive = true ↔ 0 < decimal value)) ∧
      (parseQuality value = none ↔ ¬ ∃ quality, IsQvalue value quality) := by
  have hnone : parseQuality value = none ↔ ¬ ∃ quality, IsQvalue value quality := by
    rw [← isSome_parseQuality,Option.not_isSome_iff_eq_none]
  refine ⟨?_,hnone⟩
  intro positive
  constructor
  · intro h
    have hq : ∃ quality, IsQvalue value quality := by
      apply isSome_parseQuality.mp
      rw [h]
      rfl
    obtain ⟨quality,hquality⟩ := hq
    rw [parseQuality_of_isQvalue hquality] at h
    refine ⟨⟨quality,hquality⟩,?_⟩
    rw [← Option.some.inj h,decide_eq_true_eq,hquality.decimal_pos_iff]
  · rintro ⟨⟨quality,hquality⟩,hpositive⟩
    rw [parseQuality_of_isQvalue hquality]
    congr 1
    rw [Bool.eq_iff_iff,decide_eq_true_eq,hpositive,hquality.decimal_pos_iff]

end SoapAxum.Request
