import Mathlib.Algebra.Group.Nat.Defs
import SoapAxum.Text.Ascii

/-! Numbers as text, with as many digits as they need, and numbers as a fixed count of digits. -/
namespace SoapAxum.Text

lemma digitChar_injOn {m n : ℕ} (hm : m < 16) (hn : n < 16) (h : m.digitChar = n.digitChar) :
    m = n := by
  have hall : ∀ m n : Fin 16, m.val.digitChar = n.val.digitChar → m = n := by decide
  exact congrArg Fin.val (hall ⟨m,hm⟩ ⟨n,hn⟩ h)

/-- Different numbers have different digits. -/
theorem toDigits_injective {b : ℕ} (hb : 1 < b) (hb' : b ≤ 16) :
    Function.Injective (Nat.toDigits b) := by
  intro m n
  induction m using Nat.strongRecOn generalizing n with
  | ind m ih =>
    have hlast : ∀ k : ℕ, k % b < 16 := fun k => Nat.lt_of_lt_of_le (Nat.mod_lt k (by omega)) hb'
    rw [Nat.toDigits_eq_if (n := m) hb,Nat.toDigits_eq_if (n := n) hb]
    intro h
    split_ifs at h with hm hn hn
    · exact digitChar_injOn (by omega) (by omega) (List.cons.inj h).1
    · have hlen := congrArg List.length h
      have hpos : 0 < (Nat.toDigits b (n/b)).length := Nat.length_toDigits_pos
      simp at hlen
    · have hlen := congrArg List.length h
      have hpos : 0 < (Nat.toDigits b (m/b)).length := Nat.length_toDigits_pos
      simp at hlen
    · obtain ⟨hquot,hrem⟩ := List.append_inj' h rfl
      have hdiv : m/b = n/b := ih _ (Nat.div_lt_self (by omega) hb) hquot
      have hmod : m%b = n%b := digitChar_injOn (hlast m) (hlast n) (List.cons.inj hrem).1
      rw [← Nat.div_add_mod m b,← Nat.div_add_mod n b,hdiv,hmod]

/-- A lowercase hexadecimal digit. -/
def isHexChar (c : Char) : Bool := isAsciiDigit c || (97 ≤ c.toNat && c.toNat ≤ 102)

theorem isAsciiDigit_of_mem_toDigits {n : ℕ} {c : Char} (h : c ∈ Nat.toDigits 10 n) :
    isAsciiDigit c = true := by
  have hdigit := Nat.isDigit_of_mem_toDigits (by decide) (by decide) h
  have h0 : '0'.val.toNat = 48 := rfl
  have h9 : '9'.val.toNat = 57 := rfl
  simp only [Char.isDigit,Bool.and_eq_true,decide_eq_true_eq,UInt32.le_iff_toNat_le] at hdigit
  unfold isAsciiDigit
  rw [Bool.and_eq_true,decide_eq_true_eq,decide_eq_true_eq]
  change 48 ≤ c.val.toNat ∧ c.val.toNat ≤ 57
  omega

theorem isHexChar_of_mem_toDigits {b n : ℕ} {c : Char} (hb : 1 < b) (hb' : b ≤ 16)
    (hc : c ∈ Nat.toDigits b n) : isHexChar c = true := by
  have hdigit : ∀ k < 16, isHexChar k.digitChar = true := by decide
  induction n using Nat.strongRecOn with
  | ind n ih =>
    rw [Nat.toDigits_eq_if hb] at hc
    split_ifs at hc with hn
    · rw [List.mem_singleton.mp hc]
      exact hdigit n (by omega)
    · rcases List.mem_append.mp hc with hc | hc
      · exact ih _ (Nat.div_lt_self (by omega) hb) hc
      · rw [List.mem_singleton.mp hc]
        exact hdigit _ (Nat.lt_of_lt_of_le (Nat.mod_lt n (by omega)) hb')

/-- The lowest `k` digits of a number, the highest of them first. -/
def fixedDigits (b : ℕ) : ℕ → ℕ → List ℕ
  | 0,_ => []
  | k+1,n => fixedDigits b k (n/b) ++ [n%b]

@[simp] theorem length_fixedDigits (b k n : ℕ) : (fixedDigits b k n).length = k := by
  induction k generalizing n with
  | zero => rfl
  | succ k ih => rw [fixedDigits,List.length_append,ih,List.length_singleton]

/-- A number below the capacity of its digits is determined by them. -/
theorem fixedDigits_inj {b k m n : ℕ} (hm : m < b^k) (hn : n < b^k)
    (h : fixedDigits b k m = fixedDigits b k n) : m = n := by
  induction k generalizing m n with
  | zero =>
    rw [pow_zero] at hm hn
    omega
  | succ k ih =>
    obtain ⟨hquot,hrem⟩ := List.append_inj' h rfl
    rw [pow_succ] at hm hn
    have hdiv : m/b = n/b :=
      ih (Nat.div_lt_of_lt_mul (Nat.mul_comm _ b ▸ hm)) (Nat.div_lt_of_lt_mul (Nat.mul_comm _ b ▸ hn)) hquot
    have hmod : m%b = n%b := (List.cons.inj hrem).1
    rw [← Nat.div_add_mod m b,← Nat.div_add_mod n b,hdiv,hmod]

end SoapAxum.Text
