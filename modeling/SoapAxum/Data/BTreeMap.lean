import Mathlib.Data.List.Perm.Basic
import Mathlib.Data.List.Nodup
import Mathlib.Tactic.Lemma

/-! Maps ordered by their keys, built up from lists of pairs. Two of them are equal if they have the
same values. -/
namespace SoapAxum.Data

abbrev BTreeMap (κ ν : Type) [Ord κ] := Std.ExtTreeMap κ ν compare

namespace BTreeMap

variable {κ ν : Type} [Ord κ] [Std.TransOrd κ] [Std.LawfulEqOrd κ]

lemma getElem?_insert_eq_some {m : BTreeMap κ ν} {k j : κ} {v w : ν} (hk : k ∉ m) :
    (m.insert k v)[j]? = some w ↔ m[j]? = some w ∨ (j = k ∧ w = v) := by
  rw [Std.ExtTreeMap.getElem?_insert]
  by_cases hj : k = j
  · subst hj
    simp [Std.ExtTreeMap.getElem?_eq_none hk,eq_comm]
  · rw [if_neg (by simpa using hj)]
    simp [Ne.symm hj]

lemma mem_insert_iff {m : BTreeMap κ ν} {k j : κ} {v : ν} :
    j ∈ m.insert k v ↔ j = k ∨ j ∈ m := by
  rw [Std.ExtTreeMap.mem_insert,Std.LawfulEqOrd.compare_eq_iff_eq,eq_comm]

/-- Keys are distinct and new if the first is new and the others are so once it is there. -/
theorem nodup_new_cons {m : BTreeMap κ ν} {k : κ} {v : ν} {keys : List κ} :
    ((k :: keys).Nodup ∧ ∀ j ∈ k :: keys, j ∉ m) ↔
      k ∉ m ∧ keys.Nodup ∧ ∀ j ∈ keys, j ∉ m.insert k v := by
  simp only [List.nodup_cons,List.forall_mem_cons,mem_insert_iff,not_or]
  constructor
  · rintro ⟨⟨hk,hn⟩,hnew,hrest⟩
    refine ⟨hnew,hn,?_⟩
    intro j hj
    exact ⟨fun he => hk (he ▸ hj),hrest j hj⟩
  · rintro ⟨hnew,hn,hrest⟩
    have hk : k ∉ keys := fun hk => (hrest k hk).1 rfl
    exact ⟨⟨hk,hn⟩,hnew,fun j hj => (hrest j hj).2⟩

/-- New, distinct keys are added to what is there, each with its value. -/
theorem getElem?_insertMany_eq_some {m : BTreeMap κ ν} {pairs : List (κ × ν)} {j : κ} {w : ν}
    (hn : (pairs.map Prod.fst).Nodup) (hd : ∀ k ∈ pairs.map Prod.fst, k ∉ m) :
    (m.insertMany pairs)[j]? = some w ↔ m[j]? = some w ∨ (j,w) ∈ pairs := by
  induction pairs generalizing m with
  | nil => simp
  | cons p pairs ih =>
    obtain ⟨k,v⟩ := p
    obtain ⟨hk,hn,hd⟩ := (nodup_new_cons (v := v)).mp ⟨hn,hd⟩
    rw [Std.ExtTreeMap.insertMany_cons,ih hn hd,getElem?_insert_eq_some hk,or_assoc]
    simp

/-- The order in which pairs with distinct keys are added does not matter. -/
theorem insertMany_perm {pairs pairs' : List (κ × ν)} (h : pairs.Perm pairs')
    (hn : (pairs.map Prod.fst).Nodup) :
    (∅ : BTreeMap κ ν).insertMany pairs = (∅ : BTreeMap κ ν).insertMany pairs' := by
  have hn' : (pairs'.map Prod.fst).Nodup := (h.map Prod.fst).nodup_iff.mp hn
  apply Std.ExtTreeMap.ext_getElem?
  intro k
  apply Option.ext
  intro v
  rw [getElem?_insertMany_eq_some hn (by simp),getElem?_insertMany_eq_some hn' (by simp),h.mem_iff]

/-- Maps with the same keys list them in the same order. -/
theorem keys_eq_of_mem_iff {ω : Type} {m : BTreeMap κ ν} {n : BTreeMap κ ω}
    (h : ∀ k, k ∈ m ↔ k ∈ n) : m.keys = n.keys := by
  have hperm : m.keys.Perm n.keys := by
    apply (List.perm_ext_iff_of_nodup Std.ExtTreeMap.nodup_keys Std.ExtTreeMap.nodup_keys).mpr
    intro k
    rw [Std.ExtTreeMap.mem_keys,Std.ExtTreeMap.mem_keys,h k]
  apply hperm.eq_of_pairwise _ Std.ExtTreeMap.ordered_keys Std.ExtTreeMap.ordered_keys
  intro a b _ _ hab hba
  rw [Std.OrientedOrd.eq_swap,hab] at hba
  contradiction

end BTreeMap
end SoapAxum.Data
