import Mathlib.Data.List.Dedup
import Mathlib.Tactic.Lemma

/-! Maps with several values for a key. The values of one key keep their order. -/
namespace SoapAxum.Data

structure Multimap (κ ν : Type) where
  entries : List (κ × ν)
  deriving DecidableEq,Repr

namespace Multimap

variable {κ ν : Type} [DecidableEq κ]

def empty : Multimap κ ν := ⟨[]⟩

/-- All values of a key, in insertion order. -/
def getAll (m : Multimap κ ν) (k : κ) : List ν := (m.entries.filter (·.1 = k)).map Prod.snd

def keys (m : Multimap κ ν) : List κ := (m.entries.map Prod.fst).dedup

/-- The keys in the order in which they first came. -/
def names (m : Multimap κ ν) : List κ := (m.entries.map Prod.fst).eraseDups

def remove (m : Multimap κ ν) (k : κ) : Multimap κ ν := ⟨m.entries.filter (·.1 ≠ k)⟩

/-- Add a value after those the key already has. -/
def append (m : Multimap κ ν) (k : κ) (v : ν) : Multimap κ ν := ⟨m.entries ++ [(k,v)]⟩

/-- Replace all values of a key by one. -/
def insert (m : Multimap κ ν) (k : κ) (v : ν) : Multimap κ ν := (m.remove k).append k v

@[simp] theorem getAll_empty (k : κ) : (empty : Multimap κ ν).getAll k = [] := rfl

theorem getAll_remove (m : Multimap κ ν) (k j : κ) :
    (m.remove k).getAll j = if j = k then [] else m.getAll j := by
  rw [getAll,remove,List.filter_filter]
  split_ifs with h
  · subst h
    simp
  · rw [getAll]
    congr 1
    apply List.filter_congr
    rintro ⟨i,v⟩ -
    by_cases hi : i = j <;> simp [hi,h]

lemma getAll_append (m : Multimap κ ν) (k j : κ) (v : ν) :
    (m.append k v).getAll j = if j = k then m.getAll j ++ [v] else m.getAll j := by
  rw [getAll,append,List.filter_append,List.map_append]
  split_ifs with h
  · simp [h,getAll]
  · simp [Ne.symm h,getAll]

lemma getAll_insert (m : Multimap κ ν) (k j : κ) (v : ν) :
    (m.insert k v).getAll j = if j = k then [v] else m.getAll j := by
  rw [insert,getAll_append,getAll_remove]
  split_ifs <;> rfl

@[simp] theorem getAll_insert_self (m : Multimap κ ν) (k : κ) (v : ν) :
    (m.insert k v).getAll k = [v] := by rw [getAll_insert,if_pos rfl]

lemma getAll_insert_of_ne (m : Multimap κ ν) {k j : κ} (v : ν) (h : j ≠ k) :
    (m.insert k v).getAll j = m.getAll j := by rw [getAll_insert,if_neg h]

/-- A key is present exactly if it has a value. -/
theorem mem_keys {m : Multimap κ ν} {k : κ} : k ∈ m.keys ↔ m.getAll k ≠ [] := by
  simp only [keys,getAll,List.mem_dedup,List.mem_map,ne_eq,List.map_eq_nil_iff,
    List.filter_eq_nil_iff,decide_eq_true_eq]
  constructor
  · rintro ⟨e,he,hk⟩ h
    exact h e he hk
  · intro h
    by_contra hn
    exact h fun e he hk => hn ⟨e,he,hk⟩

/-- Append a list of values to one key. -/
def appendAll (m : Multimap κ ν) (k : κ) (vs : List ν) : Multimap κ ν :=
  vs.foldl (fun m v => m.append k v) m

lemma getAll_appendAll (m : Multimap κ ν) (k j : κ) (vs : List ν) :
    (m.appendAll k vs).getAll j = if j = k then m.getAll j ++ vs else m.getAll j := by
  induction vs generalizing m with
  | nil => simp [appendAll]
  | cons v vs ih =>
    change ((m.append k v).appendAll k vs).getAll j = _
    rw [ih,getAll_append]
    split_ifs <;> simp

/-- Write all values of each key of `source` over those the key has in `target`. -/
def overlay (target source : Multimap κ ν) : Multimap κ ν :=
  source.keys.foldl (fun m k => (m.remove k).appendAll k (source.getAll k)) target

theorem getAll_overlay (target source : Multimap κ ν) (j : κ) :
    (overlay target source).getAll j =
      if source.getAll j = [] then target.getAll j else source.getAll j := by
  have step : ∀ (ks : List κ) (m : Multimap κ ν),
      (ks.foldl (fun m k => (m.remove k).appendAll k (source.getAll k)) m).getAll j =
        if j ∈ ks then source.getAll j else m.getAll j := by
    intro ks
    induction ks with
    | nil => simp
    | cons k ks ih =>
      intro m
      rw [List.foldl_cons,ih,getAll_appendAll,getAll_remove]
      by_cases hj : j ∈ ks <;> by_cases hk : j = k <;> simp [hj,hk]
  rw [overlay,step]
  by_cases h : source.getAll j = []
  · rw [if_neg (fun hm => mem_keys.mp hm h),if_pos h]
  · rw [if_pos (mem_keys.mpr h),if_neg h]

end Multimap
end SoapAxum.Data
