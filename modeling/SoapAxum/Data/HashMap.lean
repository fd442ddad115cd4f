import Mathlib.Logic.Basic
import Mathlib.Tactic.Lemma

/-! Maps that are looked up and written but never iterated, so they are their lookups. -/
namespace SoapAxum.Data

structure HashMap (κ ν : Type) where
  get : κ → Option ν

namespace HashMap

variable {κ ν : Type} [DecidableEq κ]

def empty : HashMap κ ν := ⟨fun _ => none⟩

def insert (m : HashMap κ ν) (k : κ) (v : ν) : HashMap κ ν :=
  ⟨fun j => if j = k then some v else m.get j⟩

def remove (m : HashMap κ ν) (k : κ) : HashMap κ ν := ⟨fun j => if j = k then none else m.get j⟩

/-- Change the value of a key, which starts with a default. -/
def modifyEntry (m : HashMap κ ν) (k : κ) (default : ν) (f : ν → ν) : HashMap κ ν :=
  m.insert k (f ((m.get k).getD default))

def removeAll (m : HashMap κ ν) (ks : List κ) : HashMap κ ν :=
  ⟨fun j => if j ∈ ks then none else m.get j⟩

omit [DecidableEq κ] in
@[simp] theorem get_empty (k : κ) : (empty : HashMap κ ν).get k = none := rfl

lemma get_insert (m : HashMap κ ν) (j k : κ) (v : ν) :
    (m.insert k v).get j = if j = k then some v else m.get j := rfl

lemma get_removeAll (m : HashMap κ ν) (j : κ) (ks : List κ) :
    (m.removeAll ks).get j = if j ∈ ks then none else m.get j := rfl

@[simp] theorem removeAll_nil (m : HashMap κ ν) : m.removeAll [] = m := by
  simp [removeAll]

lemma remove_removeAll (m : HashMap κ ν) (k : κ) (ks : List κ) :
    (m.removeAll ks).remove k = m.removeAll (k :: ks) := by
  rw [remove,removeAll,HashMap.mk.injEq]
  funext j
  by_cases h : j = k <;> simp [h,get_removeAll]

lemma getD_modifyEntry (m : HashMap κ ν) (j k : κ) (default : ν) (f : ν → ν) :
    ((m.modifyEntry k default f).get j).getD default =
      if j = k then f ((m.get j).getD default) else (m.get j).getD default := by
  rw [modifyEntry,get_insert]
  by_cases h : j = k
  · rw [if_pos h,if_pos h,h,Option.getD_some]
  · rw [if_neg h,if_neg h]

/-- A list per key: what is appended shows under its own key and no other. -/
theorem getD_modifyEntry_append {α : Type} (m : HashMap κ (List α)) (j k : κ) (a : α) :
    ((m.modifyEntry k [] (· ++ [a])).get j).getD [] =
      (m.get j).getD [] ++ if k = j then [a] else [] := by
  rw [getD_modifyEntry]
  by_cases h : j = k
  · rw [if_pos h,if_pos h.symm]
  · rw [if_neg h,if_neg (Ne.symm h),List.append_nil]

end HashMap
end SoapAxum.Data
