import SoapAxum.Request.Query

/-! The parameters of a query as a map: pairs are grouped by their name, and the values of a name
stay in the order in which they came. -/
namespace SoapAxum.Request
open SoapAxum.Text SoapAxum.Data

/-- The values of a name, in order. -/
def valuesOf (name : Str) (pairs : List (Str × Str)) : List Str :=
  (pairs.filter fun pair => pair.1 = name).map Prod.snd

lemma valuesOf_cons (name : Str) (pair : Str × Str) (pairs : List (Str × Str)) :
    valuesOf name (pair :: pairs) =
      if pair.1 = name then pair.2 :: valuesOf name pairs else valuesOf name pairs := by
  unfold valuesOf
  rw [List.filter_cons]
  by_cases h : pair.1 = name <;> simp [h]

lemma getElem?_pushParameter (m : BTreeMap Str (List Str)) (pair : Str × Str) (name : Str) :
    (pushParameter m pair)[name]? =
      if pair.1 = name then some (m[pair.1]?.getD [] ++ [pair.2]) else m[name]? := by
  unfold pushParameter
  rw [Std.ExtTreeMap.getElem?_insert]
  simp only [Std.LawfulEqOrd.compare_eq_iff_eq]

/-- Every name gets its values in order, behind those it had. -/
theorem getElem?_foldl_pushParameter (m : BTreeMap Str (List Str)) (pairs : List (Str × Str))
    (name : Str) : (pairs.foldl pushParameter m)[name]? =
      if name ∈ pairs.map Prod.fst then some (m[name]?.getD [] ++ valuesOf name pairs)
      else m[name]? := by
  induction pairs generalizing m with
  | nil => rfl
  | cons pair pairs ih =>
    rw [List.foldl_cons,ih,getElem?_pushParameter,valuesOf_cons,List.map_cons]
    by_cases h : pair.1 = name
    · subst h
      have hnone : pair.1 ∉ pairs.map Prod.fst → valuesOf pair.1 pairs = [] := by
        intro hn
        unfold valuesOf
        rw [List.filter_eq_nil_iff.mpr,List.map_nil]
        intro other hother he
        exact hn (List.mem_map.mpr ⟨other,hother,of_decide_eq_true he⟩)
      by_cases hm : pair.1 ∈ pairs.map Prod.fst
      · simp [hm]
      · simp [hm,hnone hm]
    · have hn : name ≠ pair.1 := Ne.symm h
      simp only [h,hn,if_false,List.mem_cons,false_or]

/-- The map of a list of pairs holds its names, each with its values in order, and nothing else. -/
theorem getElem?_foldl_pushParameter_empty (pairs : List (Str × Str)) (name : Str) :
    (pairs.foldl pushParameter ∅)[name]? =
      if name ∈ pairs.map Prod.fst then some (valuesOf name pairs) else none := by
  rw [getElem?_foldl_pushParameter]
  simp

lemma valuesOf_append (name : Str) (pairs pairs' : List (Str × Str)) :
    valuesOf name (pairs ++ pairs') = valuesOf name pairs ++ valuesOf name pairs' := by
  unfold valuesOf
  rw [List.filter_append,List.map_append]

lemma mem_map_fst_iff_valuesOf_ne_nil {name : Str} {pairs : List (Str × Str)} :
    name ∈ pairs.map Prod.fst ↔ valuesOf name pairs ≠ [] := by
  unfold valuesOf
  simp [List.filter_eq_nil_iff]

theorem count_valuesOf (name value : Str) (pairs : List (Str × Str)) :
    (valuesOf name pairs).count value = pairs.count (name,value) := by
  induction pairs with
  | nil => rfl
  | cons pair pairs ih =>
    obtain ⟨n,v⟩ := pair
    rw [valuesOf_cons,List.count_cons,← ih]
    by_cases hn : n = name
    · by_cases hv : v = value <;> simp [hn,hv]
    · simp [hn]

/-- Lists with the same values for each name have the same pairs, in some order. -/
theorem perm_of_valuesOf {pairs pairs' : List (Str × Str)}
    (h : ∀ name, valuesOf name pairs = valuesOf name pairs') : pairs.Perm pairs' := by
  rw [List.perm_iff_count]
  intro pair
  rw [← count_valuesOf,← count_valuesOf,h]

/-- Such lists are grouped to the same map. -/
theorem foldl_pushParameter_congr {pairs pairs' : List (Str × Str)}
    (h : ∀ name, valuesOf name pairs = valuesOf name pairs') :
    pairs.foldl pushParameter ∅ = pairs'.foldl pushParameter ∅ := by
  apply Std.ExtTreeMap.ext_getElem?
  intro name
  simp only [getElem?_foldl_pushParameter_empty,mem_map_fst_iff_valuesOf_ne_nil,h]

/-- The pairs of a map: its names in ascending order, each with its values. -/
def flattenParameters (parameters : BTreeMap Str (List Str)) : List (Str × Str) :=
  parameters.toList.flatMap fun entry => entry.2.map fun value => (entry.1,value)

lemma valuesOf_map_prodMk (name name' : Str) (values : List Str) :
    valuesOf name (values.map fun value => (name',value)) = if name' = name then values else [] := by
  unfold valuesOf
  by_cases h : name' = name <;> simp [h,List.filter_map,Function.comp_def]

theorem valuesOf_flatMap_of_mem {entries : List (Str × List Str)} {name : Str} {values : List Str}
    (hd : entries.Pairwise fun a b => a.1 ≠ b.1) (h : (name,values) ∈ entries) :
    valuesOf name (entries.flatMap fun entry => entry.2.map fun value => (entry.1,value)) =
      values := by
  have hother : ∀ rest : List (Str × List Str), (∀ entry ∈ rest, name ≠ entry.1) →
      valuesOf name (rest.flatMap fun entry => entry.2.map fun value => (entry.1,value)) = [] := by
    intro rest hrest
    induction rest with
    | nil => rfl
    | cons entry rest ih =>
      obtain ⟨hentry,hrest⟩ := List.forall_mem_cons.mp hrest
      rw [List.flatMap_cons,valuesOf_append,valuesOf_map_prodMk,if_neg (Ne.symm hentry),ih hrest]
      rfl
  induction entries with
  | nil => contradiction
  | cons entry rest ih =>
    obtain ⟨hentry,hd⟩ := List.pairwise_cons.mp hd
    rw [List.flatMap_cons,valuesOf_append,valuesOf_map_prodMk]
    rcases List.mem_cons.mp h with rfl | h
    · rw [if_pos rfl,hother rest hentry,List.append_nil]
    · rw [if_neg (hentry _ h),ih hd h,List.nil_append]

/-- Flattening keeps the values of each name as they are. -/
theorem valuesOf_flattenParameters (pairs : List (Str × Str)) (name : Str) :
    valuesOf name (flattenParameters (pairs.foldl pushParameter ∅)) = valuesOf name pairs := by
  generalize hm : pairs.foldl pushParameter ∅ = m
  have hget : m[name]? = if name ∈ pairs.map Prod.fst then some (valuesOf name pairs) else none := by
    rw [← hm,getElem?_foldl_pushParameter_empty]
  have hd : m.toList.Pairwise fun a b => a.1 ≠ b.1 := by
    refine Std.ExtTreeMap.distinct_keys_toList.imp fun h he => h ?_
    rw [he]
    exact Std.ReflCmp.compare_self
  by_cases hn : name ∈ pairs.map Prod.fst
  · rw [if_pos hn] at hget
    exact valuesOf_flatMap_of_mem hd (Std.ExtTreeMap.mem_toList_iff_getElem?_eq_some.mpr hget)
  · rw [if_neg hn] at hget
    rw [not_not.mp (mt mem_map_fst_iff_valuesOf_ne_nil.mpr hn)]
    by_contra hne
    obtain ⟨pair,hp,rfl⟩ := List.mem_map.mp (mem_map_fst_iff_valuesOf_ne_nil.mpr hne)
    obtain ⟨entry,he,hv⟩ := List.mem_flatMap.mp hp
    obtain ⟨value,-,rfl⟩ := List.mem_map.mp hv
    rw [Std.ExtTreeMap.mem_toList_iff_getElem?_eq_some.mp he] at hget
    contradiction

/-- Names come in ascending order. -/
theorem pairwise_flattenParameters (parameters : BTreeMap Str (List Str)) :
    (flattenParameters parameters).Pairwise fun a b => (compare a.1 b.1).isLE := by
  unfold flattenParameters
  rw [List.pairwise_flatMap]
  constructor
  · intro entry _
    have hself : compare entry.1 entry.1 = .eq := Std.ReflCmp.compare_self
    rw [List.pairwise_map]
    apply List.pairwise_of_forall
    intro _ _
    rw [hself]
    rfl
  · refine Std.ExtTreeMap.ordered_keys_toList.imp fun h => ?_
    intro a ha b hb
    obtain ⟨_,-,rfl⟩ := List.mem_map.mp ha
    obtain ⟨_,-,rfl⟩ := List.mem_map.mp hb
    rw [h]
    rfl

end SoapAxum.Request
