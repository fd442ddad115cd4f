import Mathlib.Data.List.Basic
import Mathlib.Tactic.Lemma

/-! Lists that keep the first element of each class of equivalent ones. -/
namespace SoapAxum.Data.Distinct

variable {α : Type} (same : α → α → Bool)

/-- Add an element at the end, unless one like it is there. -/
def pushNew (kept : List α) (candidate : α) : List α :=
  if kept.any fun x => same x candidate then kept else kept ++ [candidate]

/-- Add all candidates, in their order. -/
def pushAll (kept candidates : List α) : List α := candidates.foldl (pushNew same) kept

variable {same}

lemma pushAll_cons_of_mem {kept candidates : List α} {candidate : α}
    (h : ∃ x ∈ kept, same x candidate = true) :
    pushAll same kept (candidate :: candidates) = pushAll same kept candidates := by
  unfold pushAll
  rw [List.foldl_cons,pushNew,if_pos (List.any_eq_true.mpr h)]

lemma pushAll_cons_of_not_mem {kept candidates : List α} {candidate : α}
    (h : ¬ ∃ x ∈ kept, same x candidate = true) :
    pushAll same kept (candidate :: candidates) = pushAll same (kept ++ [candidate]) candidates := by
  unfold pushAll
  rw [List.foldl_cons,pushNew,if_neg (by rwa [List.any_eq_true])]

lemma pushAll_append (kept xs ys : List α) :
    pushAll same kept (xs ++ ys) = pushAll same (pushAll same kept xs) ys := List.foldl_append

/-- What is kept stays, and behind it come the first ones of what is not yet there. -/
theorem pushAll_eq (kept candidates : List α) :
    pushAll same kept candidates = kept ++
      (candidates.filter fun c => !kept.any fun x => same x c).eraseDupsBy fun c x => same x c := by
  induction candidates generalizing kept with
  | nil => exact (List.append_nil kept).symm
  | cons candidate candidates ih =>
    by_cases h : ∃ x ∈ kept, same x candidate = true
    · have hany : (kept.any fun x => same x candidate) = true := List.any_eq_true.mpr h
      rw [pushAll_cons_of_mem h,ih,List.filter_cons_of_neg (by simp [hany])]
    · have hany : (kept.any fun x => same x candidate) = false := by
        rwa [← Bool.not_eq_true,List.any_eq_true]
      rw [pushAll_cons_of_not_mem h,ih,List.filter_cons_of_pos (by simp [hany]),
        List.eraseDupsBy_cons,List.filter_filter,List.append_assoc,List.singleton_append]
      congr 3
      apply List.filter_congr
      intro c _
      rw [List.any_append,List.any_cons,List.any_nil,Bool.or_false,Bool.not_or,Bool.and_comm]
      cases same candidate c <;> rfl

lemma pushAll_nil_eq (candidates : List α) :
    pushAll same [] candidates = candidates.eraseDupsBy fun c x => same x c := by
  rw [pushAll_eq,List.nil_append]
  congr 1
  exact List.filter_eq_self.mpr fun _ _ => rfl

lemma subset_pushAll (kept candidates : List α) : kept ⊆ pushAll same kept candidates := by
  rw [pushAll_eq]
  exact List.subset_append_left _ _

theorem pushAll_sublist (kept candidates : List α) :
    (pushAll same kept candidates).Sublist (kept ++ candidates) := by
  induction candidates generalizing kept with
  | nil => exact List.sublist_append_left _ _
  | cons candidate candidates ih =>
    by_cases h : ∃ x ∈ kept, same x candidate = true
    · rw [pushAll_cons_of_mem h]
      exact (ih kept).trans ((List.Sublist.refl kept).append (List.sublist_cons_self _ _))
    · have hsub := ih (kept ++ [candidate])
      rwa [List.append_assoc,List.singleton_append,← pushAll_cons_of_not_mem h] at hsub

lemma mem_of_mem_pushAll {kept candidates : List α} {x : α} (h : x ∈ pushAll same kept candidates) :
    x ∈ kept ∨ x ∈ candidates :=
  List.mem_append.mp ((pushAll_sublist kept candidates).subset h)

/-- No two of the kept elements are alike. -/
theorem pairwise_pushAll {kept : List α} (candidates : List α)
    (h : kept.Pairwise fun x y => same x y = false) :
    (pushAll same kept candidates).Pairwise fun x y => same x y = false := by
  induction candidates generalizing kept with
  | nil => exact h
  | cons candidate candidates ih =>
    by_cases hm : ∃ x ∈ kept, same x candidate = true
    · rw [pushAll_cons_of_mem hm]
      exact ih h
    · rw [pushAll_cons_of_not_mem hm]
      apply ih
      rw [List.pairwise_append]
      refine ⟨h,List.pairwise_singleton _ _,?_⟩
      intro x hx y hy
      rw [List.mem_singleton.mp hy,← Bool.not_eq_true]
      exact fun hs => hm ⟨x,hx,hs⟩

/-- Nothing is lost: each candidate has one like it among the kept. -/
theorem exists_mem_pushAll (hrefl : ∀ x, same x x = true) {kept candidates : List α} {c : α}
    (h : c ∈ kept ++ candidates) : ∃ x ∈ pushAll same kept candidates, same x c = true := by
  induction candidates generalizing kept with
  | nil =>
    rw [List.append_nil] at h
    exact ⟨c,h,hrefl c⟩
  | cons candidate candidates ih =>
    by_cases hm : ∃ x ∈ kept, same x candidate = true
    · rw [pushAll_cons_of_mem hm]
      rcases List.mem_append.mp h with hk | hc
      · exact ⟨c,subset_pushAll kept candidates hk,hrefl c⟩
      · rcases List.mem_cons.mp hc with rfl | hc
        · obtain ⟨x,hx,hs⟩ := hm
          exact ⟨x,subset_pushAll kept candidates hx,hs⟩
        · exact ih (List.mem_append_right _ hc)
    · rw [pushAll_cons_of_not_mem hm]
      apply ih
      rwa [List.append_assoc,List.singleton_append]

theorem exists_mem_pushAll_iff (hrefl : ∀ x, same x x = true)
    (htrans : ∀ x y z, same x y = true → same y z = true → same x z = true)
    {kept candidates : List α} {c : α} :
    (∃ x ∈ pushAll same kept candidates, same x c = true) ↔
      ∃ x ∈ kept ++ candidates, same x c = true := by
  constructor
  · rintro ⟨x,hx,hs⟩
    exact ⟨x,(pushAll_sublist kept candidates).subset hx,hs⟩
  · rintro ⟨x,hx,hs⟩
    obtain ⟨y,hy,hyx⟩ := exists_mem_pushAll hrefl hx
    exact ⟨y,hy,htrans y x c hyx hs⟩

/-- Candidates that are all there already add nothing. -/
theorem pushAll_of_covered {kept candidates : List α}
    (h : ∀ c ∈ candidates, ∃ x ∈ kept, same x c = true) : pushAll same kept candidates = kept := by
  induction candidates with
  | nil => rfl
  | cons candidate candidates ih =>
    obtain ⟨hc,h⟩ := List.forall_mem_cons.mp h
    rw [pushAll_cons_of_mem hc,ih h]

/-- Elements no two of which are alike are all kept. -/
theorem pushAll_of_pairwise {kept candidates : List α}
    (h : (kept ++ candidates).Pairwise fun x y => same x y = false) :
    pushAll same kept candidates = kept ++ candidates := by
  induction candidates generalizing kept with
  | nil => exact (List.append_nil kept).symm
  | cons candidate candidates ih =>
    have hm : ¬ ∃ x ∈ kept, same x candidate = true := by
      intro ⟨x,hx,hs⟩
      have hne := (List.pairwise_append.mp h).2.2 x hx candidate List.mem_cons_self
      rw [hne] at hs
      contradiction
    rw [pushAll_cons_of_not_mem hm,ih]
    · rw [List.append_assoc,List.singleton_append]
    · rwa [List.append_assoc,List.singleton_append]

end SoapAxum.Data.Distinct
