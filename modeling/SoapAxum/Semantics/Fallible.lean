import Mathlib.Data.List.Forall2
import Mathlib.Tactic.Lemma

/-! Loops that stop at the first failure. -/
namespace SoapAxum.Semantics.Fallible

variable {ε α β : Type}

lemma ok_ne_error {a : α} {e : ε} : (Except.ok a : Except ε α) ≠ .error e := nofun

lemma ok_bind (a : α) (f : α → Except ε β) : Except.ok a >>= f = f a := rfl

lemma bind_eq_ok {r : Except ε α} {f : α → Except ε β} {b : β} :
    r >>= f = .ok b ↔ ∃ a, r = .ok a ∧ f a = .ok b := by
  cases r with
  | ok a => exact ⟨fun h => ⟨a,rfl,h⟩,fun ⟨_,h,hb⟩ => Except.ok.inj h ▸ hb⟩
  | error e => exact ⟨fun h => (nomatch h),fun ⟨_,h,_⟩ => (nomatch h)⟩

lemma mapError_eq_ok {δ : Type} {r : Except ε α} {f : ε → δ} {a : α} :
    r.mapError f = .ok a ↔ r = .ok a := by
  cases r with
  | ok b => simp [Except.mapError]
  | error e => simp [Except.mapError]

theorem bind_eq_error {r : Except ε α} {f : α → Except ε β} {e : ε} :
    r >>= f = .error e ↔ r = .error e ∨ ∃ a, r = .ok a ∧ f a = .error e := by
  cases r with
  | ok a =>
    constructor
    · exact fun h => Or.inr ⟨a,rfl,h⟩
    · rintro (h | ⟨b,h,hf⟩)
      · cases h
      · obtain rfl := Except.ok.inj h
        exact hf
  | error e' =>
    constructor
    · exact fun h => Or.inl (congrArg _ (Except.error.inj h))
    · rintro (h | ⟨b,h,-⟩)
      · exact congrArg _ (Except.error.inj h)
      · cases h

lemma mapError_eq_error {δ : Type} {r : Except ε α} {f : ε → δ} {d : δ} :
    r.mapError f = .error d ↔ ∃ e, r = .error e ∧ d = f e := by
  cases r with
  | ok a => simp [Except.mapError]
  | error e => simp [Except.mapError,eq_comm]

lemma bind_ok_eq_error {r : Except ε α} {f : α → β} {e : ε} :
    (r >>= fun a => .ok (f a)) = .error e ↔ r = .error e := by
  cases r with
  | ok a => exact iff_of_false ok_ne_error ok_ne_error
  | error e' => exact ⟨fun h => congrArg _ (Except.error.inj h),fun h => congrArg _ (Except.error.inj h)⟩

lemma error_bind_ne_ok (e : ε) (f : α → Except ε β) : ¬ ∃ b, Except.error e >>= f = .ok b := by
  intro h
  obtain ⟨b,hb⟩ := h
  contradiction

/-- What holds of the failures of every pass holds of the failure of the loop. -/
theorem foldlM_error {f : β → α → Except ε β} {P : ε → Prop} {xs : List α} {b : β} {e : ε}
    (hf : ∀ b x e, f b x = .error e → P e) (h : xs.foldlM f b = .error e) : P e := by
  induction xs generalizing b with
  | nil => nomatch h
  | cons x xs ih =>
    rw [List.foldlM_cons] at h
    cases hx : f b x with
    | error e' =>
      rw [hx] at h
      exact hf b x e (Except.error.inj h ▸ hx)
    | ok b' =>
      rw [hx] at h
      exact ih h

/-- What a state says about the log of the passes so far, it says after the loop about the log of
all. -/
theorem foldlM_log {γ : Type} {f : β → α → Except ε β} {log : α → List γ} {P : List γ → β → Prop}
    (hf : ∀ past b x b', P past b → f b x = .ok b' → P (past ++ log x) b')
    {xs : List α} {past : List γ} {b b' : β} (hb : P past b) (h : xs.foldlM f b = .ok b') :
    P (past ++ xs.flatMap log) b' := by
  induction xs generalizing past b with
  | nil =>
    obtain rfl := Except.ok.inj h
    rwa [List.flatMap_nil,List.append_nil]
  | cons x xs ih =>
    rw [List.foldlM_cons] at h
    obtain ⟨b₁,hx,hxs⟩ := bind_eq_ok.mp h
    rw [List.flatMap_cons,← List.append_assoc]
    exact ih (hf past b x b₁ hb hx) hxs

/-- A loop fails exactly at a pass that fails after others that did not. -/
theorem foldlM_eq_error {f : β → α → Except ε β} {xs : List α} {b : β} {e : ε} :
    xs.foldlM f b = .error e ↔ ∃ before x after mid, xs = before ++ x :: after ∧
      before.foldlM f b = .ok mid ∧ f mid x = .error e := by
  induction xs generalizing b with
  | nil =>
    refine iff_of_false nofun ?_
    rintro ⟨before,x,after,mid,h,-⟩
    simp at h
  | cons y xs ih =>
    rw [List.foldlM_cons]
    constructor
    · intro h
      cases hy : f b y with
      | error e' =>
        rw [hy] at h
        exact ⟨[],y,xs,b,rfl,rfl,hy.trans h⟩
      | ok b' =>
        rw [hy] at h
        obtain ⟨before,x,after,mid,rfl,hmid,hx⟩ := ih.mp h
        refine ⟨y :: before,x,after,mid,rfl,?_,hx⟩
        rw [List.foldlM_cons,hy]
        exact hmid
    · rintro ⟨before,x,after,mid,h,hmid,hx⟩
      cases before with
      | nil =>
        obtain ⟨rfl,rfl⟩ := List.cons.inj h
        obtain rfl := Except.ok.inj hmid
        rw [hx]
        rfl
      | cons z before =>
        obtain ⟨rfl,rfl⟩ := List.cons.inj h
        obtain ⟨b',hz,hmid⟩ := bind_eq_ok.mp hmid
        rw [hz]
        exact ih.mpr ⟨before,x,after,mid,rfl,hmid,hx⟩

/-- A loop whose passes are images of those of another loop is the image of that. -/
theorem foldlM_map {γ : Type} {f : β → α → Except ε β} {f' : γ → α → Except ε γ} {g : β → γ}
    (h : ∀ b x, f' (g b) x = (f b x).map g) (xs : List α) (b : β) :
    xs.foldlM f' (g b) = (xs.foldlM f b).map g := by
  induction xs generalizing b with
  | nil => rfl
  | cons x xs ih =>
    rw [List.foldlM_cons,List.foldlM_cons,h]
    cases f b x with
    | error e => rfl
    | ok b' => exact ih b'

/-- A mapping succeeds exactly if it does at every element. -/
theorem mapM_eq_ok {f : α → Except ε β} {xs : List α} {ys : List β} :
    xs.mapM f = .ok ys ↔ List.Forall₂ (fun x y => f x = .ok y) xs ys := by
  induction xs generalizing ys with
  | nil =>
    rw [List.mapM_nil,List.forall₂_nil_left_iff]
    exact ⟨fun h => (Except.ok.inj h).symm,fun h => congrArg Except.ok h.symm⟩
  | cons x xs ih =>
    rw [List.mapM_cons,bind_eq_ok,List.forall₂_cons_left_iff]
    refine exists_congr fun y => ?_
    rw [bind_eq_ok]
    constructor
    · rintro ⟨hy,rest,hrest,h⟩
      exact ⟨rest,hy,ih.mp hrest,(Except.ok.inj h).symm⟩
    · rintro ⟨rest,hy,hrest,rfl⟩
      exact ⟨hy,rest,ih.mpr hrest,rfl⟩

/-- A mapping fails at the first element at which it does. -/
theorem mapM_eq_error {f : α → Except ε β} {xs : List α} {e : ε} :
    xs.mapM f = .error e ↔ ∃ before x after, xs = before ++ x :: after ∧
      (∀ y ∈ before, ∃ b, f y = .ok b) ∧ f x = .error e := by
  induction xs with
  | nil =>
    refine iff_of_false nofun ?_
    rintro ⟨before,x,after,h,-⟩
    simp at h
  | cons y xs ih =>
    rw [List.mapM_cons]
    cases hy : f y with
    | error e' =>
      constructor
      · intro h
        exact ⟨[],y,xs,rfl,by simp,hy.trans (congrArg _ (Except.error.inj h))⟩
      · rintro ⟨before,x,after,h,hb,hx⟩
        cases before with
        | nil =>
          obtain ⟨rfl,-⟩ := List.cons.inj h
          exact congrArg _ (Except.error.inj (hy.symm.trans hx))
        | cons z before =>
          obtain ⟨rfl,-⟩ := List.cons.inj h
          obtain ⟨b,hz⟩ := (List.forall_mem_cons.mp hb).1
          nomatch hy.symm.trans hz
    | ok b =>
      change (xs.mapM f >>= fun bs => .ok (b :: bs)) = .error e ↔ _
      rw [bind_ok_eq_error,ih]
      constructor
      · rintro ⟨before,x,after,rfl,hb,hx⟩
        exact ⟨y :: before,x,after,rfl,List.forall_mem_cons.mpr ⟨⟨b,hy⟩,hb⟩,hx⟩
      · rintro ⟨before,x,after,h,hb,hx⟩
        cases before with
        | nil =>
          obtain ⟨rfl,-⟩ := List.cons.inj h
          nomatch hy.symm.trans hx
        | cons z before =>
          obtain ⟨rfl,rfl⟩ := List.cons.inj h
          exact ⟨before,x,after,rfl,(List.forall_mem_cons.mp hb).2,hx⟩

/-- A search in two parts goes on with the second if nothing is found in the first. -/
theorem anyM_append (p : α → Except ε Bool) (xs ys : List α) :
    (xs ++ ys).anyM p = xs.anyM p >>= fun found => if found then .ok true else ys.anyM p := by
  induction xs with
  | nil => rfl
  | cons x xs ih =>
    rw [List.cons_append,List.anyM_cons,List.anyM_cons]
    cases hx : p x with
    | error e => rfl
    | ok found => cases found with
      | true => rfl
      | false => exact ih

/-- Where no pass fails, the search is that for a pure predicate. -/
theorem anyM_of_forall {p : α → Except ε Bool} {q : α → Bool} {xs : List α}
    (h : ∀ x ∈ xs, p x = .ok (q x)) : xs.anyM p = .ok (xs.any q) := by
  induction xs with
  | nil => rfl
  | cons x xs ih =>
    obtain ⟨hx,hxs⟩ := List.forall_mem_cons.mp h
    rw [List.anyM_cons,hx,List.any_cons]
    cases hq : q x with
    | true => rfl
    | false => exact ih hxs

/-- A search fails exactly at a pass that fails before anything is found. -/
theorem anyM_error_iff {p : α → Except ε Bool} {xs : List α} {e : ε} :
    xs.anyM p = .error e ↔ ∃ before x after, xs = before ++ x :: after ∧
      (∀ y ∈ before, p y = .ok false) ∧ p x = .error e := by
  induction xs with
  | nil =>
    refine iff_of_false (by simp [pure,Except.pure]) ?_
    rintro ⟨before,x,after,h,-⟩
    simp at h
  | cons x xs ih =>
    rw [List.anyM_cons]
    constructor
    · intro h
      cases hx : p x with
      | error e' =>
        rw [hx] at h
        exact ⟨[],x,xs,rfl,by simp,hx.trans h⟩
      | ok found =>
        rw [hx] at h
        cases found with
        | true => nomatch h
        | false =>
          obtain ⟨before,y,after,rfl,hb,hy⟩ := ih.mp h
          refine ⟨x :: before,y,after,rfl,?_,hy⟩
          exact List.forall_mem_cons.mpr ⟨hx,hb⟩
    · rintro ⟨before,y,after,h,hb,hy⟩
      cases before with
      | nil =>
        obtain ⟨rfl,rfl⟩ := List.cons.inj h
        rw [hy]
        rfl
      | cons z before =>
        obtain ⟨rfl,rfl⟩ := List.cons.inj h
        obtain ⟨hz,hb⟩ := List.forall_mem_cons.mp hb
        rw [hz]
        exact ih.mpr ⟨before,y,after,rfl,hb,hy⟩

/-- A result that is not a value is an error. -/
theorem exists_error_of_not_ok {r : Except ε α} (h : ¬ ∃ a, r = .ok a) : ∃ e, r = .error e := by
  cases r with
  | ok a => exact absurd ⟨a,rfl⟩ h
  | error e => exact ⟨e,rfl⟩

end SoapAxum.Semantics.Fallible
