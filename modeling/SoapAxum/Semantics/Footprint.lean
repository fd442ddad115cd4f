import SoapAxum.Data.Multimap
import SoapAxum.Semantics.Mutation

/-! Mutations of a map that read and write only some of its keys, and mutations that change nothing
when they are run on what they have left. -/
namespace SoapAxum.Semantics.Mutation
open SoapAxum.Data

variable {ε κ ν α β : Type} [DecidableEq κ]

/-- The two maps have the same values for each of the keys. -/
def AgreeOn (keys : List κ) (s t : Multimap κ ν) : Prop := ∀ k ∈ keys, s.getAll k = t.getAll k

structure Within (keys : List κ) (m : Mutation ε (Multimap κ ν) α) : Prop where
  frame : ∀ s k, k ∉ keys → (m.run s).2.getAll k = s.getAll k
  agree : ∀ s t, AgreeOn keys s t → (m.run s).1 = (m.run t).1 ∧ AgreeOn keys (m.run s).2 (m.run t).2

structure Idempotent (m : Mutation ε (Multimap κ ν) α) : Prop where
  result : ∀ s, (m.run (m.run s).2).1 = (m.run s).1
  state : ∀ s k, (m.run (m.run s).2).2.getAll k = (m.run s).2.getAll k

theorem Within.mono {keys keys' : List κ} {m : Mutation ε (Multimap κ ν) α} (hm : Within keys m)
    (h : keys ⊆ keys') : Within keys' m := by
  have hrestrict : ∀ {s t : Multimap κ ν}, AgreeOn keys' s t → AgreeOn keys s t :=
    fun ha k hk => ha k (h hk)
  constructor
  · intro s k hk
    exact hm.frame s k fun hk' => hk (h hk')
  · intro s t ha
    obtain ⟨hresult,hwrites⟩ := hm.agree s t (hrestrict ha)
    refine ⟨hresult,?_⟩
    intro k hk
    by_cases hk' : k ∈ keys
    · exact hwrites k hk'
    · rw [hm.frame s k hk',hm.frame t k hk',ha k hk]

lemma within_ofExcept (r : Except ε α) : Within [] (ofExcept r : Mutation ε (Multimap κ ν) α) :=
  ⟨fun _ _ _ => rfl,fun _ _ ha => ⟨rfl,ha⟩⟩

lemma within_pure (a : α) : Within [] (pure a : Mutation ε (Multimap κ ν) α) :=
  within_ofExcept (.ok a)

theorem within_insert (k : κ) (v : ν) :
    Within [k] (modify (·.insert k v) : Mutation ε (Multimap κ ν) Unit) := by
  constructor
  · intro s j hj
    exact s.getAll_insert_of_ne v (List.ne_of_not_mem_cons hj)
  · intro s t _
    refine ⟨rfl,?_⟩
    intro j hj
    rw [List.mem_singleton.mp hj,run_modify,run_modify,Multimap.getAll_insert_self,
      Multimap.getAll_insert_self]

/-- A mutation that first looks up one key. -/
theorem within_read {keys : List κ} {k : κ} {f : List ν → Mutation ε (Multimap κ ν) β}
    (hk : k ∈ keys) (hf : ∀ values, Within keys (f values)) :
    Within keys (get >>= fun s => f (s.getAll k)) := by
  have hrun : ∀ s, (get >>= fun s => f (s.getAll k)).run s = (f (s.getAll k)).run s := fun _ => rfl
  constructor
  · intro s j hj
    rw [hrun]
    exact (hf _).frame s j hj
  · intro s t ha
    rw [hrun,hrun,ha k hk]
    exact (hf _).agree s t ha

theorem Within.bind {keys : List κ} {m : Mutation ε (Multimap κ ν) α}
    {f : α → Mutation ε (Multimap κ ν) β} (hm : Within keys m) (hf : ∀ a, Within keys (f a)) :
    Within keys (m >>= f) := by
  constructor
  · intro s k hk
    have hframe := hm.frame s k hk
    rw [run_bind]
    cases h : m.run s with
    | mk r t =>
      rw [h] at hframe
      cases r with
      | error e => exact hframe
      | ok a => exact ((hf a).frame t k hk).trans hframe
  · intro s s' ha
    obtain ⟨hresult,hwrites⟩ := hm.agree s s' ha
    rw [run_bind,run_bind]
    cases h : m.run s with
    | mk r t =>
      cases h' : m.run s' with
      | mk r' t' =>
        rw [h,h'] at hresult hwrites
        change r = r' at hresult
        subst hresult
        cases r with
        | error e => exact ⟨rfl,hwrites⟩
        | ok a => exact (hf a).agree t t' hwrites

lemma idempotent_ofExcept (r : Except ε α) :
    Idempotent (ofExcept r : Mutation ε (Multimap κ ν) α) := ⟨fun _ => rfl,fun _ _ => rfl⟩

lemma idempotent_pure (a : α) : Idempotent (pure a : Mutation ε (Multimap κ ν) α) :=
  idempotent_ofExcept (.ok a)

lemma idempotent_insert (k : κ) (v : ν) :
    Idempotent (modify (·.insert k v) : Mutation ε (Multimap κ ν) Unit) := by
  constructor
  · intro s
    rfl
  · intro s j
    simp only [run_modify,Multimap.getAll_insert]
    split_ifs <;> rfl

/-- A state that a run left runs to the same result and the same state again, however it was
changed outside the footprint. -/
theorem Idempotent.run_agreeing {keys : List κ} {m : Mutation ε (Multimap κ ν) α} {r : Except ε α}
    {s t u : Multimap κ ν} (hm : Idempotent m) (hkeys : Within keys m) (h : m.run s = (r,t))
    (hu : AgreeOn keys u t) : ∃ v, m.run u = (r,v) ∧ ∀ k, v.getAll k = u.getAll k := by
  have hresult := hm.result s
  have hstate := hm.state s
  rw [h] at hresult hstate
  obtain ⟨hagree,hwrites⟩ := hkeys.agree u t hu
  refine ⟨(m.run u).2,Prod.ext (hagree.trans hresult) rfl,?_⟩
  intro k
  by_cases hk : k ∈ keys
  · exact ((hwrites k hk).trans (hstate k)).trans (hu k hk).symm
  · exact hkeys.frame u k hk

/-- It is enough that each run leaves a state that runs to the same result and state. -/
theorem idempotent_of_run {m : Mutation ε (Multimap κ ν) α} (h : ∀ {s : Multimap κ ν} {r t},
    m.run s = (r,t) → ∃ v, m.run t = (r,v) ∧ ∀ k, v.getAll k = t.getAll k) : Idempotent m := by
  have hrun : ∀ s, m.run s = ((m.run s).1,(m.run s).2) := fun _ => rfl
  constructor
  · intro s
    obtain ⟨v,hv,-⟩ := h (hrun s)
    rw [hv]
  · intro s k
    obtain ⟨v,hv,hsame⟩ := h (hrun s)
    rw [hv]
    exact hsame k

/-- Two idempotent steps make an idempotent one if the second leaves the keys of the first alone. -/
theorem Idempotent.bind {keys keys' : List κ} {m : Mutation ε (Multimap κ ν) α}
    {f : α → Mutation ε (Multimap κ ν) β} (hm : Idempotent m) (hf : ∀ a, Idempotent (f a))
    (hkeys : Within keys m) (hkeys' : ∀ a, Within keys' (f a)) (hd : keys.Disjoint keys') :
    Idempotent (m >>= f) := by
  apply idempotent_of_run
  intro s r u hrun
  cases h : m.run s with
  | mk r' t =>
    cases r' with
    | error e =>
      rw [run_bind_of_error h] at hrun
      obtain ⟨rfl,rfl⟩ := Prod.mk.inj hrun
      obtain ⟨v,hv,hsame⟩ := hm.run_agreeing hkeys h fun _ _ => rfl
      exact ⟨v,run_bind_of_error hv,hsame⟩
    | ok a =>
      rw [run_bind_of_ok h] at hrun
      -- The second step has left the footprint of the first as that has left it.
      have hu : AgreeOn keys u t := by
        intro k hk
        have hframe := (hkeys' a).frame t k fun hk' => hd hk hk'
        rwa [hrun] at hframe
      obtain ⟨v,hv,hvu⟩ := hm.run_agreeing hkeys h hu
      obtain ⟨w,hw,hwv⟩ := (hf a).run_agreeing (hkeys' a) hrun fun k _ => hvu k
      refine ⟨w,(run_bind_of_ok hv).trans hw,?_⟩
      intro k
      exact (hwv k).trans (hvu k)

lemma within_ifSome {keys : List κ} {o : Option β} {f : β → Mutation ε (Multimap κ ν) Unit}
    (h : ∀ b, o = some b → Within keys (f b)) : Within keys (ifSome o f) := by
  cases o with
  | none => exact (within_pure ()).mono (List.nil_subset _)
  | some b => exact h b rfl

lemma idempotent_ifSome {o : Option β} {f : β → Mutation ε (Multimap κ ν) Unit}
    (h : ∀ b, o = some b → Idempotent (f b)) : Idempotent (ifSome o f) := by
  cases o with
  | none => exact idempotent_pure ()
  | some b => exact h b rfl

/-- Look up a key, compute a value from what it has, and replace that by the value. -/
def replace (k : κ) (f : List ν → Except ε ν) : Mutation ε (Multimap κ ν) Unit :=
  get >>= fun s => ofExcept (f (s.getAll k)) >>= fun v => modify (·.insert k v)

lemma replace_run_ok {k : κ} {f : List ν → Except ε ν} {s : Multimap κ ν} {v : ν}
    (h : f (s.getAll k) = .ok v) : (replace k f).run s = (.ok (),s.insert k v) := by
  unfold replace
  rw [run_bind_of_ok (run_get s),h]
  rfl

lemma replace_run_error {k : κ} {f : List ν → Except ε ν} {s : Multimap κ ν} {e : ε}
    (h : f (s.getAll k) = .error e) : (replace k f).run s = (.error e,s) := by
  unfold replace
  rw [run_bind_of_ok (run_get s),h]
  rfl

lemma within_replace (k : κ) (f : List ν → Except ε ν) : Within [k] (replace k f) := by
  have hwrite : ∀ values : List ν, Within [k]
      (ofExcept (f values) >>= fun v => modify (·.insert k v) : Mutation ε (Multimap κ ν) Unit) := by
    intro values
    apply ((within_ofExcept (f values)).mono (List.nil_subset _)).bind
    exact within_insert k
  exact within_read (List.mem_singleton_self k) hwrite

/-- Replacing is idempotent if a computed value is computed again from itself. -/
theorem idempotent_replace {k : κ} {f : List ν → Except ε ν}
    (h : ∀ values v, f values = .ok v → f [v] = .ok v) : Idempotent (replace k f) := by
  apply idempotent_of_run
  intro s r t hrun
  cases hf : f (s.getAll k) with
  | error e =>
    rw [replace_run_error hf] at hrun
    obtain ⟨rfl,rfl⟩ := Prod.mk.inj hrun
    exact ⟨s,replace_run_error hf,fun _ => rfl⟩
  | ok v =>
    rw [replace_run_ok hf] at hrun
    obtain ⟨rfl,rfl⟩ := Prod.mk.inj hrun
    have hagain : f ((s.insert k v).getAll k) = .ok v := by
      rw [Multimap.getAll_insert_self]
      exact h _ v hf
    refine ⟨_,replace_run_ok hagain,?_⟩
    intro j
    rw [Multimap.getAll_insert,Multimap.getAll_insert]
    split_ifs <;> rfl

end SoapAxum.Semantics.Mutation
