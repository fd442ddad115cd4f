import Mathlib.Data.Option.Basic
import SoapAxum.Semantics.Coroutine

/-! Two computations side by side, as far as an observer of their events can tell. The observer
overlooks what it does not recognise, and never sees when a computation is suspended. -/
namespace SoapAxum.Semantics

variable {ε ε' ο α α' β β' : Type}

/-- The observer sees the same of both computations, and their results are related. -/
structure Agree (observe : ε → Option ο) (observe' : ε' → Option ο) (R : α → α' → Prop)
    (p : Coroutine ε α) (p' : Coroutine ε' α') : Prop where
  seen : p.trace.filterMap observe = p'.trace.filterMap observe'
  result : Option.Rel R p.value p'.value

namespace Agree

variable {observe : ε → Option ο} {observe' : ε' → Option ο} {R : α → α' → Prop} {S : β → β' → Prop}

protected theorem pure {a : α} {a' : α'} (h : R a a') : Agree observe observe' R (pure a) (pure a') :=
  ⟨rfl,.some h⟩

lemma reportAll {es : List ε} {es' : List ε'} (h : es.filterMap observe = es'.filterMap observe') :
    Agree observe observe' (fun _ _ => True) (.reportAll es) (.reportAll es') := by
  constructor
  · rw [Coroutine.trace_reportAll,Coroutine.trace_reportAll,h]
  · rw [Coroutine.value_reportAll,Coroutine.value_reportAll]
    exact .some trivial

lemma report {e : ε} {e' : ε'} (h : observe e = observe' e') :
    Agree observe observe' (fun _ _ => True) (.report e) (.report e') := by
  have hsame : [e].filterMap observe = [e'].filterMap observe' := by
    rw [List.filterMap_cons,List.filterMap_cons,h]
    rfl
  exact reportAll hsame

lemma await {p : Future α} {p' : Future α'} (h : Option.Rel R p.value p'.value) :
    Agree observe observe' R (.await p) (.await p') := by
  constructor
  · rw [Coroutine.trace_await,Coroutine.trace_await]
    rfl
  · rwa [Coroutine.value_await,Coroutine.value_await]

protected theorem bind {p : Coroutine ε α} {p' : Coroutine ε' α'} {f : α → Coroutine ε β}
    {f' : α' → Coroutine ε' β'} (hp : Agree observe observe' R p p')
    (hf : ∀ a a', R a a' → Agree observe observe' S (f a) (f' a')) :
    Agree observe observe' S (p >>= f) (p' >>= f') := by
  obtain ⟨hseen,hresult⟩ := hp
  constructor
  · rw [Coroutine.trace_bind,Coroutine.trace_bind,List.filterMap_append,List.filterMap_append,hseen]
    generalize p.value = v,p'.value = v' at hresult
    cases hresult with
    | none => rfl
    | some h => exact congrArg _ (hf _ _ h).seen
  · rw [Coroutine.value_bind,Coroutine.value_bind]
    generalize p.value = v,p'.value = v' at hresult
    cases hresult with
    | none => exact .none
    | some h => exact (hf _ _ h).result

/-- Computations with equal results return together. -/
theorem value_eq {p : Coroutine ε α} {p' : Coroutine ε' α} (h : Agree observe observe' Eq p p') :
    p.value = p'.value := by
  have hresult := h.result
  generalize p.value = v,p'.value = v' at hresult ⊢
  cases hresult with
  | none => rfl
  | some h => exact congrArg some h

end Agree

lemma rel_eq_of_eq {a a' : Option α} (h : a = a') : Option.Rel Eq a a' := by
  subst h
  cases a with
  | none => exact .none
  | some a => exact .some rfl

end SoapAxum.Semantics
