import Mathlib.Data.List.Basic
import Mathlib.Tactic.Lemma

/-! Fallible functions on a mutable place. What was written before a failure stays written, so it
is up to the caller whether a half-finished state is seen. -/
namespace SoapAxum.Semantics

/-- A function on a mutable `σ` with result `α`, which may fail with `ε` and keeps its writes. -/
def Mutation (ε σ α : Type) := σ → Except ε α × σ

namespace Mutation

variable {ε σ α β : Type}

def run (m : Mutation ε σ α) (s : σ) : Except ε α × σ := m s

protected def bind (m : Mutation ε σ α) (f : α → Mutation ε σ β) : Mutation ε σ β := fun s =>
  match m s with
  | (.ok a,t) => f a t
  | (.error e,t) => (.error e,t)

instance : Monad (Mutation ε σ) where
  pure a := fun s => (.ok a,s)
  bind := Mutation.bind

def modify (f : σ → σ) : Mutation ε σ Unit := fun s => (.ok (),f s)
def get : Mutation ε σ σ := fun s => (.ok s,s)
def ofExcept (r : Except ε α) : Mutation ε σ α := fun s => (r,s)

/-- Run a function on a value that may be absent. -/
def ifSome (o : Option α) (f : α → Mutation ε σ Unit) : Mutation ε σ Unit :=
  match o with
  | some a => f a
  | none => pure ()

@[simp] theorem ifSome_some (a : α) (f : α → Mutation ε σ Unit) : ifSome (some a) f = f a := rfl
@[simp] theorem ifSome_none (f : α → Mutation ε σ Unit) : ifSome none f = pure () := rfl

@[simp] theorem run_pure (a : α) (s : σ) : (pure a : Mutation ε σ α).run s = (.ok a,s) := rfl
@[simp] theorem run_modify (f : σ → σ) (s : σ) : (modify f : Mutation ε σ Unit).run s = (.ok (),f s) := rfl
@[simp] theorem run_get (s : σ) : (get : Mutation ε σ σ).run s = (.ok s,s) := rfl
@[simp] theorem run_ofExcept (r : Except ε α) (s : σ) : (ofExcept r : Mutation ε σ α).run s = (r,s) := rfl

lemma run_bind (m : Mutation ε σ α) (f : α → Mutation ε σ β) (s : σ) :
    (m >>= f).run s = match m.run s with
      | (.ok a,t) => (f a).run t
      | (.error e,t) => (.error e,t) := rfl

lemma ext {m n : Mutation ε σ α} (h : ∀ s, m.run s = n.run s) : m = n := funext h

lemma bind_pure (m : Mutation ε σ α) : m >>= pure = m := by
  apply ext
  intro s
  rw [run_bind]
  cases h : m.run s with
  | mk r t => cases r <;> rfl

lemma bind_assoc {γ : Type} (m : Mutation ε σ α) (f : α → Mutation ε σ β)
    (g : β → Mutation ε σ γ) : m >>= f >>= g = m >>= fun a => f a >>= g := by
  apply ext
  intro s
  simp only [run_bind]
  cases h : m.run s with
  | mk r t => cases r <;> rfl

instance : LawfulMonad (Mutation ε σ) :=
  LawfulMonad.mk' _ bind_pure (fun _ _ => rfl) bind_assoc

/-- A first step that succeeds hands its state on. -/
theorem run_bind_of_ok {m : Mutation ε σ α} {f : α → Mutation ε σ β} {s t : σ} {a : α}
    (h : m.run s = (.ok a,t)) : (m >>= f).run s = (f a).run t := by
  rw [run_bind,h]

/-- A first step that fails is the last one. -/
theorem run_bind_of_error {m : Mutation ε σ α} {f : α → Mutation ε σ β} {s t : σ} {e : ε}
    (h : m.run s = (.error e,t)) : (m >>= f).run s = (.error e,t) := by
  rw [run_bind,h]

end Mutation
end SoapAxum.Semantics
