import Mathlib.Data.List.Count
import SoapAxum.Semantics.Coroutine

/-! How often a computation reports an event of some kind. -/
namespace SoapAxum.Semantics.Coroutine

variable {ε α β : Type}

/-- The number of reported events of a kind when nothing interrupts the computation. -/
def occurrences (kind : ε → Bool) (p : Coroutine ε α) : ℕ := p.trace.countP kind

variable {kind : ε → Bool}

@[simp] theorem occurrences_pure (a : α) : occurrences kind (pure a) = 0 := rfl

@[simp] theorem occurrences_await (p : Future α) :
    occurrences kind (await p : Coroutine ε α) = 0 := by
  rw [occurrences,trace_await,List.countP_nil]

@[simp] theorem occurrences_reportAll (es : List ε) :
    occurrences kind (reportAll es) = es.countP kind := by
  rw [occurrences,trace_reportAll]

@[simp] theorem occurrences_report (e : ε) :
    occurrences kind (report e) = if kind e then 1 else 0 :=
  List.countP_singleton

lemma occurrences_bind (p : Coroutine ε α) (f : α → Coroutine ε β) :
    occurrences kind (p >>= f) =
      occurrences kind p + p.value.elim 0 fun a => occurrences kind (f a) := by
  rw [occurrences,trace_bind,List.countP_append]
  cases p.value <;> rfl

/-- Steps that report none do not count. -/
theorem occurrences_bind_le_right {p : Coroutine ε α} {f : α → Coroutine ε β} {n : ℕ}
    (hp : occurrences kind p = 0) (hf : ∀ a, occurrences kind (f a) ≤ n) :
    occurrences kind (p >>= f) ≤ n := by
  rw [occurrences_bind,hp,Nat.zero_add]
  cases p.value with
  | none => exact Nat.zero_le n
  | some a => exact hf a

lemma occurrences_bind_le_left {p : Coroutine ε α} {f : α → Coroutine ε β} {n : ℕ}
    (hp : occurrences kind p ≤ n) (hf : ∀ a, occurrences kind (f a) = 0) :
    occurrences kind (p >>= f) ≤ n := by
  rw [occurrences_bind]
  cases p.value with
  | none => exact hp
  | some a => rwa [Option.elim_some,hf,Nat.add_zero]

lemma occurrences_timeout_le (n : ℕ) (p : Coroutine ε α) :
    occurrences kind (timeout n p) ≤ occurrences kind p := by
  have hprefix := Coroutine.timeout_trace_prefix n p
  exact hprefix.sublist.countP_le

/-- A computation that is dropped where it is suspended has reported no more than it would have. -/
theorem countP_le_of_suspendsAt {p : Coroutine ε α} {t : List ε} (h : p.SuspendsAt t) :
    t.countP kind ≤ occurrences kind p :=
  (prefix_of_suspendsAt h).sublist.countP_le

end SoapAxum.Semantics.Coroutine
