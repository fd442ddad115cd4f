import Mathlib.Data.Nat.Notation
import Mathlib.Data.List.Basic
import Mathlib.Tactic.Lemma

/-! Cooperative computations as an executor polls them. A computation reports events, suspends at
its awaits and may return a value. A deadline set from outside can drop it only where it is
suspended. -/
namespace SoapAxum.Semantics

/-- A polled computation with reported events `ε` and result `α`. A stalled one is never woken. -/
inductive Coroutine (ε α : Type) where
  | done (value : α)
  | emit (event : ε) (rest : Coroutine ε α)
  | pending (rest : Coroutine ε α)
  | stalled

/-- A future reports nothing, its caller only learns the value. -/
abbrev Future (α : Type) := Coroutine Empty α

namespace Coroutine

variable {ε α β γ : Type}

protected def bind : Coroutine ε α → (α → Coroutine ε β) → Coroutine ε β
  | done a, f => f a
  | emit e p, f => emit e (p.bind f)
  | pending p, f => pending (p.bind f)
  | stalled, _ => stalled

instance : Monad (Coroutine ε) where
  pure := done
  bind := Coroutine.bind

@[simp] theorem done_bind (a : α) (f : α → Coroutine ε β) : done a >>= f = f a := rfl
@[simp] theorem emit_bind (e : ε) (p : Coroutine ε α) (f : α → Coroutine ε β) :
    emit e p >>= f = emit e (p >>= f) := rfl
@[simp] theorem pending_bind (p : Coroutine ε α) (f : α → Coroutine ε β) :
    pending p >>= f = pending (p >>= f) := rfl
@[simp] theorem stalled_bind (f : α → Coroutine ε β) : (stalled : Coroutine ε α) >>= f = stalled := rfl

lemma bind_done (p : Coroutine ε α) : p >>= done = p := by
  induction p with
  | done a => rfl
  | emit e p ih => rw [emit_bind,ih]
  | pending p ih => rw [pending_bind,ih]
  | stalled => rfl

lemma bind_assoc (p : Coroutine ε α) (f : α → Coroutine ε β) (g : β → Coroutine ε γ) :
    p >>= f >>= g = p >>= fun a => f a >>= g := by
  induction p with
  | done a => rfl
  | emit e p ih => simp only [emit_bind,ih]
  | pending p ih => simp only [pending_bind,ih]
  | stalled => rfl

instance : LawfulMonad (Coroutine ε) :=
  LawfulMonad.mk' _ bind_done (fun _ _ => rfl) bind_assoc

/-- The events reported when nothing interrupts the computation. -/
def trace : Coroutine ε α → List ε
  | done _ => []
  | emit e p => e :: p.trace
  | pending p => p.trace
  | stalled => []

/-- The result when nothing interrupts the computation, if it ever returns. -/
def value : Coroutine ε α → Option α
  | done a => some a
  | emit _ p => p.value
  | pending p => p.value
  | stalled => none

@[simp] theorem trace_pure (a : α) : (pure a : Coroutine ε α).trace = [] := rfl
@[simp] theorem value_pure (a : α) : (pure a : Coroutine ε α).value = some a := rfl

@[simp] theorem trace_bind (p : Coroutine ε α) (f : α → Coroutine ε β) :
    (p >>= f).trace = p.trace ++ p.value.elim [] (fun a => (f a).trace) := by
  induction p with
  | done a => rfl
  | emit e p ih => simp [trace,value,ih]
  | pending p ih => simp [trace,value,ih]
  | stalled => rfl

@[simp] theorem value_bind (p : Coroutine ε α) (f : α → Coroutine ε β) :
    (p >>= f).value = p.value.bind (fun a => (f a).value) := by
  induction p with
  | done a => rfl
  | emit e p ih => simp [value,ih]
  | pending p ih => simp [value,ih]
  | stalled => rfl

/-- A sequence depends on its second step at the value of the first only. -/
theorem bind_congr_value {p : Coroutine ε α} {f g : α → Coroutine ε β}
    (h : ∀ a, p.value = some a → f a = g a) : p >>= f = p >>= g := by
  induction p with
  | done a => exact h a rfl
  | emit e p ih => exact congrArg (emit e) (ih h)
  | pending p ih => exact congrArg pending (ih h)
  | stalled => rfl

/-- What holds of the events of both steps holds of those of a sequence. -/
theorem forall_mem_trace_bind {P : ε → Prop} {p : Coroutine ε α} {f : α → Coroutine ε β}
    (hp : ∀ e ∈ p.trace, P e) (hf : ∀ a, p.value = some a → ∀ e ∈ (f a).trace, P e) :
    ∀ e ∈ (p >>= f).trace, P e := by
  intro e he
  rw [trace_bind,List.mem_append] at he
  rcases he with he | he
  · exact hp e he
  · cases hv : p.value with
    | none => simp [hv] at he
    | some a =>
      rw [hv] at he
      exact hf a hv e he

/-- Report one event and go on. -/
def report (e : ε) : Coroutine ε Unit := emit e (done ())

@[simp] theorem trace_report (e : ε) : (report e).trace = [e] := rfl
@[simp] theorem value_report (e : ε) : (report e).value = some () := rfl

def reportAll : List ε → Coroutine ε Unit
  | [] => done ()
  | e :: es => emit e (reportAll es)

@[simp] theorem trace_reportAll (es : List ε) : (reportAll es).trace = es := by
  induction es with
  | nil => rfl
  | cons e es ih => simp [reportAll,trace,ih]

@[simp] theorem value_reportAll (es : List ε) : (reportAll es).value = some () := by
  induction es with
  | nil => rfl
  | cons e es ih => simpa [reportAll,value] using ih

/-- Await a future inside a computation: every suspension of the future suspends its caller. -/
def await : Future α → Coroutine ε α
  | done a => done a
  | pending p => pending (await p)
  | stalled => stalled

@[simp] theorem trace_await (p : Future α) : (await p : Coroutine ε α).trace = [] := by
  induction p with
  | done a => rfl
  | emit e p ih => exact e.elim
  | pending p ih => exact ih
  | stalled => rfl

@[simp] theorem value_await (p : Future α) : (await p : Coroutine ε α).value = p.value := by
  induction p with
  | done a => rfl
  | emit e p ih => exact e.elim
  | pending p ih => exact ih
  | stalled => rfl

/-- Forget the reported events. -/
def mute : Coroutine ε α → Future α
  | done a => done a
  | emit _ p => mute p
  | pending p => pending (mute p)
  | stalled => stalled

@[simp] theorem value_mute (p : Coroutine ε α) : p.mute.value = p.value := by
  induction p with
  | done a => rfl
  | emit e p ih => exact ih
  | pending p ih => exact ih
  | stalled => rfl

/-- The computation returns `a` after reporting exactly `t`. -/
def Returns (p : Coroutine ε α) (t : List ε) (a : α) : Prop := p.trace = t ∧ p.value = some a

lemma returns_pure {a b : α} {t : List ε} :
    Returns (pure a : Coroutine ε α) t b ↔ t = [] ∧ b = a := by
  simp [Returns,eq_comm]

theorem returns_bind {p : Coroutine ε α} {f : α → Coroutine ε β} {t : List ε} {b : β} :
    Returns (p >>= f) t b ↔ ∃ a s u, Returns p s a ∧ Returns (f a) u b ∧ t = s ++ u := by
  constructor
  · rintro ⟨ht,hv⟩
    rw [value_bind,Option.bind_eq_some_iff] at hv
    obtain ⟨a,ha,hb⟩ := hv
    refine ⟨a,p.trace,(f a).trace,⟨rfl,ha⟩,⟨rfl,hb⟩,?_⟩
    rw [← ht,trace_bind,ha,Option.elim_some]
  · rintro ⟨a,s,u,⟨hs,ha⟩,⟨hu,hb⟩,rfl⟩
    exact ⟨by rw [trace_bind,hs,ha,Option.elim_some,hu],by rw [value_bind,ha]; exact hb⟩

lemma returns_report {e : ε} {t : List ε} {u : Unit} : Returns (report e) t u ↔ t = [e] := by
  simp [Returns,eq_comm]

lemma returns_reportAll {es t : List ε} {u : Unit} : Returns (reportAll es) t u ↔ t = es := by
  simp [Returns,eq_comm]

lemma returns_await {p : Future α} {t : List ε} {a : α} :
    Returns (await p) t a ↔ t = [] ∧ p.value = some a := by
  simp [Returns,eq_comm]

lemma returns_report_bind {e : ε} {p : Unit → Coroutine ε α} {t : List ε} {a : α} :
    Returns (report e >>= p) t a ↔ ∃ s, t = e :: s ∧ Returns (p ()) s a := by
  rw [returns_bind]
  constructor
  · rintro ⟨_,_,s,hr,hp,rfl⟩
    exact ⟨s,by rw [returns_report.mp hr]; rfl,hp⟩
  · rintro ⟨s,rfl,hp⟩
    exact ⟨(),[e],s,returns_report.mpr rfl,hp,rfl⟩

lemma returns_reportAll_bind {es : List ε} {p : Unit → Coroutine ε α} {t : List ε} {a : α} :
    Returns (reportAll es >>= p) t a ↔ ∃ s, t = es ++ s ∧ Returns (p ()) s a := by
  rw [returns_bind]
  constructor
  · rintro ⟨_,_,s,hr,hp,rfl⟩
    exact ⟨s,by rw [returns_reportAll.mp hr],hp⟩
  · rintro ⟨s,rfl,hp⟩
    exact ⟨(),es,s,returns_reportAll.mpr rfl,hp,rfl⟩

theorem returns_await_bind {p : Future α} {f : α → Coroutine ε β} {t : List ε} {b : β} :
    Returns (await p >>= f) t b ↔ ∃ a, p.value = some a ∧ Returns (f a) t b := by
  rw [returns_bind]
  constructor
  · rintro ⟨a,_,s,hp,hf,rfl⟩
    obtain ⟨rfl,ha⟩ := returns_await.mp hp
    exact ⟨a,ha,hf⟩
  · rintro ⟨a,ha,hf⟩
    exact ⟨a,[],t,returns_await.mpr ⟨rfl,ha⟩,hf,rfl⟩

/-- The computation can be found suspended after reporting exactly `t`. -/
def SuspendsAt : Coroutine ε α → List ε → Prop
  | done _, _ => False
  | emit e p, t => ∃ s, t = e :: s ∧ p.SuspendsAt s
  | pending p, t => t = [] ∨ p.SuspendsAt t
  | stalled, t => t = []

theorem suspendsAt_bind {p : Coroutine ε α} {f : α → Coroutine ε β} {t : List ε} :
    (p >>= f).SuspendsAt t ↔
      p.SuspendsAt t ∨ ∃ a s, p.value = some a ∧ t = p.trace ++ s ∧ (f a).SuspendsAt s := by
  induction p generalizing t with
  | done a => simp [SuspendsAt,value,trace]
  | emit e p ih =>
    rw [emit_bind]
    simp only [SuspendsAt,ih,value,trace,List.cons_append]
    constructor
    · rintro ⟨s,rfl,h | ⟨a,u,ha,rfl,hu⟩⟩
      · exact Or.inl ⟨s,rfl,h⟩
      · exact Or.inr ⟨a,u,ha,rfl,hu⟩
    · rintro (⟨s,rfl,h⟩ | ⟨a,u,ha,rfl,hu⟩)
      · exact ⟨s,rfl,Or.inl h⟩
      · exact ⟨_,rfl,Or.inr ⟨a,u,ha,rfl,hu⟩⟩
  | pending p ih =>
    rw [pending_bind]
    simp only [SuspendsAt,ih,value,trace]
    tauto
  | stalled => simp [SuspendsAt,value]

@[simp] theorem suspendsAt_pure {a : α} {t : List ε} :
    ¬ (pure a : Coroutine ε α).SuspendsAt t := id

@[simp] theorem suspendsAt_report {e : ε} {t : List ε} : ¬ (report e).SuspendsAt t := by
  simp [report,SuspendsAt]

@[simp] theorem suspendsAt_reportAll {es t : List ε} : ¬ (reportAll es).SuspendsAt t := by
  induction es generalizing t with
  | nil => exact id
  | cons e es ih =>
    rintro ⟨s,-,h⟩
    exact ih h

/-- A future reports nothing, so its suspensions all show the empty trace. -/
theorem eq_nil_of_suspendsAt_await {p : Future α} {t : List ε}
    (h : (await p : Coroutine ε α).SuspendsAt t) : t = [] := by
  induction p with
  | done a => exact h.elim
  | emit e p ih => exact e.elim
  | pending p ih => exact h.elim id ih
  | stalled => exact h

lemma suspendsAt_report_bind {e : ε} {p : Unit → Coroutine ε α} {t : List ε} :
    (report e >>= p).SuspendsAt t ↔ ∃ s, t = e :: s ∧ (p ()).SuspendsAt s := by
  simp only [suspendsAt_bind,suspendsAt_report,value_report,trace_report,false_or]
  constructor
  · rintro ⟨_,s,-,rfl,h⟩
    exact ⟨s,rfl,h⟩
  · rintro ⟨s,rfl,h⟩
    exact ⟨(),s,trivial,rfl,h⟩

lemma suspendsAt_reportAll_bind {es : List ε} {p : Unit → Coroutine ε α} {t : List ε} :
    (reportAll es >>= p).SuspendsAt t ↔ ∃ s, t = es ++ s ∧ (p ()).SuspendsAt s := by
  simp only [suspendsAt_bind,suspendsAt_reportAll,value_reportAll,trace_reportAll,false_or]
  constructor
  · rintro ⟨_,s,-,rfl,h⟩
    exact ⟨s,rfl,h⟩
  · rintro ⟨s,rfl,h⟩
    exact ⟨(),s,trivial,rfl,h⟩

/-- Awaiting a future, a computation is suspended in the future or in what follows it. -/
theorem suspendsAt_await_bind {p : Future α} {f : α → Coroutine ε β} {t : List ε}
    (h : (await p >>= f).SuspendsAt t) :
    t = [] ∨ ∃ a, p.value = some a ∧ (f a).SuspendsAt t := by
  rcases suspendsAt_bind.mp h with h | ⟨a,s,ha,rfl,hs⟩
  · exact Or.inl (eq_nil_of_suspendsAt_await h)
  · refine Or.inr ⟨a,by rwa [value_await] at ha,?_⟩
    rwa [trace_await,List.nil_append]

/-- What a suspended computation has reported is the beginning of what it reports in the end. -/
theorem prefix_of_suspendsAt {p : Coroutine ε α} {t : List ε} (h : p.SuspendsAt t) :
    t <+: p.trace := by
  induction p generalizing t with
  | done a => exact h.elim
  | emit e p ih =>
    obtain ⟨s,rfl,hs⟩ := h
    exact List.cons_prefix_cons.mpr ⟨rfl,ih hs⟩
  | pending p ih =>
    rcases h with rfl | h
    · exact List.nil_prefix
    · exact ih h
  | stalled =>
    obtain rfl := h
    exact List.nil_prefix

/-- The computation reports `e` after exactly `t`. -/
def Reaches (p : Coroutine ε α) (t : List ε) (e : ε) : Prop := ∃ after, p.trace = t ++ e :: after

@[simp] theorem reaches_pure {a : α} {t : List ε} {e : ε} :
    ¬ (pure a : Coroutine ε α).Reaches t e := by
  simp [Reaches]

lemma reaches_report {e e' : ε} {t : List ε} : (report e).Reaches t e' ↔ t = [] ∧ e' = e := by
  cases t <;> simp [Reaches,eq_comm]

lemma mem_of_reaches_reportAll {es t : List ε} {e : ε} (h : (reportAll es).Reaches t e) :
    e ∈ es := by
  obtain ⟨after,ha⟩ := h
  rw [trace_reportAll] at ha
  simp [ha]

lemma not_reaches_await {p : Future α} {t : List ε} {e : ε} :
    ¬ (await p : Coroutine ε α).Reaches t e := by
  simp [Reaches]

theorem reaches_emit {e e' : ε} {p : Coroutine ε α} {t : List ε} :
    (emit e p).Reaches t e' ↔ (t = [] ∧ e' = e) ∨ ∃ s, t = e :: s ∧ p.Reaches s e' := by
  cases t with
  | nil => simp [Reaches,trace,eq_comm]
  | cons e₁ t =>
    simp only [Reaches,trace,List.cons_append,List.cons.injEq,reduceCtorEq,false_and,false_or]
    constructor
    · rintro ⟨after,rfl,h⟩
      exact ⟨t,⟨rfl,rfl⟩,after,h⟩
    · rintro ⟨_,⟨rfl,rfl⟩,after,h⟩
      exact ⟨after,rfl,h⟩

/-- An event of a sequence is one of its first step, or one of the second after all of the first. -/
theorem reaches_bind {p : Coroutine ε α} {f : α → Coroutine ε β} {t : List ε} {e : ε} :
    (p >>= f).Reaches t e ↔
      p.Reaches t e ∨ ∃ a s, p.value = some a ∧ t = p.trace ++ s ∧ (f a).Reaches s e := by
  induction p generalizing t with
  | done a => simp [Reaches,value,trace]
  | emit e₁ p ih =>
    rw [emit_bind]
    simp only [reaches_emit,ih,value,trace,List.cons_append]
    constructor
    · rintro (h | ⟨s,rfl,h | ⟨a,u,ha,rfl,hu⟩⟩)
      · exact Or.inl (Or.inl h)
      · exact Or.inl (Or.inr ⟨s,rfl,h⟩)
      · exact Or.inr ⟨a,u,ha,rfl,hu⟩
    · rintro ((h | ⟨s,rfl,h⟩) | ⟨a,u,ha,rfl,hu⟩)
      · exact Or.inl h
      · exact Or.inr ⟨s,rfl,Or.inl h⟩
      · exact Or.inr ⟨_,rfl,Or.inr ⟨a,u,ha,rfl,hu⟩⟩
  | pending p ih => exact ih
  | stalled => simp [Reaches,value,trace]

lemma reaches_report_bind {e e' : ε} {p : Unit → Coroutine ε α} {t : List ε} (h : e' ≠ e) :
    (report e >>= p).Reaches t e' ↔ ∃ s, t = e :: s ∧ (p ()).Reaches s e' := by
  simp only [reaches_bind,reaches_report,h,and_false,false_or,value_report,trace_report]
  constructor
  · rintro ⟨_,s,-,rfl,hp⟩
    exact ⟨s,rfl,hp⟩
  · rintro ⟨s,rfl,hp⟩
    exact ⟨(),s,trivial,rfl,hp⟩

theorem reaches_reportAll_bind {es t : List ε} {e : ε} {p : Unit → Coroutine ε α} (h : e ∉ es) :
    (reportAll es >>= p).Reaches t e ↔ ∃ s, t = es ++ s ∧ (p ()).Reaches s e := by
  rw [reaches_bind,value_reportAll,trace_reportAll]
  constructor
  · rintro (hes | ⟨_,s,-,rfl,hp⟩)
    · exact absurd (mem_of_reaches_reportAll hes) h
    · exact ⟨s,rfl,hp⟩
  · rintro ⟨s,rfl,hp⟩
    exact Or.inr ⟨(),s,rfl,rfl,hp⟩

lemma reaches_await_bind {p : Future α} {f : α → Coroutine ε β} {t : List ε} {e : ε} :
    (await p >>= f).Reaches t e ↔ ∃ a, p.value = some a ∧ (f a).Reaches t e := by
  simp [reaches_bind,not_reaches_await]

/-- Suspend `n` times. -/
def sleep : ℕ → Coroutine ε α → Coroutine ε α
  | 0, p => p
  | n+1, p => pending (sleep n p)

@[simp] theorem trace_sleep (n : ℕ) (p : Coroutine ε α) : (sleep n p).trace = p.trace := by
  induction n with
  | zero => rfl
  | succ n ih => exact ih

@[simp] theorem value_sleep (n : ℕ) (p : Coroutine ε α) : (sleep n p).value = p.value := by
  induction n with
  | zero => rfl
  | succ n ih => exact ih

/-- Poll the computation first and look at the deadline only when it is suspended. The deadline is
seen to have passed at the suspension with index `n`, and then the computation is dropped. -/
def timeout (n : ℕ) : Coroutine ε α → Coroutine ε (Option α)
  | done a => done (some a)
  | emit e p => emit e (timeout n p)
  | pending p => match n with
    | 0 => done none
    | n+1 => pending (timeout n p)
  | stalled => sleep n (done none)

/-- In time, the computation is as without the deadline. -/
theorem returns_of_timeout_some {n : ℕ} {p : Coroutine ε α} {t : List ε} {a : α}
    (h : Returns (timeout n p) t (some a)) : Returns p t a := by
  obtain ⟨rfl,hv⟩ := h
  induction p generalizing n with
  | done b => exact ⟨rfl,by simpa [timeout,value] using hv⟩
  | emit e p ih => exact ⟨congrArg (e :: ·) (ih hv).1,(ih hv).2⟩
  | pending p ih => cases n with
    | zero => simp [timeout,value] at hv
    | succ n => exact ih hv
  | stalled => simp [timeout,value] at hv

/-- A computation that is never suspended is in time for every deadline. -/
theorem returns_timeout_of_not_suspendsAt {n : ℕ} {p : Coroutine ε α} {t : List ε} {a : α}
    (hp : ∀ s, ¬ p.SuspendsAt s) (h : Returns p t a) : Returns (timeout n p) t (some a) := by
  obtain ⟨rfl,hv⟩ := h
  induction p with
  | done b => exact ⟨rfl,congrArg some hv⟩
  | emit e p ih =>
    have hr := ih (fun s hs => hp (e :: s) ⟨s,rfl,hs⟩) hv
    exact ⟨congrArg (e :: ·) hr.1,hr.2⟩
  | pending p ih => exact absurd (Or.inl rfl) (hp [])
  | stalled => exact absurd rfl (hp [])

/-- When the deadline passes, the computation was suspended after what it has reported. -/
theorem suspendsAt_of_timeout_none {n : ℕ} {p : Coroutine ε α} {t : List ε}
    (h : Returns (timeout n p) t none) : p.SuspendsAt t := by
  obtain ⟨rfl,hv⟩ := h
  induction p generalizing n with
  | done b => simp [timeout,value] at hv
  | emit e p ih => exact ⟨_,rfl,ih hv⟩
  | pending p ih => cases n with
    | zero => exact Or.inl rfl
    | succ n => exact Or.inr (ih hv)
  | stalled => simp [SuspendsAt,timeout,trace]

/-- A deadline cuts the reported events short, it never adds or reorders any. -/
theorem timeout_trace_prefix (n : ℕ) (p : Coroutine ε α) : (timeout n p).trace <+: p.trace := by
  induction p generalizing n with
  | done a => exact List.nil_prefix
  | emit e p ih => exact List.cons_prefix_cons.mpr ⟨rfl,ih n⟩
  | pending p ih => cases n with
    | zero => exact List.nil_prefix
    | succ n => exact ih n
  | stalled => simp [timeout,trace]

lemma reaches_of_reaches_timeout {n : ℕ} {p : Coroutine ε α} {t : List ε} {e : ε}
    (h : (timeout n p).Reaches t e) : p.Reaches t e := by
  obtain ⟨after,ha⟩ := h
  obtain ⟨more,hm⟩ := timeout_trace_prefix n p
  exact ⟨after ++ more,by rw [← hm,ha,List.append_assoc,List.cons_append]⟩

end Coroutine
end SoapAxum.Semantics
