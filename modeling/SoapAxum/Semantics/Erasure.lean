import SoapAxum.Semantics.Deadline

/-! Computations without the reports of some kind. Everything else about them is kept, the time they
take included. -/
namespace SoapAxum.Semantics.Coroutine

variable {ε α β : Type}

/-- The computation that does not report the events of a kind. -/
def without (kind : ε → Bool) : Coroutine ε α → Coroutine ε α
  | done a => done a
  | emit e p => if kind e then p.without kind else emit e (p.without kind)
  | pending p => pending (p.without kind)
  | stalled => stalled

variable {kind : ε → Bool}

@[simp] theorem without_pure (a : α) : (pure a : Coroutine ε α).without kind = pure a := rfl

theorem without_bind (p : Coroutine ε α) (f : α → Coroutine ε β) :
    (p >>= f).without kind = p.without kind >>= fun a => (f a).without kind := by
  induction p with
  | done a => rfl
  | emit e p ih =>
    rw [emit_bind,without,without,ih]
    split_ifs <;> rfl
  | pending p ih => rw [pending_bind,without,without,ih,pending_bind]
  | stalled => rfl

@[simp] theorem without_await (p : Future α) : (await p : Coroutine ε α).without kind = await p := by
  induction p with
  | done a => rfl
  | emit e p ih => exact e.elim
  | pending p ih => exact congrArg pending ih
  | stalled => rfl

lemma without_report {e : ε} (h : kind e = false) : (report e).without kind = report e := by
  rw [report,without,h]
  rfl

/-- Reports of the kind are not missed. -/
theorem without_reportAll {es : List ε} (h : ∀ e ∈ es, kind e = true) :
    (reportAll es).without kind = pure () := by
  induction es with
  | nil => rfl
  | cons e es ih =>
    obtain ⟨he,hes⟩ := List.forall_mem_cons.mp h
    rw [reportAll,without,he,if_pos rfl,ih hes]

lemma without_sleep (n : ℕ) (p : Coroutine ε α) :
    (sleep n p).without kind = sleep n (p.without kind) := by
  induction n with
  | zero => rfl
  | succ n ih => exact congrArg pending ih

/-- Reports take no time, so a deadline finds both computations at the same point. -/
theorem without_timeout (n : ℕ) (p : Coroutine ε α) :
    (timeout n p).without kind = timeout n (p.without kind) := by
  induction p generalizing n with
  | done a => rfl
  | emit e p ih =>
    rw [timeout,without,without,ih]
    split_ifs <;> rfl
  | pending p ih => cases n with
    | zero => rfl
    | succ n => exact congrArg pending (ih n)
  | stalled => exact without_sleep n (done none)

theorem trace_without (p : Coroutine ε α) :
    (p.without kind).trace = p.trace.filter fun e => !kind e := by
  induction p with
  | done a => rfl
  | emit e p ih =>
    rw [without,trace,List.filter_cons,← ih]
    cases kind e <;> rfl
  | pending p ih => exact ih
  | stalled => rfl

lemma value_without (p : Coroutine ε α) : (p.without kind).value = p.value := by
  induction p with
  | done a => rfl
  | emit e p ih =>
    rw [without,value,← ih]
    split_ifs <;> rfl
  | pending p ih => exact ih
  | stalled => rfl

lemma suspensions_without (p : Coroutine ε α) : (p.without kind).suspensions = p.suspensions := by
  induction p with
  | done a => rfl
  | emit e p ih =>
    rw [without,suspensions,← ih]
    split_ifs <;> rfl
  | pending p ih => exact congrArg (·+1) ih
  | stalled => rfl

end SoapAxum.Semantics.Coroutine
